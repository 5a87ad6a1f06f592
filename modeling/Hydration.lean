import Hydration.Main
import Hydration.Proofs.Settling
import Hydration.Proofs.Address
import Hydration.Proofs.Success
import Hydration.Proofs.Outermost
import Hydration.Proofs.Naming
import Hydration.Proofs.Facts
import Hydration.Proofs.Injection
import Hydration.Proofs.NewLines
import Hydration.Proofs.Selective
import Hydration.Proofs.Rehydrated
import Hydration.Proofs.Resupply
import Hydration.Proofs.Execution
import Hydration.Proofs.Soundness
import Hydration.Proofs.Tokens
import Hydration.Proofs.Parsing
import Hydration.Proofs.Rules
import Hydration.Proofs.Reading
import Hydration.Proofs.History
import Hydration.Proofs.Batch
import Hydration.Proofs.Indexing
import Hydration.Proofs.Reporting
import Hydration.Proofs.Commuting
import Hydration.Proofs.Spelling
import Hydration.Proofs.Writing
import Hydration.Proofs.Generated
import Hydration.Proofs.Planting
import Hydration.Proofs.Passes
import Hydration.Proofs.Compiling
import Hydration.Proofs.Presentation
import Hydration.Proofs.Accounting
import Hydration.Proofs.Locations
import Hydration.Proofs.Places
import Hydration.Proofs.Deliveries
import Hydration.Proofs.Selection
import Hydration.Proofs.Hydrating
import Hydration.Proofs.Destinations
import Hydration.Proofs.Verdict
import Hydration.Proofs.Signatures
import Hydration.Proofs.Calls
import Hydration.Proofs.Misreading
import Hydration.Proofs.Containment
import Hydration.Proofs.Decoding
import Hydration.Proofs.Preservation
import Hydration.Proofs.Literals
import Hydration.Proofs.Lines
import Hydration.Proofs.Phrases
import Hydration.Proofs.Operands
import Hydration.Proofs.Openings
import Hydration.Proofs.OpeningTexts
import Hydration.Proofs.ClassBodies
import Hydration.Proofs.ConstructorBodies
import Hydration.Proofs.ElementTargets
import Hydration.Proofs.Scopes
import Hydration.Proofs.Hygiene
import Hydration.Proofs.Definitions
import Hydration.Proofs.ClassFrames
import Hydration.Proofs.Blocks
import Hydration.Proofs.Refusals
import Hydration.Proofs.ClassScope
import Hydration.Proofs.MetadataTable
import Hydration.Proofs.SharedLines
import Hydration.Proofs.SharedMembers
import Hydration.Proofs.Comments
import Hydration.Proofs.WrittenComments
import Hydration.Proofs.KeptComments
import Hydration.Proofs.Splicing
import Hydration.Proofs.FreshNames
import Hydration.Proofs.TopLevel
import Hydration.Proofs.DeadBranches
import Hydration.Proofs.Headers
import Hydration.Proofs.NormalForms
import Hydration.Proofs.Groups
import Hydration.Proofs.SameFiles
import Hydration.Proofs.Schemas
import Hydration.Proofs.LongNumbers
import Hydration.Proofs.Manifests
import Hydration.Proofs.Precedence
import Hydration.Proofs.Levels
import Hydration.Proofs.StageOrder
import Hydration.Proofs.SingleModules
import Hydration.Proofs.PathSpellings
import Hydration.Proofs.Registration
import Hydration.Proofs.DottedNames
