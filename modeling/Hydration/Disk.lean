import Hydration.Path.Location
import Hydration.Text.Printable
import Hydration.Text.Utf8
import Hydration.Validation.Check

/-! Access to files. A tree of files held in memory and the file system of the machine give the same
access. Beside its files a machine has two traits that a run can come upon: some texts nest deeper than
it can follow, and it has its own words for data that a schema refuses. -/

namespace Hydration

open Hydration.Path

inductive Trouble where
  | noEntry
  | exists
  | notFolder
  | isFolder
  | other (number : Nat) (text : String)
deriving Repr, DecidableEq, Inhabited

def Trouble.number : Trouble → Nat
  | .noEntry => 2
  | .exists => 17
  | .notFolder => 20
  | .isFolder => 21
  | .other number _ => number

def Trouble.text : Trouble → String
  | .noEntry => "No such file or directory"
  | .exists => "File exists"
  | .notFolder => "Not a directory"
  | .isFolder => "Is a directory"
  | .other _ text => text

structure FileError where
  trouble : Trouble
  path : String
deriving Repr, DecidableEq, Inhabited

def FileError.message (e : FileError) : String :=
  s!"[Errno {e.trouble.number}] {e.trouble.text}: {Text.quoted e.path}"

inductive EntryKind where
  | file | folder
deriving Repr, DecidableEq

/-- What a text is read as. -/
inductive DataFormat where
  | json | toml
deriving Repr, DecidableEq

class FileAccess (m : Type → Type) where
  current : m Location
  look : Location → m (Option EntryKind)
  read : Location → m (Except FileError (List UInt8))
  makeFolder : Location → m (Except FileError Unit)
  write : Location → String → m (Except FileError Unit)
  /-- Reading the text takes more levels of calls than there are. -/
  overflows : DataFormat → String → m Bool
  /-- All that is said of data that does not fit a schema of the given title. -/
  explain : String → List Validation.Issue → m String

inductive Node where
  | folder
  | file (bytes : List UInt8)
deriving Repr, DecidableEq, Inhabited

structure Disk where
  current : List String := []
  nodes : List (List String × Node) := []
  overflows : DataFormat → String → Bool := fun _ _ => false
  explain : String → List Validation.Issue → String := Validation.issueCount
deriving Inhabited

namespace Disk

def node? (disk : Disk) (parts : List String) : Option Node :=
  if parts.isEmpty then some .folder else disk.nodes.lookup parts

def step (disk : Disk) (parts : List String) (segment : String) :
    Except Trouble (List String) :=
  match disk.node? parts with
  | none => .error .noEntry
  | some (.file _) => .error .notFolder
  | some .folder => .ok (if segment == ".." then parts.dropLast else parts ++ [segment])

def walk (disk : Disk) (l : Location) : Except Trouble (List String) :=
  l.parts.foldlM disk.step (if l.isAbsolute then [] else disk.current)

def find (disk : Disk) (l : Location) : Except Trouble Node := do
  match disk.node? (← disk.walk l) with
  | some node => return node
  | none => .error .noEntry

def look (disk : Disk) (l : Location) : Option EntryKind :=
  match disk.find l with
  | .ok .folder => some .folder
  | .ok (.file _) => some .file
  | .error _ => none

def read (disk : Disk) (l : Location) : Except Trouble (List UInt8) := do
  match ← disk.find l with
  | .file bytes => return bytes
  | .folder => .error .isFolder

def setNode (nodes : List (List String × Node)) (parts : List String) (node : Node) :
    List (List String × Node) :=
  match nodes with
  | [] => [(parts, node)]
  | (p, n) :: rest => if p == parts then (p, node) :: rest else (p, n) :: setNode rest parts node

def put (disk : Disk) (parts : List String) (node : Node) : Disk :=
  { disk with nodes := setNode disk.nodes parts node }

/-- A folder comes into being where all above it exists and nothing has its name. -/
def makeFolder (disk : Disk) (l : Location) : Except Trouble Disk := do
  let parts ← disk.walk l
  match disk.node? parts.dropLast, disk.node? parts with
  | _, some _ => .error .exists
  | some .folder, none => return disk.put parts .folder
  | some (.file _), none => .error .notFolder
  | none, none => .error .noEntry

def write (disk : Disk) (l : Location) (text : String) : Except Trouble Disk := do
  let parts ← disk.walk l
  match disk.node? parts.dropLast, disk.node? parts with
  | _, some .folder => .error .isFolder
  | some .folder, _ => return disk.put parts (.file (Text.encode text))
  | some (.file _), _ => .error .notFolder
  | none, _ => .error .noEntry

def plant (disk : Disk) (parts : List String) (node : Node) : Disk :=
  let folders := (List.range (parts.length - 1)).map fun i => parts.take (i + 1)
  let disk := folders.foldl
    (fun disk p => if (disk.node? p).isSome then disk else disk.put p .folder) disk
  disk.put parts node

/-- Runs a change; a failed one leaves the disk as it is. -/
def change (l : Location) (f : Disk → Except Trouble Disk) : StateM Disk (Except FileError Unit) :=
  fun disk =>
    match f disk with
    | .ok disk => (.ok (), disk)
    | .error trouble => (.error ⟨trouble, l.toText⟩, disk)

instance : FileAccess (StateM Disk) where
  current := fun disk => ({ slashes := 1, parts := disk.current }, disk)
  look l := fun disk => (disk.look l, disk)
  read l := fun disk => ((disk.read l).mapError fun trouble => ⟨trouble, l.toText⟩, disk)
  makeFolder l := change l fun disk => disk.makeFolder l
  write l text := change l fun disk => disk.write l text
  overflows format text := fun disk => (disk.overflows format text, disk)
  explain title issues := fun disk => (disk.explain title issues, disk)

end Disk

section

variable {m : Type → Type} [Monad m] [FileAccess m]

open FileAccess

def resolve (l : Location) : m Location := do return Location.resolve (← current) l

def isFile (l : Location) : m Bool := do return (← look l) == some .file

def isFolder (l : Location) : m Bool := do return (← look l) == some .folder

/-- Makes a folder and all that lack above it. The parts are those of the place, the last first. -/
def makeFolderAt (slashes : Nat) : List String → m (Except FileError Unit)
  | [] => makeOne { slashes }
  | part :: above => do
    let l : Location := { slashes, parts := (part :: above).reverse }
    match ← makeFolder l with
    | .error ⟨.noEntry, _⟩ =>
      match ← makeFolderAt slashes above with
      | .ok () => makeOne l
      | .error e => return .error e
    | .error e => if ← isFolder l then return .ok () else return .error e
    | .ok () => return .ok ()
where
  makeOne (l : Location) : m (Except FileError Unit) := do
    match ← makeFolder l with
    | .error e => if ← isFolder l then return .ok () else return .error e
    | .ok () => return .ok ()

def makeFolders (l : Location) : m (Except FileError Unit) :=
  makeFolderAt l.slashes l.parts.reverse

end

end Hydration
