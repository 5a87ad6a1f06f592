import Hydration.Imports.DottedName

/-! What the top-level statements of a module bind, with imports kept apart from other names. Blocks
under `if` and `try` are part of the top level; one guarded by the type-checking flag is not, as it
never runs. -/

namespace Hydration.Imports

open Syntax

/-- The bindings of a module. A key that is bound twice keeps its first value. -/
structure Scope where
  /-- The local name of a name imported from a module. -/
  fromNames : List ((String × String) × String) := []
  starModules : List String := []
  /-- The text that refers to an imported module. -/
  namespaces : List (String × String) := []
  imported : List String := []
  defined : List String := []
deriving Repr, Inhabited

def addFirst [BEq κ] (entries : List (κ × String)) (key : κ) (value : String) :
    List (κ × String) :=
  if (entries.lookup key).isSome then entries else entries ++ [(key, value)]

namespace Scope

def boundNames (b : Scope) : List String := b.imported ++ b.defined

/-- A root is bound by an import of it, or of a module below it, under its own name. -/
def importsRoot (b : Scope) (root : String) : Bool :=
  b.namespaces.any fun (module, reference) =>
    reference == module && (splitDots module).headD "" == root

/-- The text that refers to a name of a module, if the module is imported in a way that gives it:
by the name itself, through the module, or by a star. -/
def resolve (b : Scope) (module name : String) : Option String :=
  match b.fromNames.lookup (module, name) with
  | some asName => some asName
  | none =>
    match b.namespaces.lookup module with
    | some reference => some (reference ++ "." ++ name)
    | none => if b.starModules.contains module then some name else none

def addImport (b : Scope) (item : ImportName) : Scope :=
  let full := item.name.fullName
  match item.asName with
  | some (_, asName) =>
    { b with
      namespaces := addFirst b.namespaces full asName
      imported := b.imported ++ [asName] }
  | none =>
    { b with
      namespaces := addFirst b.namespaces full full
      imported := b.imported ++ [(splitDots full).headD ""] }

def addFromName (module : String) (b : Scope) (item : ImportName) : Scope :=
  let name := item.name.fullName
  let bound := match item.asName with
    | some (_, asName) => asName
    | none => name
  { b with
    fromNames := addFirst b.fromNames (module, name) bound
    imported := b.imported ++ [bound] }

def define (b : Scope) (names : List String) : Scope :=
  { b with defined := b.defined ++ names }

def addSmall (b : Scope) : Small → Scope
  | .import_ _ names => names.foldl addImport b
  | .importFrom _ [] (some path) _ _ .star =>
    { b with starModules := b.starModules ++ [path.fullName] }
  | .importFrom _ [] (some path) _ _ (.names _ names) =>
    names.foldl (addFromName path.fullName) b
  | .assign targets _ => b.define (targets.flatMap fun t => t.target.boundNames)
  | .annAssign target _ _ _ => b.define target.boundNames
  | .augAssign target _ _ _ => b.define target.boundNames
  | _ => b

def addEntries (b : Scope) (entries : List Entry) : Scope :=
  entries.foldl (fun b entry => b.addSmall entry.stmt) b

end Scope

def isCheckingFlag (test : Expr) : Bool :=
  test.fullName == "TYPE_CHECKING" || test.fullName == "typing.TYPE_CHECKING"

/-- The body of a clause that never runs binds nothing. -/
def ClauseHead.neverRuns : ClauseHead → Bool
  | .if_ _ test => isCheckingFlag test
  | .elif _ test => isCheckingFlag test
  | _ => false

def isStarHandler : Clause → Bool
  | .mk _ (.exceptStar ..) _ _ => true
  | _ => false

/-- The compound statements that the scan enters: `if` and plain `try`. -/
def isScanned (clauses : List Clause) : Bool :=
  match clauses with
  | .mk _ (.if_ ..) _ _ :: _ => true
  | .mk _ .try_ _ _ :: handlers => !handlers.any isStarHandler
  | _ => false

mutual

def scanStmt (b : Scope) : Stmt → Scope
  | .line line => b.addEntries line.entries
  | .func head _ => b.define [head.name]
  | .class_ head _ => b.define [head.name]
  | .compound clauses => if isScanned clauses then scanClauses b clauses else b

def scanSuite (b : Scope) : Suite → Scope
  | .block _ _ body _ => scanStmts b body
  | .inline _ entries _ => b.addEntries entries

def scanClauses (b : Scope) : List Clause → Scope
  | [] => b
  | .mk _ head _ body :: rest =>
    scanClauses (if ClauseHead.neverRuns head then b else scanSuite b body) rest

def scanStmts (b : Scope) : List Stmt → Scope
  | [] => b
  | stmt :: rest => scanStmts (scanStmt b stmt) rest

end

def scanScope (m : Module) : Scope := scanStmts {} m.body

end Hydration.Imports
