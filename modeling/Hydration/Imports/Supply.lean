import Hydration.Imports.Scope
import Hydration.Imports.Header

/-! Adding the imports that a module lacks. A name that the module already imports is reused under
whatever text refers to it; the others are imported behind the head of the module. -/

namespace Hydration.Imports

open Syntax

structure Specifier where
  module : String
  name : String
deriving Repr, DecidableEq, Inhabited

def Specifier.key (s : Specifier) : String := s.module ++ ":" ++ s.name

def specifiersOf (module : String) (names : List String) : List Specifier :=
  names.map fun name => ⟨module, name⟩

/-- How missing names are imported: each by name, or through their module. -/
inductive ImportStyle where
  | named
  | qualified
deriving Repr, DecidableEq, Inhabited

def aliasPrefix : String := "_hydrate_"

/-- The text that refers to each required import, and what had to be renamed. -/
structure Supplied where
  module : Module
  references : List (String × String) := []
  warnings : List String := []

def putReference (references : List (String × String)) (key text : String) :
    List (String × String) :=
  match references with
  | [] => [(key, text)]
  | (k, t) :: rest => if k == key then (k, text) :: rest else (k, t) :: putReference rest key text

def renamedMessage (name what asName : String) : String :=
  s!"'{name}' is already defined in this module; importing {what} as '{asName}'"

/-- The state of an injection: names taken, imports so far by module, references, warnings. -/
structure NamedState where
  taken : List String
  groups : List (String × List ImportName) := []
  references : List (String × String)
  warnings : List String := []

def addToGroup (groups : List (String × List ImportName)) (module : String) (item : ImportName) :
    List (String × List ImportName) :=
  match groups with
  | [] => [(module, [item])]
  | (m, items) :: rest =>
    if m == module then (m, items ++ [item]) :: rest else (m, items) :: addToGroup rest module item

def asAlias (name : String) : Around × String := (⟨.space, .space⟩, name)

def addNamed (state : NamedState) (s : Specifier) : Except TreeError NamedState := do
  let clash := state.taken.contains s.name
  let bound := if clash then aliasPrefix ++ s.name else s.name
  let asName ← if clash then (do return some (asAlias (← checkName bound))) else pure none
  let name ← checkName s.name
  let warnings :=
    if clash then state.warnings ++ [renamedMessage s.name s.key bound] else state.warnings
  return {
    taken := state.taken ++ [bound]
    groups := addToGroup state.groups s.module { name := .name name, asName }
    references := putReference state.references s.key bound
    warnings }

def plainLine (stmt : Small) : Stmt := .line { entries := [{ stmt }] }

def namedStatement : String × List ImportName → Except TreeError Stmt
  | (module, items) => do
    let path ← Expr.ofDottedName module
    return plainLine (.importFrom .space [] (some path) .space .space (.names none items))

structure QualifiedState where
  names : List (String × String) := []
  statements : List Stmt := []
  references : List (String × String)
  warnings : List String := []

def underscored (module : String) : String :=
  String.ofList (module.toList.map fun c => if c == '.' then '_' else c)

def addModule (b : Scope) (state : QualifiedState) (module : String) :
    Except TreeError QualifiedState := do
  let root := (splitDots module).headD ""
  let clash := b.boundNames.contains root && !b.importsRoot root
  let bound := if clash then aliasPrefix ++ underscored module else module
  let asName ← if clash then (do return some (asAlias (← checkName bound))) else pure none
  let path ← Expr.ofDottedName module
  let warnings :=
    if clash then state.warnings ++ [renamedMessage root module bound] else state.warnings
  return { state with
    names := state.names ++ [(module, bound)]
    statements := state.statements ++ [plainLine (.import_ .space [{ name := path, asName }])]
    warnings }

def addQualified (b : Scope) (state : QualifiedState) (s : Specifier) :
    Except TreeError QualifiedState := do
  let state ← if (state.names.lookup s.module).isSome then pure state else addModule b state s.module
  let bound := (state.names.lookup s.module).getD s.module
  return { state with references := putReference state.references s.key (bound ++ "." ++ s.name) }

def injections (style : ImportStyle) (b : Scope) (references : List (String × String))
    (missing : List Specifier) :
    Except TreeError (List Stmt × List (String × String) × List String) := do
  match style with
  | .named =>
    let state ← missing.foldlM addNamed { taken := b.boundNames, references }
    return (← state.groups.mapM namedStatement, state.references, state.warnings)
  | .qualified =>
    let state ← missing.foldlM (addQualified b) { references }
    return (state.statements, state.references, state.warnings)

/-- The text that already refers to a required import. An empty text refers to nothing. -/
def reference? (b : Scope) (s : Specifier) : Option String :=
  (b.resolve s.module s.name).filter fun text => !text.isEmpty

def resolvedReferences (b : Scope) (specifiers : List Specifier) : List (String × String) :=
  specifiers.foldl (fun references s =>
    match reference? b s with
    | some text => putReference references s.key text
    | none => references) []

def missingSpecifiers (b : Scope) (specifiers : List Specifier) : List Specifier :=
  specifiers.filter fun s => (reference? b s).isNone

def insertAt (body : List Stmt) (index : Nat) (statements : List Stmt) : List Stmt :=
  body.take index ++ statements ++ body.drop index

/-- Makes sure that every specifier is imported at the top level. -/
def supply (style : ImportStyle) (specifiers : List Specifier) (m : Module) :
    Except TreeError Supplied := do
  let b := scanScope m
  let references := resolvedReferences b specifiers
  let missing := missingSpecifiers b specifiers
  if missing.isEmpty then return { module := m, references }
  let (statements, references, warnings) ← injections style b references missing
  return {
    module := { m with body := insertAt m.body (headerIndex m.body) statements }
    references, warnings }

end Hydration.Imports
