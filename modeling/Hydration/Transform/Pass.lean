import Hydration.Diagnostic
import Hydration.Failure
import Hydration.Index
import Hydration.Validation.Options
import Hydration.Transform.Class

/-! Hydrating a module: every outermost class that the index locates is replaced by its hydrated
form, and the helpers are imported once. A module without such a class stays as it is. Components
of the file that match no class are reported. -/

namespace Hydration.Transform

open Syntax

structure Located where
  head : ClassHead
  body : Suite
  component : Component

abbrev Locate := ClassHead → Option Component

mutual

/-- The outermost located classes of a statement, in order. -/
def locatedIn (locate : Locate) : Stmt → List Located
  | .line _ => []
  | .func _ body => locatedInSuite locate body
  | .class_ head body =>
    match locate head with
    | some component => [⟨head, body, component⟩]
    | none => locatedInSuite locate body
  | .compound clauses => locatedInClauses locate clauses

def locatedInSuite (locate : Locate) : Suite → List Located
  | .block _ _ body _ => locatedInAll locate body
  | .inline .. => []

def locatedInClauses (locate : Locate) : List Clause → List Located
  | [] => []
  | .mk _ _ _ body :: rest => locatedInSuite locate body ++ locatedInClauses locate rest

def locatedInAll (locate : Locate) : List Stmt → List Located
  | [] => []
  | stmt :: rest => locatedIn locate stmt ++ locatedInAll locate rest

end

abbrev Replace := Component → ClassHead → Suite → Except ReadError Stmt

mutual

/-- Replaces the outermost located classes of a statement; nothing beneath one is visited. -/
def replaceIn (locate : Locate) (replace : Replace) : Stmt → Except ReadError Stmt
  | .line line => .ok (.line line)
  | .func head body => do return .func head (← replaceInSuite locate replace body)
  | .class_ head body =>
    match locate head with
    | some component => replace component head body
    | none => do return .class_ head (← replaceInSuite locate replace body)
  | .compound clauses => do return .compound (← replaceInClauses locate replace clauses)

def replaceInSuite (locate : Locate) (replace : Replace) : Suite → Except ReadError Suite
  | .block header indent body footer => do
    return .block header indent (← replaceInAll locate replace body) footer
  | .inline gap entries tail => .ok (.inline gap entries tail)

def replaceInClauses (locate : Locate) (replace : Replace) :
    List Clause → Except ReadError (List Clause)
  | [] => .ok []
  | .mk leading head beforeColon body :: rest => do
    let body ← replaceInSuite locate replace body
    return .mk leading head beforeColon body :: (← replaceInClauses locate replace rest)

def replaceInAll (locate : Locate) (replace : Replace) : List Stmt → Except ReadError (List Stmt)
  | [] => .ok []
  | stmt :: rest => do
    let stmt ← replaceIn locate replace stmt
    return stmt :: (← replaceInAll locate replace rest)

end

structure Context where
  options : Options := {}
  file : String := "<module>"
deriving Inhabited

def Context.warning (context : Context) (category : Category) (header message : String) :
    Diagnostic :=
  { severity := .warning, category, header, message, file := some context.file }

def missingClass (context : Context) (cmp : Component) : Diagnostic :=
  context.warning .hydrate "Hydrate"
    (s!"Component '{cmp.tag}' expects class '{cmp.className}', " ++
      "which is not declared in this module")

def otherFile (context : Context) (cmp : Component) : Diagnostic :=
  context.warning .hydrate "Hydrate"
    (s!"Component '{cmp.tag}' is registered for '{cmp.sourcePath}', not '{context.file}'; " ++
      s!"class '{cmp.className}' was not hydrated")

/-- Components of the file without a class, or all components when none is of the file. -/
def unusedComponents (context : Context) (index : Index) (found : List String) : List Diagnostic :=
  let expected := index.ofFile context.file
  (expected.filter fun cmp => !found.contains cmp.className).map (missingClass context) ++
    if expected.isEmpty then index.toList.map (otherFile context) else []

def coreHelpers : List String := ["register_instance", "create_event", "get_element"]

/-- The listed helpers and then those that are always needed, each once. -/
def helperNames (options : Options) : List String :=
  (options.runtimeHelpers ++ coreHelpers).foldl
    (fun names name => if names.contains name then names else names ++ [name]) []

def helperSpecifiers (options : Options) : List Imports.Specifier :=
  Imports.specifiersOf options.runtimeModule (helperNames options)

def referenceTo (options : Options) (references : List (String × String)) (name : String) :
    String :=
  (references.lookup (Imports.Specifier.key ⟨options.runtimeModule, name⟩)).getD name

def helpersOf (options : Options) (references : List (String × String)) : Helpers :=
  { register := referenceTo options references "register_instance"
    createEvent := referenceTo options references "create_event"
    element := referenceTo options references "get_element" }

def isPlainIndent (indent : String) : Bool :=
  !indent.isEmpty && indent.toList.all fun c => c == ' ' || c == '\t'

def checkIndent (style : Style) : Except Failure Unit :=
  if isPlainIndent style.indent then .ok () else .error (.badIndent style.indent)

def planFor (options : Options) (helpers : Helpers) (style : Style) (component : Component) :
    Plan :=
  { component, helpers, style
    clientBases := options.clientBases
    bootstrapDecorators := options.bootstrapDecorators }

def replaceClass (options : Options) (helpers : Helpers) (style : Style) : Replace :=
  fun component head body => hydrateClass (planFor options helpers style component) head body

def locateIn (index : Index) (file : String) : Locate := fun head => index.get? file head.name

def locatedClasses (index : Index) (file : String) (m : Module) : List Located :=
  locatedInAll (locateIn index file) m.body

def replaceClasses (index : Index) (context : Context) (helpers : Helpers) (m : Module) :
    Except Failure Module := do
  checkIndent m.style
  let replace := replaceClass context.options helpers m.style
  let body ← (replaceInAll (locateIn index context.file) replace m.body).mapError .read
  return { m with body }

def importWarnings (context : Context) (warnings : List String) : List Diagnostic :=
  warnings.map (context.warning .imports "Imports")

def hydrateModule (index : Index) (context : Context) (m : Module) :
    Except Failure (Module × List Diagnostic) := do
  let located := locatedClasses index context.file m
  let unused := unusedComponents context index (located.map (·.component.className))
  if located.isEmpty then return (m, unused)
  let options := context.options
  let supplied ← (Imports.supply options.format (helperSpecifiers options) m).mapError
    fun e => .read (.tree e)
  let helpers := helpersOf options supplied.references
  let hydrated ← replaceClasses index context helpers supplied.module
  return (hydrated, unused ++ importWarnings context supplied.warnings)

end Hydration.Transform
