import Hydration.Diagnostic
import Hydration.Transform.Pass
import Hydration.Syntax.Printer
import Hydration.Text.Character

/-! Stages of a compilation: a text is read as a module, passes run over the module one after another,
and the result is written as text again. -/

namespace Hydration

open Syntax Transform

structure PassOutput where
  module : Module
  diagnostics : List Diagnostic := []

/-- A pass, and what it notes down while it runs. -/
structure Pass where
  run : Context → Module → Except Failure PassOutput
  records : Context → Module → List Record := fun _ _ => []

/-- What a compiler is given to run; something that is no pass is known by its kind. -/
inductive Stage where
  | pass (pass : Pass)
  | foreign (kind : String)

def hydratedRecord (context : Context) (cls : Located) : Record :=
  ⟨.debug, s!"Hydrating {cls.component.className} ({cls.component.tag}) in {context.file}"⟩

def canHydrate (options : Options) (helpers : Helpers) (style : Style) (cls : Located) : Bool :=
  match replaceClass options helpers style cls.component cls.head cls.body with
  | .ok _ => true
  | .error _ => false

/-- A record for each class up to the first that cannot be hydrated, and one for all of them. -/
def classRecords (context : Context) (helpers : Helpers) (style : Style) (located : List Located) :
    List Record :=
  let done := located.takeWhile (canHydrate context.options helpers style)
  let failing := (located.drop done.length).take 1
  (done ++ failing).map (hydratedRecord context) ++
    if failing.isEmpty then [⟨.debug, s!"Hydrated {done.length} class(es) in {context.file}"⟩]
    else []

def injectionRecords (before after : Module) : List Record :=
  let count := after.body.length - before.body.length
  if count = 0 then [] else [⟨.debug, s!"Injecting {count} runtime import statement(s)"⟩]

def hydrationRecords (index : Index) (context : Context) (m : Module) : List Record :=
  let located := locatedClasses index context.file m
  let options := context.options
  if located.isEmpty then []
  else match Imports.supply options.format (helperSpecifiers options) m with
  | .error _ => []
  | .ok supplied =>
    let helpers := helpersOf options supplied.references
    injectionRecords m supplied.module ++
      if isPlainIndent m.style.indent then classRecords context helpers m.style located else []

def Pass.hydration (index : Index) : Pass where
  run context m := (Transform.hydrateModule index context m).map fun (m, diagnostics) => ⟨m, diagnostics⟩
  records := hydrationRecords index

/-- A pass that leaves the module alone and reports one thing. -/
def Pass.note (message : String) (severity : Severity) (category : Category) (header : String) :
    Pass where
  run context m :=
    .ok ⟨m, [{ severity, category, header, message, file := some context.file }]⟩

def runPasses (context : Context) (passes : List Pass) (m : Module) : Except Failure PassOutput :=
  passes.foldlM (fun result pass => do
    let next ← pass.run context result.module
    return ⟨next.module, result.diagnostics ++ next.diagnostics⟩) ⟨m, []⟩

def passRecords (context : Context) : List Pass → Module → List Record
  | [], _ => []
  | pass :: rest, m =>
    pass.records context m ++
      match pass.run context m with
      | .ok result => passRecords context rest result.module
      | .error _ => []

def decimalNumber (digits : List Char) : Nat :=
  digits.foldl (fun n c => 10 * n + Text.decimalValue c) 0

/-- A version as `major.minor`, in decimal digits of any script. -/
def readVersion (text : String) : Option (Nat × Nat) :=
  let cs := text.toList
  let major := cs.takeWhile Text.isDecimal
  match cs.dropWhile Text.isDecimal with
  | '.' :: minor =>
    if major.isEmpty || minor.isEmpty || !minor.all Text.isDecimal then none
    else some (decimalNumber major, decimalNumber minor)
  | _ => none

/-- The version of the grammar that the options ask for, if it is known. -/
def checkVersion (options : Options) : Except Failure (Option String) :=
  match named? options.targetVersion with
  | none => .ok none
  | some version =>
    match readVersion version with
    | some number =>
      if Failure.knownVersions.contains number then .ok (some version) else .error .unknownVersion
    | none => .error .unknownVersion

structure Output where
  text : Option String := none
  diagnostics : List Diagnostic := []
deriving Repr, DecidableEq, Inhabited

def checkStages : List Stage → Except Failure (List Pass)
  | [] => .ok []
  | .foreign kind :: _ => .error (.foreignStage kind)
  | .pass pass :: rest => do return pass :: (← checkStages rest)

def readModule (options : Options) (text : String) : Except Failure Module := do
  let _ ← checkVersion options
  (Module.parse text).mapError .read

def contextOf (options : Options) (file : Option String) : Context :=
  { options, file := ((named? file).or (named? options.fileName)).getD "<module>" }

/-- Reads a text, runs the stages over the module in order, and writes it. -/
def runStages (text : String) (options : Options) (stages : List Stage) (file : Option String) :
    Except Failure Output := do
  let passes ← checkStages stages
  let m ← readModule options text
  let result ← runPasses (contextOf options file) passes m
  return { text := some result.module.render, diagnostics := result.diagnostics }

def stageRecords (text : String) (options : Options) (passes : List Pass)
    (file : Option String) : List Record :=
  let context := contextOf options file
  match readModule options text with
  | .error _ => []
  | .ok m =>
    passRecords context passes m ++
      match runPasses context passes m with
      | .ok _ => [⟨.debug, s!"Transpiled {context.file} with {passes.length} pass(es)"⟩]
      | .error _ => []

end Hydration
