import Hydration.Build
import Hydration.CommandLine.Arguments
import Hydration.Terminal
import Hydration.Manifest
import Hydration.Settings

/-! The hydrate command: it transforms the modules of a manifest that stand at or below a path, writes
what comes out, and reports on the build. Messages are markup, so the terminal may not be able to show
one; the run then ends where it is. -/

namespace Hydration.CommandLine

open Hydration.Path

structure Table where
  title : String
  columns : List String
  rows : List (List String)
deriving Repr, DecidableEq

inductive Event where
  | record (record : Record)
  | table (table : Table)
deriving Repr, DecidableEq

/-- A fault that the command does not report but passes on. -/
inductive Escaped where
  | settings (error : SettingsError)
  | manifest (error : ManifestError)
  /-- A path with a null character is to be followed. -/
  | nullPath
  | undecodable (error : Text.Utf8Error)
  | file (error : FileError)
  /-- The terminal cannot show a message. -/
  | markup (error : Markup.MarkupError)

def Escaped.message : Escaped → String
  | .settings error => error.message
  | .manifest error => error.message
  | .nullPath => "embedded null byte"
  | .undecodable error => error.message
  | .file error => error.message
  | .markup error => error.message

structure Outcome where
  events : List Event := []
  result : Except Escaped Nat

def say (level : Level) (message : String) : Event := .record (Terminal.announce level message)

def finish (events : List Event) (code : Nat) : Outcome := { events, result := .ok code }

def abandon (events : List Event) (escaped : Escaped) : Outcome :=
  { events, result := .error escaped }

def prepend (events : List Event) (outcome : Outcome) : Outcome :=
  { outcome with events := events ++ outcome.events }

/-- Records below the level of the run are left out. -/
def isShown (verbose : Bool) : Event → Bool
  | .record r => verbose || r.level.rank ≥ Level.info.rank
  | .table _ => true

def refusal? (text : String) : Option Markup.MarkupError :=
  match Markup.render text.toList with
  | .ok _ => none
  | .error e => some e

/-- The cells of a table, column by column: the widths of the columns are found first. -/
def Table.cells (table : Table) : List String :=
  (List.range table.columns.length).flatMap fun i => table.rows.filterMap fun row => row[i]?

/-- What keeps the terminal from showing an event. -/
def Event.fault? (verbose : Bool) (event : Event) : Option Markup.MarkupError :=
  if isShown verbose event then
    match event with
    | .record r => refusal? r.message
    | .table t => t.cells.findSome? refusal?
  else none

/-- The groups whose file is the given place, or stands below it. -/
def selectGroups (current input : Location) (inputIsFile : Bool) (groups : List Group) :
    List Group :=
  groups.filter fun g =>
    let file := Location.resolve current g.file
    if inputIsFile then file == input else file.ancestors.contains input

def hydratedSuffix : String := ".hydrate.py"

/-- Beside the module, or in the given folder. -/
def outputPlace (file : Location) (folder : Option Location) : Location :=
  let name := file.stem ++ hydratedSuffix
  match folder with
  | some folder => folder.child name
  | none => file.withName name

/-- The last part of the path of a diagnostic's file. -/
def diagnosticFile (d : Diagnostic) : String :=
  ((named? d.file).map fun file => (Location.ofText file).name).getD ""

def diagnosticPlace (d : Diagnostic) : String :=
  let name := diagnosticFile d
  match d.line with
  | some line => if name.isEmpty then name else s!"{name}:{line}"
  | none => name

def diagnosticRow (d : Diagnostic) : List String :=
  [d.severity.markup, d.category.label, diagnosticPlace d, Markup.escape d.message]

def reportTable (diagnostics : List Diagnostic) : Table :=
  { title := "Hydration Report", columns := ["Level", "Category", "File", "Message"]
    rows := diagnostics.map diagnosticRow }

def report (diagnostics : List Diagnostic) : List Event :=
  if diagnostics.isEmpty then [] else [.table (reportTable diagnostics)]

section

variable {m : Type → Type} [Monad m] [FileAccess m] (verbose : Bool)

/-- Shows events and goes on. The first that cannot be shown ends the run. -/
def showThen (events : List Event) (next : m Outcome) : m Outcome := do
  match events.findSome? (Event.fault? verbose) with
  | some e =>
    return abandon (events.takeWhile fun event => (event.fault? verbose).isNone) (.markup e)
  | none => return prepend events (← next)

def conclude (events : List Event) (code : Nat) : m Outcome :=
  showThen verbose events (return finish [] code)

/-- The texts of the modules. One that cannot be opened is an error of the build. -/
def readModules (build : Build) : List Group → m (Except Escaped (Build × List Job))
  | [] => return .ok (build, [])
  | g :: rest => do
    let file := g.file.toText
    match ← FileAccess.read g.file with
    | .error e =>
      let message := s!"Cannot read component module: {e.message}"
      readModules (build.report [{ message, file := some file }]) rest
    | .ok bytes =>
      match Text.readText bytes with
      | .error e => return .error (.undecodable e)
      | .ok text =>
        match ← readModules build rest with
        | .error e => return .error e
        | .ok (build, jobs) => return .ok (build, ⟨text, g.components, some file⟩ :: jobs)

def writeModule (target : Location) (text : String) : m (Except Escaped Unit) := do
  if target.hasNull then return .error .nullPath
  match ← makeFolders target.parent with
  | .error e => return .error (.file e)
  | .ok () => return (← FileAccess.write target text).mapError .file

def hydratedMessage (file : String) (outputPlace : Location) : String :=
  s!"Hydrated: [path]{file}[/path] -> [path]{outputPlace.toText}[/path]"

/-- Writes what came of the jobs, and counts it. Each text is told of once it is written. -/
def writeModules (folder : Option Location) : List (Job × Option String) → m (Outcome × Nat)
  | [] => return (finish [] 0, 0)
  | (_, none) :: rest => writeModules folder rest
  | (job, some text) :: rest => do
    let file := job.file.getD ""
    let target := outputPlace (Location.ofText file) folder
    match ← writeModule target text with
    | .error escaped => return (abandon [] escaped, 0)
    | .ok () =>
      let event := say .success (hydratedMessage file target)
      match event.fault? verbose with
      | some e => return (abandon [] (.markup e), 0)
      | none =>
        let (outcome, count) ← writeModules folder rest
        return (prepend [event] outcome, count + 1)

def verdict (build : Build) (written total : Nat) : m Outcome :=
  let events := report build.sink.items
  if build.hasErrors then
    let message := s!"Hydration failed: {written}/{total} module(s) written."
    conclude verbose (events ++ [say .error message]) 1
  else
    let message := s!"Build Complete: {written}/{total} module(s) hydrated."
    conclude verbose (events ++ [say .success message]) 0

def hydrateGroups (settings : Settings) (folder : Option Location) (groups : List Group) :
    m Outcome := do
  match ← readModules {} groups with
  | .error escaped => return abandon [] escaped
  | .ok (build, jobs) =>
    let start := say .info
      s!"Hydrating {jobs.length} module(s) with {settings.workers} worker(s)..."
    let (build, texts) := build.runJobs settings.options jobs
    showThen verbose (start :: build.records.map .record) do
      let (outcome, written) ← writeModules verbose folder (jobs.zip texts)
      match outcome.result with
      | .error _ => return outcome
      | .ok _ => return prepend outcome.events (← verdict verbose build written groups.length)

def hydrateManifest (settings : Settings) (input manifest : Location) (folder : Option Location) :
    m Outcome := do
  match ← openManifest manifest with
  | .error e =>
    if e.isReported then conclude verbose [say .error (Markup.escape (← e.tell))] 1
    else return abandon [] (.manifest e)
  | .ok components =>
    let loaded := Event.record
      ⟨.debug, s!"Loaded {components.length} component(s) from {manifest.toText}"⟩
    showThen verbose [loaded] do
      if components.any fun cmp => (Location.ofText cmp.sourcePath).hasNull then
        return abandon [] .nullPath
      let current ← FileAccess.current
      let place := Location.resolve current input
      let groups := groupByFile current (some manifest.parent) components
      let selected := selectGroups current place (← isFile place) groups
      if selected.isEmpty then
        let message := s!"No manifest components are declared under {input.toText}"
        conclude verbose [say .warning message] 0
      else hydrateGroups verbose settings folder selected

def choicesOf (arguments : Arguments) : Choices :=
  { format := arguments.format.map Data.text
    targetVersion := arguments.targetVersion.map Data.text
    manifest := arguments.manifest.map Location.ofText
    workers := arguments.workers.map Data.whole }

def missingManifest : String :=
  "No component manifest given (use --manifest or [tool.hydrant] manifest)."

end

/-- Runs the command. Its result is zero when all went well. -/
def perform {m : Type → Type} [Monad m] [FileAccess m] (arguments : Arguments) : m Outcome := do
  let verbose := arguments.verbose
  let input := Location.ofText arguments.path
  match ← FileAccess.look input with
  | none => conclude verbose [say .error s!"Input not found: {input.toText}"] 1
  | some kind =>
    let start := if kind == .folder then input else input.parent
    match ← loadSettings (choicesOf arguments) start with
    | .error e =>
      if e.isReported then
        let message := s!"Invalid configuration: {Markup.escape (← e.tell)}"
        conclude verbose [say .error message] 1
      else return abandon [] (.settings e)
    | .ok settings =>
      match settings.manifest with
      | none => conclude verbose [say .error missingManifest] 1
      | some manifest =>
        hydrateManifest verbose settings input manifest (arguments.out.map Location.ofText)

inductive Ending where
  | ran (outcome : Outcome)
  | shown (code : Nat) (text : String)

def versionText : String := "hydrant 0.1.0"

def helpText : String :=
  "usage: hydrant [-h] [--version] [-v] hydrate [-h] [--manifest MANIFEST] [--out OUT]\n" ++
    "               [--format \x7bnamed,namespace\x7d] [--target-version TARGET_VERSION]\n" ++
    "               [--workers WORKERS] path"

def answer {m : Type → Type} [Monad m] [FileAccess m] (arguments : List String) : m Ending := do
  match read arguments with
  | .help => return .shown 0 helpText
  | .version => return .shown 0 versionText
  | .refused e => return .shown 2 e.message
  | .run arguments =>
    let outcome ← perform arguments
    return .ran { outcome with events := outcome.events.filter (isShown arguments.verbose) }

end Hydration.CommandLine
