import Hydration.Data.Toml
import Hydration.Disk
import Hydration.Validation.Options

/-! The settings of a run: explicit choices go before the table of the nearest project file, and that
goes before the defaults. -/

namespace Hydration

open Hydration.Path

structure Settings where
  options : Options := {}
  manifest : Option Location := none
  workers : Int := 4
deriving Repr, DecidableEq, Inhabited

structure Choices where
  format : Option Data := none
  targetVersion : Option Data := none
  manifest : Option Location := none
  workers : Option Data := none
deriving Inhabited

inductive SettingsError where
  | undecodable (error : Text.Utf8Error)
  /-- The table is of a kind that holds no entries. -/
  | noEntries (kind : String)
  /-- The table is of a kind that no entry can be taken from by its key. -/
  | noLookup (kind : String)
  | textIndex
  | listIndex
  /-- The manifest is named by something that is no path. -/
  | notPath (kind : String)
  /-- The manifest is named by a path with a null character. -/
  | nullPath
  | tooDeep
  | hugeNumber (digits : Nat)
  | invalid (title : String) (issues : List Validation.Issue)

namespace SettingsError

def message : SettingsError → String
  | .undecodable error => error.message
  | .noEntries kind => s!"argument of type '{kind}' is not iterable"
  | .noLookup kind => s!"'{kind}' object has no attribute 'get'"
  | .textIndex => "string indices must be integers, not 'str'"
  | .listIndex => "list indices must be integers or slices, not str"
  | .notPath kind => s!"expected str, bytes or os.PathLike object, not {kind}"
  | .nullPath => "embedded null byte"
  | .tooDeep => "maximum recursion depth exceeded"
  | .hugeNumber digits => (Json.JsonError.hugeNumber digits).message
  | .invalid title issues => Validation.issueCount title issues

/-- Faults that a caller is told of as faults of the configuration. -/
def isReported : SettingsError → Bool
  | .undecodable _ => true
  | .nullPath => true
  | .hugeNumber _ => true
  | .invalid .. => true
  | _ => false

/-- What a caller is told of a fault. -/
def tell {m : Type → Type} [Monad m] [FileAccess m] : SettingsError → m String
  | .invalid title issues => FileAccess.explain title issues
  | e => return e.message

end SettingsError

def contains (needle : List Char) : List Char → Bool
  | [] => needle.isEmpty
  | c :: rest => needle.isPrefixOf (c :: rest) || contains needle rest

def isText (text : String) : Data → Bool
  | .text t => t == text
  | _ => false

/-- The entry of a table. Lists and texts can be asked for a key as well, but give nothing. -/
def entry? (table : Data) (key : String) : Except SettingsError (Option Data) :=
  match table with
  | .table entries => .ok (entries.lookup key)
  | .list items => if items.any (isText key) then .error .listIndex else .ok none
  | .text text => if contains key.toList text.toList then .error .textIndex else .ok none
  | data => .error (.noEntries data.qualifiedKindWord)

def optionKeys : List String :=
  ["module_format", "target_version", "runtime_module", "runtime_helpers", "client_bases",
    "bootstrap_decorators"]

def optionEntries (table : Data) : Except SettingsError Validation.Entries := do
  let entries ← optionKeys.filterMapM fun key => do
    return (← entry? table key).map fun value => (key, value)
  return entries

def override (entries : Validation.Entries) (key : String) (choice : Option Data) : Validation.Entries :=
  match choice with
  | some value => Data.put entries key value
  | none => entries

/-- A relative manifest is seen from the folder of the project file, and its path is followed. -/
def tableManifest (current folder : Location) (table : Data) :
    Except SettingsError (Option Location) := do
  match ← entry? table "manifest" with
  | none => return none
  | some (.text path) =>
    let l := Location.ofText path
    if l.isAbsolute then return some l
    else if l.hasNull then .error .nullPath
    else return some (Location.resolve current (folder.join l))
  | some data => .error (.notPath data.kindWord)

def tableWorkers : Data → Except SettingsError Data
  | .table entries => .ok ((entries.lookup "max_workers").getD (.whole 4))
  | data => .error (.noLookup data.qualifiedKindWord)

def validated (schema : Validation.Schema α) (data : Data) : Except SettingsError α :=
  (schema.validate data).mapError fun
    | .issues title list => .invalid title list
    | .tagKind word => .noLookup word

def workersSchema : Validation.Schema Int :=
  Validation.recordOf "RuntimeConfig" fun entries =>
    Validation.required entries "max_workers" Validation.positive

/-- Merges explicit choices with a table that stands in a folder. -/
def mergeSettings (choices : Choices) (current folder : Location) (table : Data) :
    Except SettingsError Settings := do
  let entries ← optionEntries table
  let entries := override entries "module_format" choices.format
  let entries := override entries "target_version" choices.targetVersion
  let manifest ← match choices.manifest with
    | some l => pure (some l)
    | none => tableManifest current folder table
  let workers ← match choices.workers with
    | some data => pure data
    | none => tableWorkers table
  let options ← validated Validation.optionsSchema (.table entries)
  let workers ← validated workersSchema (.table [("max_workers", workers)])
  return { options, manifest, workers }

/-- The table of this program in a project file. A file that is no TOML has an empty one. -/
def toolTable (text : String) : Except SettingsError Data :=
  match Toml.parse text with
  | .error .malformed => .ok (.table [])
  | .error (.hugeNumber digits) => .error (.hugeNumber digits)
  | .ok entries =>
    match (entries.lookup "tool").getD (.table []) with
    | .table tool => .ok ((tool.lookup "hydrant").getD (.table []))
    | data => .error (.noLookup data.qualifiedKindWord)

section

variable {m : Type → Type} [Monad m] [FileAccess m]

def nearestProject : List Location → m (Option Location)
  | [] => return none
  | folder :: rest => do
    if ← isFile (folder.child "pyproject.toml") then return some folder
    else nearestProject rest

/-- The table of the nearest project file and the folder it stands in. An unreadable file has an
empty table. -/
def findTable (start : Location) : m (Except SettingsError (Location × Data)) := do
  let here ← resolve start
  match ← nearestProject (here :: here.ancestors) with
  | none => return .ok (here, .table [])
  | some folder =>
    match ← FileAccess.read (folder.child "pyproject.toml") with
    | .error _ => return .ok (here, .table [])
    | .ok bytes =>
      match Text.readText bytes with
      | .error e => return .error (.undecodable e)
      | .ok text =>
        if ← FileAccess.overflows .toml text then return .error .tooDeep
        return (toolTable text).map fun table => (folder, table)

def loadSettings (choices : Choices) (start : Location) :
    m (Except SettingsError Settings) := do
  match ← findTable start with
  | .error e => return .error e
  | .ok (folder, table) =>
    return mergeSettings choices (← FileAccess.current) folder table

end

end Hydration
