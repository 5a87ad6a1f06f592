import Hydration.Data.Json
import Hydration.Disk
import Hydration.Validation.Component

/-! The manifest of a build: the file that lists its components. -/

namespace Hydration

open Hydration.Path

inductive ManifestError where
  | unreadable (path : String) (error : FileError)
  | notJson (path : String) (error : Json.JsonError)
  | invalid (path title : String) (issues : List Validation.Issue)
  | undecodable (error : Text.Utf8Error)
  | hugeNumber (error : Json.JsonError)
  | tagKind (word : String)
  /-- The path of the manifest holds a null character. -/
  | nullPath
  | tooDeep
  /-- What follows from a text with half of a surrogate pair is not followed here. -/
  | halfPair

namespace ManifestError

def message : ManifestError → String
  | .unreadable path error => s!"Cannot read manifest {path}: {error.message}"
  | .notJson path error => s!"Manifest {path} is not valid JSON: {error.message}"
  | .invalid path _ _ => s!"Manifest {path} failed validation"
  | .undecodable error => error.message
  | .hugeNumber error => error.message
  | .tagKind word => Validation.tagKindMessage word
  | .nullPath => "embedded null byte"
  | .tooDeep => "maximum recursion depth exceeded"
  | .halfPair => Json.JsonError.halfPair.message

/-- Faults that a caller is told of as faults of the manifest. -/
def isReported : ManifestError → Bool
  | .unreadable .. => true
  | .notJson .. => true
  | .invalid .. => true
  | _ => false

/-- What a caller is told of a fault. -/
def tell {m : Type → Type} [Monad m] [FileAccess m] : ManifestError → m String
  | .invalid path title issues => do
    return s!"Manifest {path} failed validation: {← FileAccess.explain title issues}"
  | e => return e.message

end ManifestError

def readManifest (path text : String) : Except ManifestError (List Component) := do
  let data ← (Json.parse text).mapError fun
    | .hugeNumber digits => .hugeNumber (.hugeNumber digits)
    | .halfPair => .halfPair
    | error => .notJson path error
  (Validation.manifestSchema.validate data).mapError fun
    | .issues title list => .invalid path title list
    | .tagKind word => .tagKind word

def openManifest {m : Type → Type} [Monad m] [FileAccess m] (l : Location) :
    m (Except ManifestError (List Component)) := do
  if l.hasNull then return .error .nullPath
  match ← FileAccess.read l with
  | .error e => return .error (.unreadable l.toText e)
  | .ok bytes =>
    match Text.readText bytes with
    | .error e => return .error (.undecodable e)
    | .ok text =>
      if ← FileAccess.overflows .json text then return .error .tooDeep
      return readManifest l.toText text

structure Group where
  file : Location
  components : List Component
deriving Repr, DecidableEq, Inhabited

def addToGroup (groups : List Group) (file : Location) (cmp : Component) : List Group :=
  match groups with
  | [] => [⟨file, [cmp]⟩]
  | g :: rest =>
    if g.file = file then { g with components := g.components ++ [cmp] } :: rest
    else g :: addToGroup rest file cmp

/-- Relative paths are seen from a folder, if one is given; the component then carries the path that
they lead to. -/
def placeComponent (current : Location) (base : Option Location) (cmp : Component) :
    Location × Component :=
  let l := Location.ofText cmp.sourcePath
  match base with
  | some base =>
    if l.isAbsolute then (l, cmp)
    else
      let resolved := Location.resolve current (base.join l)
      (resolved, { cmp with sourcePath := resolved.toText })
  | none => (l, cmp)

/-- The components by the file that holds them, in the order of the manifest. Their paths are taken to
hold no null character. -/
def groupByFile (current : Location) (base : Option Location) (components : List Component) :
    List Group :=
  components.foldl (fun groups cmp =>
    let (file, cmp) := placeComponent current base cmp
    addToGroup groups file cmp) []

end Hydration
