import Hydration.Diagnostic
import Hydration.Imports.Supply
import Hydration.Validation.Check
import Hydration.Text.Character

/-! What can be chosen for the transformation of a module, and the schemas of options, diagnostics and
required imports. -/

namespace Hydration

structure Options where
  format : Imports.ImportStyle := .named
  /-- The version of the grammar, as `major.minor`. -/
  targetVersion : Option String := none
  runtimeModule : String := "hydrate_runtime"
  runtimeHelpers : List String := ["register_instance", "create_event", "get_element"]
  clientBases : List String := ["HTMLElement"]
  bootstrapDecorators : List String := ["custom_element", "component"]
  fileName : Option String := none
deriving Repr, DecidableEq, Inhabited

/-- A text that names something; an empty one stands for none. -/
def named? (text : Option String) : Option String := text.filter fun name => !name.isEmpty

def Imports.ImportStyle.label : Imports.ImportStyle → String
  | .named => "named"
  | .qualified => "namespace"

end Hydration

namespace Hydration.Validation

open Imports

def formats : List (String × ImportStyle) :=
  [ImportStyle.named, .qualified].map fun style => (style.label, style)

/-- A version is written as two numbers with a point between them. -/
def isVersion (cs : List Char) : Bool :=
  let major := cs.takeWhile Text.isDecimal
  match cs.drop major.length with
  | '.' :: minor => !major.isEmpty && !minor.isEmpty && minor.all Text.isDecimal
  | _ => false

def version (data : Data) : Checked String :=
  (text data).andThen fun v =>
    let stripped := Text.strip v
    if isVersion stripped.toList then .ok stripped
    else complain (.refused s!"Invalid target version '{v}'. Expected 'MAJOR.MINOR', e.g. '3.8'.")

def hasRepeats : List String → Bool
  | [] => false
  | name :: rest => rest.contains name || hasRepeats rest

def helperList (data : Data) : Checked (List String) :=
  (listOf text data).andThen fun names =>
    if hasRepeats names then
      complain (.refused s!"Duplicate runtime helpers: {(Data.list (names.map Data.text)).describe}")
    else .ok names

def optionsSchema : Schema Options :=
  let defaults : Options := {}
  recordOf "CompileOptions" fun entries =>
    Options.mk <$> optional entries "module_format" defaults.format (oneOf formats) <*>
      optional entries "target_version" none (nullable version) <*>
      optional entries "runtime_module" defaults.runtimeModule text <*>
      optional entries "runtime_helpers" defaults.runtimeHelpers helperList <*>
      optional entries "client_bases" defaults.clientBases (listOf text) <*>
      optional entries "bootstrap_decorators" defaults.bootstrapDecorators (listOf text) <*>
      optional entries "file_name" none (nullable text)

def severities : List (String × Severity) :=
  [Severity.error, .warning].map fun s => (s.label, s)

def categories : List (String × Category) :=
  [Category.build, .hydrate, .imports].map fun c => (c.label, c)

def diagnosticSchema : Schema Diagnostic :=
  recordOf "Diagnostic" fun entries =>
    Diagnostic.mk <$> optional entries "level" .error (oneOf severities) <*>
      optional entries "category" .build (oneOf categories) <*>
      optional entries "header" "Build Error" text <*> required entries "message" text <*>
      optional entries "file_path" none (nullable text) <*>
      optional entries "line_number" none (nullable whole) <*>
      optional entries "column_number" none (nullable whole)

def specifierSchema : Schema Specifier :=
  recordOf "RuntimeSpecifier" fun entries =>
    Specifier.mk <$> required entries "module" text <*> required entries "name" text

end Hydration.Validation
