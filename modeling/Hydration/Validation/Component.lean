import Hydration.Component
import Hydration.Validation.Check

/-! The schema of component metadata and of the manifest that lists components. A class name that is
missing or empty is derived from the tag before anything is checked. -/

namespace Hydration.Validation

def propertySchema : Schema PropertySpec :=
  recordOf "PropertyMeta" fun entries =>
    PropertySpec.mk <$> required entries "name" filledText <*>
      optional entries "internal" false flag <*> optional entries "mutable" false flag <*>
      optional entries "reflect" false flag

def eventSchema : Schema EventSpec :=
  recordOf "EventMeta" fun entries =>
    EventSpec.mk <$> required entries "name" filledText <*>
      optional entries "internal" false flag <*>
      optional entries "method_name" none (nullable text) <*>
      optional entries "bubbles" true flag <*> optional entries "composed" true flag <*>
      optional entries "cancelable" true flag

def methodSchema : Schema MethodSpec :=
  recordOf "MethodMeta" fun entries =>
    MethodSpec.mk <$> required entries "name" filledText <*> optional entries "internal" false flag

def encapsulations : List (String × Encapsulation) :=
  [Encapsulation.shared, .scoped, .shadow].map fun e => (e.label, e)

def hasFilled (entries : Entries) (key : String) : Bool :=
  ((entries.lookup key).map Data.isFilled).getD false

def fillClassName (entries : Entries) : Except String Entries :=
  if hasFilled entries "component_class_name" || !hasFilled entries "tag_name" then .ok entries
  else match entries.lookup "tag_name" with
    | some (.text tag) =>
      .ok (Data.put entries "component_class_name" (.text (classNameOfTag tag)))
    | some data => .error data.qualifiedKindWord
    | none => .ok entries

def checkComponent (entries : Entries) : Checked Component :=
  Component.mk <$> required entries "tag_name" filledText <*>
    optional entries "component_class_name" "" text <*> required entries "source_path" text <*>
    optional entries "encapsulation" .shared (oneOf encapsulations) <*>
    optional entries "properties" [] (listOf propertySchema.check) <*>
    optional entries "events" [] (listOf eventSchema.check) <*>
    optional entries "methods" [] (listOf methodSchema.check) <*>
    optional entries "element_ref" none (nullable text)

def componentSchema : Schema Component :=
  recordOf "ComponentMetadata" fun entries =>
    match fillClassName entries with
    | .ok entries => checkComponent entries
    | .error word => .tagKind word

def duplicateTag : List String → List Component → Option String
  | _, [] => none
  | seen, cmp :: rest =>
    if seen.contains cmp.tag then some cmp.tag else duplicateTag (cmp.tag :: seen) rest

def distinctTags (components : List Component) : Checked (List Component) :=
  match duplicateTag [] components with
  | some tag => complain (.refused s!"Duplicate component tag '{tag}'")
  | none => .ok components

/-- The components of a manifest. Their tags are distinct. -/
def manifestSchema : Schema (List Component) :=
  recordOf "ComponentManifest" fun entries =>
    (optional entries "components" [] (listOf componentSchema.check)).andThen distinctTags

end Hydration.Validation
