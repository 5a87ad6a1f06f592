import Hydration.Manifest
import Hydration.Proofs.Entries
import Mathlib.Data.List.Forall2

/-! Metadata that is accepted. Data describes a component field by field: a field that may be left out
has a default, and a class name that is left out or empty comes from the tag. Checking a manifest
succeeds exactly with the components that its data describes, in their order. -/

namespace Hydration.Validation

variable {α β : Type}

namespace Checked

theorem map_eq_ok {f : α → β} {checked : Checked α} {b : β} :
    f <$> checked = .ok b ↔ ∃ a, checked = .ok a ∧ f a = b := by
  cases checked <;> simp [Functor.map, Checked.map]

theorem seq_eq_ok {f : Checked (α → β)} {checked : Checked α} {b : β} :
    f <*> checked = .ok b ↔ ∃ g, f = .ok g ∧ ∃ a, checked = .ok a ∧ g a = b := by
  cases f <;> cases checked <;> simp [Seq.seq, Checked.seq, Checked.map]

theorem under_eq_ok {checked : Checked α} {key : String} {a : α} :
    checked.under key = .ok a ↔ checked = .ok a := by
  cases checked <;> simp [Checked.under]

theorem andThen_eq_ok {checked : Checked α} {f : α → Checked β} {b : β} :
    checked.andThen f = .ok b ↔ ∃ a, checked = .ok a ∧ f a = .ok b := by
  cases checked <;> simp [Checked.andThen]

end Checked

/-- An entry that has to be there. -/
def Entry (entries : Entries) (key : String) (R : Data → α → Prop) (value : α) : Prop :=
  ∃ data, entries.lookup key = some data ∧ R data value

/-- An entry that may be left out. -/
def EntryOr (entries : Entries) (key : String) (default : α) (R : Data → α → Prop) (value : α) :
    Prop :=
  match entries.lookup key with
  | some data => R data value
  | none => value = default

def RecordOf (R : Entries → α → Prop) (data : Data) (value : α) : Prop :=
  ∃ entries, data = .table entries ∧ R entries value

def ListOf (R : Data → α → Prop) (data : Data) (values : List α) : Prop :=
  ∃ items, data = .list items ∧ List.Forall₂ R items values

def IsText (data : Data) (value : String) : Prop := data = .text value

def IsFilledText (data : Data) (value : String) : Prop := data = .text value ∧ value ≠ ""

def IsTextOrNull (data : Data) : Option String → Prop
  | some value => data = .text value
  | none => data = .null

def IsFlag (data : Data) (value : Bool) : Prop := flag data = .ok value

def IsEncapsulation (data : Data) (e : Encapsulation) : Prop := data = .text e.label

/-- The check accepts what stands in the relation to a value, and gives this value. -/
def Accepts (check : Check α) (R : Data → α → Prop) : Prop :=
  ∀ data value, check data = .ok value ↔ R data value

theorem complain_ne_ok (complaint : Complaint) (a : α) : complain complaint ≠ .ok a := by
  simp [complain]

section Parts

variable {check : Check α} {R : Data → α → Prop} (h : Accepts check R)

include h

theorem required_eq_ok {entries : Entries} {key : String} {value : α} :
    required entries key check = .ok value ↔ Entry entries key R value := by
  rw [required, Checked.under_eq_ok, Entry]
  cases entries.lookup key with
  | none => simp [complain]
  | some data => simp [h data value]

theorem optional_eq_ok {entries : Entries} {key : String} {default value : α} :
    optional entries key default check = .ok value ↔ EntryOr entries key default R value := by
  rw [optional, EntryOr]
  cases entries.lookup key with
  | none => simp [eq_comm]
  | some data => exact Checked.under_eq_ok.trans (h data value)

theorem accepts_listOf : Accepts (listOf check) (ListOf R) := by
  have hitems (items : List Data) (i : Nat) (values : List α) :
      checkItems check i items = .ok values ↔ List.Forall₂ R items values := by
    induction items generalizing i values with
    | nil => simp [checkItems, eq_comm]
    | cons item items ih =>
      change (List.cons <$> (check item).under (toString i)) <*> checkItems check (i + 1) items = _ ↔ _
      simp only [Checked.seq_eq_ok, Checked.map_eq_ok, Checked.under_eq_ok, h item, ih,
        List.forall₂_cons_left_iff]
      constructor
      · rintro ⟨_, ⟨first, hfirst, rfl⟩, rest, hrest, rfl⟩
        exact ⟨first, rest, hfirst, hrest, rfl⟩
      · rintro ⟨first, rest, hfirst, hrest, rfl⟩
        exact ⟨_, ⟨first, hfirst, rfl⟩, rest, hrest, rfl⟩
  intro data values
  cases data with
  | list items => simpa [listOf, ListOf] using hitems items 0 values
  | _ => simp [listOf, ListOf, complain]

end Parts

theorem accepts_text : Accepts text IsText := by
  intro data value
  cases data <;> simp [text, IsText, complain]

theorem accepts_filledText : Accepts filledText IsFilledText := by
  intro data value
  cases data with
  | text written =>
    by_cases hw : written.isEmpty = true
    · have hempty : written = "" := String.isEmpty_iff.mp hw
      simp only [filledText, if_pos hw, IsFilledText, Data.text.injEq]
      refine iff_of_false (complain_ne_ok _ _) ?_
      rintro ⟨rfl, hne⟩
      exact hne hempty
    · have hne : written ≠ "" := fun he => hw (String.isEmpty_iff.mpr he)
      simp only [filledText, if_neg hw, IsFilledText, Data.text.injEq, Checked.ok.injEq]
      constructor
      · rintro rfl
        exact ⟨rfl, hne⟩
      · exact And.left
  | _ => simp [filledText, IsFilledText, complain]

theorem accepts_textOrNull : Accepts (nullable text) IsTextOrNull := by
  intro data value
  cases data <;> cases value <;>
    simp [nullable, text, Checked.map, IsTextOrNull, complain]

theorem accepts_flag : Accepts flag IsFlag := fun _ _ => Iff.rfl

/-- One of some labels is accepted where each value is found by its own label. -/
theorem accepts_oneOf {choices : List (String × α)} {label : α → String}
    (hfind : ∀ a, choices.lookup (label a) = some a)
    (hlabel : ∀ entry ∈ choices, entry.1 = label entry.2) :
    Accepts (oneOf choices) fun data a => data = .text (label a) := by
  intro data a
  change oneOf choices data = .ok a ↔ data = .text (label a)
  cases data with
  | text written =>
    have hlookup : choices.lookup written = some a ↔ written = label a := by
      constructor
      · intro hl
        obtain ⟨front, back, hsplit, -⟩ := List.lookup_eq_some_iff.mp hl
        refine hlabel (written, a) ?_
        rw [hsplit]
        exact List.mem_append_right _ List.mem_cons_self
      · rintro rfl
        exact hfind a
    rw [Data.text.injEq, ← hlookup, oneOf]
    cases choices.lookup written <;> simp [complain]
  | _ => simp [oneOf, complain]

theorem accepts_encapsulation : Accepts (oneOf encapsulations) IsEncapsulation :=
  accepts_oneOf (fun e => by cases e <;> decide) (by simp [encapsulations])

theorem accepts_recordOf {title : String} {check : Entries → Checked α} {R : Entries → α → Prop}
    (h : ∀ entries value, check entries = .ok value ↔ R entries value) :
    Accepts (recordOf title check).check (RecordOf R) := by
  intro data value
  cases data with
  | table entries => simpa [recordOf, RecordOf] using h entries value
  | _ => simp [recordOf, RecordOf, complain]

structure DescribesProperty (entries : Entries) (property : PropertySpec) : Prop where
  name : Entry entries "name" IsFilledText property.name
  internal : EntryOr entries "internal" false IsFlag property.internal
  isMutable : EntryOr entries "mutable" false IsFlag property.isMutable
  reflect : EntryOr entries "reflect" false IsFlag property.reflect

structure DescribesEvent (entries : Entries) (event : EventSpec) : Prop where
  name : Entry entries "name" IsFilledText event.name
  internal : EntryOr entries "internal" false IsFlag event.internal
  methodName : EntryOr entries "method_name" none IsTextOrNull event.methodName
  bubbles : EntryOr entries "bubbles" true IsFlag event.bubbles
  composed : EntryOr entries "composed" true IsFlag event.composed
  cancelable : EntryOr entries "cancelable" true IsFlag event.cancelable

structure DescribesMethod (entries : Entries) (method : MethodSpec) : Prop where
  name : Entry entries "name" IsFilledText method.name
  internal : EntryOr entries "internal" false IsFlag method.internal

/-- The entries describe a component, its class name as `Named` says. -/
structure DescribesBy (Named : Entries → Component → Prop) (entries : Entries)
    (component : Component) : Prop where
  tag : Entry entries "tag_name" IsFilledText component.tag
  className : Named entries component
  sourcePath : Entry entries "source_path" IsText component.sourcePath
  encapsulation : EntryOr entries "encapsulation" .shared IsEncapsulation component.encapsulation
  properties : EntryOr entries "properties" [] (ListOf (RecordOf DescribesProperty))
    component.properties
  events : EntryOr entries "events" [] (ListOf (RecordOf DescribesEvent)) component.events
  methods : EntryOr entries "methods" [] (ListOf (RecordOf DescribesMethod)) component.methods
  elementRef : EntryOr entries "element_ref" none IsTextOrNull component.elementRef

/-- The class name that stands in the entries. -/
def NamedByEntry (entries : Entries) (component : Component) : Prop :=
  EntryOr entries "component_class_name" "" IsText component.className

/-- A class name that is left out or empty comes from the tag. -/
def NamedByEntryOrTag (entries : Entries) (component : Component) : Prop :=
  if hasFilled entries "component_class_name"
  then Entry entries "component_class_name" IsText component.className
  else component.className = classNameOfTag component.tag

def Describes : Entries → Component → Prop := DescribesBy NamedByEntryOrTag

theorem accepts_propertySchema : Accepts propertySchema.check (RecordOf DescribesProperty) := by
  refine accepts_recordOf fun entries property => ?_
  simp only [Checked.seq_eq_ok, Checked.map_eq_ok, required_eq_ok accepts_filledText,
    optional_eq_ok accepts_flag]
  constructor
  · rintro ⟨_, ⟨_, ⟨_, ⟨name, hname, rfl⟩, internal, hinternal, rfl⟩, isMutable, hmutable, rfl⟩,
      reflect, hreflect, rfl⟩
    exact ⟨hname, hinternal, hmutable, hreflect⟩
  · rintro ⟨hname, hinternal, hmutable, hreflect⟩
    exact ⟨_, ⟨_, ⟨_, ⟨_, hname, rfl⟩, _, hinternal, rfl⟩, _, hmutable, rfl⟩, _, hreflect, rfl⟩

theorem accepts_eventSchema : Accepts eventSchema.check (RecordOf DescribesEvent) := by
  refine accepts_recordOf fun entries event => ?_
  simp only [Checked.seq_eq_ok, Checked.map_eq_ok, required_eq_ok accepts_filledText,
    optional_eq_ok accepts_flag, optional_eq_ok accepts_textOrNull]
  constructor
  · rintro ⟨_, ⟨_, ⟨_, ⟨_, ⟨_, ⟨name, hname, rfl⟩, internal, hinternal, rfl⟩, emitter, hemitter, rfl⟩,
      bubbles, hbubbles, rfl⟩, composed, hcomposed, rfl⟩, cancelable, hcancelable, rfl⟩
    exact ⟨hname, hinternal, hemitter, hbubbles, hcomposed, hcancelable⟩
  · rintro ⟨hname, hinternal, hemitter, hbubbles, hcomposed, hcancelable⟩
    exact ⟨_, ⟨_, ⟨_, ⟨_, ⟨_, ⟨_, hname, rfl⟩, _, hinternal, rfl⟩, _, hemitter, rfl⟩, _, hbubbles,
      rfl⟩, _, hcomposed, rfl⟩, _, hcancelable, rfl⟩

theorem accepts_methodSchema : Accepts methodSchema.check (RecordOf DescribesMethod) := by
  refine accepts_recordOf fun entries method => ?_
  simp only [Checked.seq_eq_ok, Checked.map_eq_ok, required_eq_ok accepts_filledText,
    optional_eq_ok accepts_flag]
  constructor
  · rintro ⟨_, ⟨name, hname, rfl⟩, internal, hinternal, rfl⟩
    exact ⟨hname, hinternal⟩
  · rintro ⟨hname, hinternal⟩
    exact ⟨_, ⟨_, hname, rfl⟩, _, hinternal, rfl⟩

theorem put_eq (entries : Entries) (key : String) (data : Data) :
    Data.put entries key data = Entries.put entries key data := by
  induction entries with
  | nil => rfl
  | cons entry entries ih =>
    obtain ⟨k, d⟩ := entry
    simp only [Data.put, Entries.put, ih, beq_iff_eq]

theorem lookup_put {entries : Entries} {key other : String} {data : Data} :
    (Data.put entries key data).lookup other =
      if other = key then some data else entries.lookup other := by
  rw [put_eq, Entries.lookup_put]

theorem checkComponent_eq_ok {entries : Entries} {component : Component} :
    checkComponent entries = .ok component ↔ DescribesBy NamedByEntry entries component := by
  simp only [checkComponent, Checked.seq_eq_ok, Checked.map_eq_ok, required_eq_ok accepts_filledText,
    required_eq_ok accepts_text, optional_eq_ok accepts_text, optional_eq_ok accepts_encapsulation,
    optional_eq_ok (accepts_listOf accepts_propertySchema),
    optional_eq_ok (accepts_listOf accepts_eventSchema),
    optional_eq_ok (accepts_listOf accepts_methodSchema), optional_eq_ok accepts_textOrNull]
  constructor
  · rintro ⟨_, ⟨_, ⟨_, ⟨_, ⟨_, ⟨_, ⟨_, ⟨tag, htag, rfl⟩, name, hname, rfl⟩, path, hpath, rfl⟩,
      encapsulation, hencapsulation, rfl⟩, properties, hproperties, rfl⟩, events, hevents, rfl⟩,
      methods, hmethods, rfl⟩, element, helement, rfl⟩
    exact ⟨htag, hname, hpath, hencapsulation, hproperties, hevents, hmethods, helement⟩
  · rintro ⟨htag, hname, hpath, hencapsulation, hproperties, hevents, hmethods, helement⟩
    exact ⟨_, ⟨_, ⟨_, ⟨_, ⟨_, ⟨_, ⟨_, ⟨_, htag, rfl⟩, _, hname, rfl⟩, _, hpath, rfl⟩, _,
      hencapsulation, rfl⟩, _, hproperties, rfl⟩, _, hevents, rfl⟩, _, hmethods, rfl⟩, _, helement, rfl⟩

section Congruence

variable {entries others : Entries} {key : String} {R : Data → α → Prop} {value default : α}

theorem Entry.of_lookup (h : Entry entries key R value)
    (hl : others.lookup key = entries.lookup key) : Entry others key R value := by
  rwa [Entry, hl]

theorem EntryOr.of_lookup (h : EntryOr entries key default R value)
    (hl : others.lookup key = entries.lookup key) : EntryOr others key default R value := by
  rwa [EntryOr, hl]

theorem DescribesBy.of_lookup {Named Other : Entries → Component → Prop} {component : Component}
    (d : DescribesBy Named entries component)
    (h : ∀ key, key ≠ "component_class_name" → others.lookup key = entries.lookup key)
    (hn : Other others component) : DescribesBy Other others component where
  tag := d.tag.of_lookup (h _ (by decide))
  className := hn
  sourcePath := d.sourcePath.of_lookup (h _ (by decide))
  encapsulation := d.encapsulation.of_lookup (h _ (by decide))
  properties := d.properties.of_lookup (h _ (by decide))
  events := d.events.of_lookup (h _ (by decide))
  methods := d.methods.of_lookup (h _ (by decide))
  elementRef := d.elementRef.of_lookup (h _ (by decide))

end Congruence

theorem describesBy_put {entries : Entries} {component : Component} {data : Data} :
    DescribesBy NamedByEntry (Data.put entries "component_class_name" data) component ↔
      DescribesBy (fun _ component => IsText data component.className) entries component := by
  have hname : NamedByEntry (Data.put entries "component_class_name" data) component ↔
      IsText data component.className := by
    simp [NamedByEntry, EntryOr, lookup_put]
  have hother (key : String) (hk : key ≠ "component_class_name") :
      (Data.put entries "component_class_name" data).lookup key = entries.lookup key := by
    rw [lookup_put, if_neg hk]
  constructor
  · exact fun d => d.of_lookup (fun key hk => (hother key hk).symm) (hname.mp d.className)
  · exact fun d => d.of_lookup hother (hname.mpr d.className)

theorem describesBy_congr {Named Other : Entries → Component → Prop} {entries : Entries}
    {component : Component}
    (h : Entry entries "tag_name" IsFilledText component.tag →
      (Named entries component ↔ Other entries component)) :
    DescribesBy Named entries component ↔ DescribesBy Other entries component := by
  constructor
  · exact fun d => { d with className := (h d.tag).mp d.className }
  · exact fun d => { d with className := (h d.tag).mpr d.className }

section ClassNames

variable {entries : Entries} {component : Component}

theorem hasFilled_of_entry {key value : String} (h : Entry entries key IsFilledText value) :
    hasFilled entries key = true := by
  obtain ⟨data, hl, rfl, hne⟩ := h
  simp [hasFilled, hl, Data.isFilled, hne]

theorem hasFilled_iff {key : String} :
    hasFilled entries key = true ↔ ∃ data, entries.lookup key = some data ∧ data.isFilled = true := by
  rw [hasFilled]
  cases entries.lookup key <;> simp

/-- The class name has to come from a tag that is no text. -/
def Unnamable (entries : Entries) : Prop :=
  hasFilled entries "component_class_name" = false ∧
    ∃ data, entries.lookup "tag_name" = some data ∧ data.isFilled = true ∧ ∀ tag, data ≠ .text tag

theorem fillClassName_eq_error_iff :
    (∃ word, fillClassName entries = .error word) ↔ Unnamable entries := by
  cases hc : hasFilled entries "component_class_name" with
  | true => simp [fillClassName, Unnamable, hc]
  | false =>
    cases ht : hasFilled entries "tag_name" with
    | false =>
      refine iff_of_false (by simp [fillClassName, hc, ht]) ?_
      rintro ⟨-, data, hl, hf, -⟩
      have hfilled := hasFilled_iff.mpr ⟨data, hl, hf⟩
      simp [ht] at hfilled
    | true =>
      obtain ⟨data, hl, hf⟩ := hasFilled_iff.mp ht
      cases data <;> simp [fillClassName, Unnamable, hc, ht, hl, hf]

theorem fillClassName_of_text {tag : String} (hc : hasFilled entries "component_class_name" = false)
    (h : Entry entries "tag_name" IsFilledText tag) :
    fillClassName entries =
      .ok (Data.put entries "component_class_name" (.text (classNameOfTag tag))) := by
  have ht := hasFilled_of_entry h
  obtain ⟨data, hl, rfl, -⟩ := h
  simp [fillClassName, hc, ht, hl]

theorem lookup_tag_of_fillClassName {filled : Entries} (h : fillClassName entries = .ok filled) :
    filled.lookup "tag_name" = entries.lookup "tag_name" := by
  unfold fillClassName at h
  split at h
  · obtain rfl := Except.ok.inj h
    rfl
  · split at h
    · obtain rfl := Except.ok.inj h
      rw [lookup_put, if_neg (by decide)]
    · cases h
    · obtain rfl := Except.ok.inj h
      rfl

theorem describesBy_of_filled (h : hasFilled entries "component_class_name" = true) :
    DescribesBy NamedByEntry entries component ↔ Describes entries component := by
  refine describesBy_congr fun _ => ?_
  obtain ⟨data, hl, -⟩ := hasFilled_iff.mp h
  simp [NamedByEntry, NamedByEntryOrTag, EntryOr, Entry, h, hl]

theorem describesBy_tag (hc : hasFilled entries "component_class_name" = false)
    {tag : String} (h : Entry entries "tag_name" IsFilledText tag) :
    DescribesBy (fun _ component => IsText (.text (classNameOfTag tag)) component.className) entries
        component ↔ Describes entries component := by
  refine describesBy_congr fun ht => ?_
  have htag : component.tag = tag := by
    obtain ⟨data, hl, rfl, -⟩ := h
    obtain ⟨other, ho, he, -⟩ := ht
    rw [hl] at ho
    exact (Data.text.inj ((Option.some.inj ho).trans he)).symm
  simp [NamedByEntryOrTag, IsText, hc, htag, eq_comm]

/-- Checking the entries of a component gives what they describe. -/
theorem accepts_componentSchema : Accepts componentSchema.check (RecordOf Describes) := by
  refine accepts_recordOf fun entries component => ?_
  cases hc : hasFilled entries "component_class_name" with
  | true =>
    have hfill : fillClassName entries = .ok entries := by simp [fillClassName, hc]
    rw [hfill, ← describesBy_of_filled hc]
    exact checkComponent_eq_ok
  | false =>
    by_cases ht : ∃ tag, Entry entries "tag_name" IsFilledText tag
    · obtain ⟨tag, ht⟩ := ht
      rw [fillClassName_of_text hc ht, ← describesBy_tag hc ht, ← describesBy_put]
      exact checkComponent_eq_ok
    · have hnone : ¬ Describes entries component := fun d => ht ⟨_, d.tag⟩
      refine iff_of_false (fun hok => ?_) hnone
      cases hfill : fillClassName entries with
      | error word => simp [hfill] at hok
      | ok filled =>
        rw [hfill] at hok
        have htag := (checkComponent_eq_ok.mp hok).tag
        exact ht ⟨_, htag.of_lookup (lookup_tag_of_fillClassName hfill).symm⟩

end ClassNames

/-- The entries list components with distinct tags. -/
def ListsComponents (entries : Entries) (components : List Component) : Prop :=
  EntryOr entries "components" [] (ListOf (RecordOf Describes)) components ∧
    (components.map Component.tag).Nodup

theorem duplicateTag_eq_none_iff (seen : List String) (components : List Component) :
    duplicateTag seen components = none ↔
      (components.map Component.tag).Nodup ∧ ∀ cmp ∈ components, cmp.tag ∉ seen := by
  induction components generalizing seen with
  | nil => simp [duplicateTag]
  | cons cmp components ih =>
    rw [duplicateTag]
    by_cases h : cmp.tag ∈ seen
    · simp [h]
    · simp only [List.contains_iff_mem, h, if_false, ih, List.map_cons, List.nodup_cons,
        List.mem_map, List.mem_cons, not_or, not_exists, not_and]
      constructor
      · rintro ⟨hn, hall⟩
        refine ⟨⟨fun other ho => (hall other ho).1, hn⟩, fun other ho => ?_⟩
        rcases ho with rfl | ho
        · exact h
        · exact (hall other ho).2
      · rintro ⟨⟨hne, hn⟩, hall⟩
        exact ⟨hn, fun other ho => ⟨hne other ho, hall other (.inr ho)⟩⟩

theorem distinctTags_eq_ok {components distinct : List Component} :
    distinctTags components = .ok distinct ↔
      components = distinct ∧ (components.map Component.tag).Nodup := by
  have hnone := duplicateTag_eq_none_iff [] components
  rw [distinctTags]
  cases hd : duplicateTag [] components with
  | none =>
    have hnodup := (hnone.mp hd).1
    simp [hnodup]
  | some tag =>
    refine iff_of_false (complain_ne_ok _ _) ?_
    rintro ⟨-, hn⟩
    rw [hnone.mpr ⟨hn, by simp⟩] at hd
    cases hd

/-- Checking a manifest gives the components that it lists. -/
theorem accepts_manifestSchema : Accepts manifestSchema.check (RecordOf ListsComponents) := by
  refine accepts_recordOf fun entries components => ?_
  simp only [Checked.andThen_eq_ok, optional_eq_ok (accepts_listOf accepts_componentSchema),
    distinctTags_eq_ok, ListsComponents]
  constructor
  · rintro ⟨listed, hl, rfl, hn⟩
    exact ⟨hl, hn⟩
  · rintro ⟨hl, hn⟩
    exact ⟨components, hl, rfl, hn⟩

end Hydration.Validation
