import Hydration.Proofs.Decoding
import Hydration.Proofs.LongNumbers
import Hydration.Proofs.Misreading
import Hydration.Proofs.Schemas
import Hydration.Proofs.Selection

/-! What opening a manifest comes to: the components that the file lists, a fault that is reported as one
of the manifest, or a fault that nobody reports. Main statement: which files give the first, and which
give the last. -/

namespace Hydration

namespace Validation

theorem plain_flag (data : Data) : (flag data).Plain := by
  have hwhole (n : Int) : (flagOfWhole n).Plain := by
    unfold flagOfWhole
    split_ifs
    · exact Checked.plain_ok _
    · exact Checked.plain_ok _
    · exact plain_complain _
  unfold flag
  split
  · exact Checked.plain_ok _
  · split
    · exact Checked.plain_ok _
    · exact plain_complain _
  · split
    · exact hwhole _
    · exact plain_complain _
  · split
    · exact hwhole _
    · exact plain_complain _
  · exact plain_complain _

theorem plain_filledText (data : Data) : (filledText data).Plain := by
  cases data with
  | text value =>
    rw [filledText]
    split
    · exact plain_complain _
    · exact Checked.plain_ok _
  | _ => exact plain_complain _

theorem plain_propertySchema (data : Data) : (propertySchema.check data).Plain := by
  refine plain_recordOf (fun entries => ?_) data
  refine (((Checked.Plain.map ?_ _).seq ?_).seq ?_).seq ?_
  · exact plain_required plain_filledText _ _
  all_goals exact plain_optional plain_flag _ _ _

theorem plain_eventSchema (data : Data) : (eventSchema.check data).Plain := by
  refine plain_recordOf (fun entries => ?_) data
  refine (((((Checked.Plain.map ?_ _).seq ?_).seq ?_).seq ?_).seq ?_).seq ?_
  · exact plain_required plain_filledText _ _
  · exact plain_optional plain_flag _ _ _
  · exact plain_optional (plain_nullable plain_text) _ _ _
  all_goals exact plain_optional plain_flag _ _ _

theorem plain_methodSchema (data : Data) : (methodSchema.check data).Plain := by
  refine plain_recordOf (fun entries => ?_) data
  refine (Checked.Plain.map ?_ _).seq ?_
  · exact plain_required plain_filledText _ _
  · exact plain_optional plain_flag _ _ _

theorem plain_checkComponent (entries : Entries) : (checkComponent entries).Plain := by
  refine (((((((Checked.Plain.map ?_ _).seq ?_).seq ?_).seq ?_).seq ?_).seq ?_).seq ?_).seq ?_
  · exact plain_required plain_filledText _ _
  · exact plain_optional plain_text _ _ _
  · exact plain_required plain_text _ _
  · exact plain_optional (plain_oneOf encapsulations) _ _ _
  · exact plain_optional (plain_listOf plain_propertySchema) _ _ _
  · exact plain_optional (plain_listOf plain_eventSchema) _ _ _
  · exact plain_optional (plain_listOf plain_methodSchema) _ _ _
  · exact plain_optional (plain_nullable plain_text) _ _ _

theorem plain_componentSchema_iff {data : Data} :
    (componentSchema.check data).Plain ↔ ∀ entries, data = .table entries → ¬ Unnamable entries := by
  cases data with
  | table entries =>
    simp only [componentSchema, recordOf, Data.table.injEq, forall_eq', ← fillClassName_eq_error_iff]
    cases fillClassName entries with
    | ok filled => simpa using plain_checkComponent filled
    | error word => simp [Checked.Plain]
  | _ => simp [componentSchema, recordOf, plain_complain]

/-- The manifest lists a component that has to be named after a tag that is no text. -/
def ListsUnnamable (entries : Entries) : Prop :=
  ∃ items fields, entries.lookup "components" = some (.list items) ∧ Data.table fields ∈ items ∧
    Unnamable fields

theorem plain_distinctTags (components : List Component) : (distinctTags components).Plain := by
  unfold distinctTags
  split
  · exact plain_complain _
  · exact Checked.plain_ok _

theorem plain_components_iff {entries : Entries} :
    (optional entries "components" [] (listOf componentSchema.check)).Plain ↔
      ¬ ListsUnnamable entries := by
  rw [optional]
  cases hl : entries.lookup "components" with
  | none =>
    refine iff_of_true (Checked.plain_ok _) ?_
    rintro ⟨items, fields, h, -⟩
    simp [hl] at h
  | some data =>
    simp only [Checked.plain_under_iff, plain_listOf_iff, plain_componentSchema_iff]
    constructor
    · rintro h ⟨items, fields, hi, hm, hu⟩
      exact h items (Option.some.inj (hl.symm.trans hi)) _ hm fields rfl hu
    · rintro h items rfl item hm fields rfl hu
      exact h ⟨items, fields, hl, hm, hu⟩

/-- Checking a manifest ends at once exactly if it lists a component that cannot be named. -/
theorem plain_manifestSchema_iff {data : Data} :
    (manifestSchema.check data).Plain ↔ ∀ entries, data = .table entries → ¬ ListsUnnamable entries := by
  cases data with
  | table entries =>
    simp only [manifestSchema, recordOf, Checked.plain_andThen_iff plain_distinctTags,
      plain_components_iff, Data.table.injEq, forall_eq']
  | _ => simp [manifestSchema, recordOf, plain_complain]

end Validation

open Hydration.Path CommandLine Disk Validation

/-- The file holds the text, whatever its line ends are. -/
def HoldsText (disk : Disk) (l : Location) (text : String) : Prop :=
  ∃ written, disk.read l = .ok (Text.encode written) ∧
    text = String.ofList (Text.unifyLineEnds written.toList)

theorem holdsText_iff {disk : Disk} {l : Location} {text : String} :
    HoldsText disk l text ↔ ∃ bytes, disk.read l = .ok bytes ∧ Text.readText bytes = .ok text := by
  constructor
  · rintro ⟨written, hread, rfl⟩
    refine ⟨_, hread, ?_⟩
    simp [Text.readText, Text.decode_encode, Except.map]
  · rintro ⟨bytes, hread, ht⟩
    unfold Text.readText at ht
    cases hd : Text.decode bytes with
    | error e => simp [hd, Except.map] at ht
    | ok written =>
      simp only [hd, Except.map, Except.ok.injEq] at ht
      exact ⟨written, Text.decode_eq_ok_iff.mp hd ▸ hread, ht.symm⟩

theorem readText_eq_error_iff {bytes : List UInt8} :
    (∃ e, Text.readText bytes = .error e) ↔ ∀ text, Text.encode text ≠ bytes := by
  have hok := @Text.decode_eq_ok_iff bytes
  unfold Text.readText
  cases hd : Text.decode bytes with
  | error e => simp [Except.map, ← hok, hd]
  | ok text =>
    refine iff_of_false (by simp [Except.map]) fun h => ?_
    exact h text (hok.mp hd)

section Texts

variable {path text : String}

theorem readManifest_eq_ok {components : List Component} :
    readManifest path text = .ok components ↔
      ∃ data, Json.parse text = .ok data ∧ RecordOf ListsComponents data components := by
  unfold readManifest
  simp only [bind_eq_ok, mapError_eq_ok]
  refine exists_congr fun data => and_congr_right fun _ => ?_
  rw [← accepts_manifestSchema, Schema.validate]
  cases manifestSchema.check data <;> simp

theorem not_plain_manifestSchema_iff {data : Data} :
    ¬ (manifestSchema.check data).Plain ↔
      ∃ entries, data = .table entries ∧ ListsUnnamable entries := by
  rw [plain_manifestSchema_iff]
  push Not
  rfl

theorem readManifest_unreported_iff :
    (∃ e, readManifest path text = .error e ∧ e.isReported = false) ↔
      Json.parse text = .error .halfPair ∨ (∃ n, Json.parse text = .error (.hugeNumber n)) ∨
        ∃ entries, Json.parse text = .ok (.table entries) ∧ ListsUnnamable entries := by
  unfold readManifest
  cases hp : Json.parse text with
  | error error =>
    cases error <;>
      simp [Except.mapError, bind, Except.bind, ManifestError.isReported]
  | ok data =>
    simp only [reduceCtorEq, exists_false, false_or, Except.ok.injEq,
      ← not_plain_manifestSchema_iff]
    simp only [Except.mapError, bind, Except.bind, Schema.validate]
    cases hc : manifestSchema.check data <;>
      simp [Checked.Plain, ManifestError.isReported]

end Texts

/-- Opening the file fails with a fault that is none of the manifest errors. -/
inductive Spoiled (disk : Disk) (l : Location) : Prop where
  /-- The path holds a null character. -/
  | nullPath {segment : String} (hs : segment ∈ l.parts) (hnull : '\x00' ∈ segment.toList)
  /-- The bytes are those of no text. -/
  | undecodable {bytes : List UInt8} (hread : disk.read l = .ok bytes)
      (hnone : ∀ text, Text.encode text ≠ bytes)
  /-- The text nests deeper than it can be followed. -/
  | tooDeep {text : String} (htext : HoldsText disk l text) (hdeep : disk.overflows .json text = true)
  /-- A whole number has too many digits. -/
  | hugeNumber {text : String} {n : Nat} (htext : HoldsText disk l text)
      (hparse : Json.parse text = .error (.hugeNumber n)) (hrun : Json.LongRun n text.toList)
  /-- A listed component has to be named after a tag that is no text. -/
  | unnamable {text : String} {entries : Entries} (htext : HoldsText disk l text)
      (hparse : Json.parse text = .ok (.table entries)) (hlist : ListsUnnamable entries)

section Opening

variable {disk : Disk} {l : Location}

theorem hasNull_iff : l.hasNull = true ↔ ∃ segment ∈ l.parts, '\x00' ∈ segment.toList := by
  simp [Location.hasNull]

theorem openManifest_eq_ok {components : List Component} :
    (run (openManifest l) disk).1 = .ok components ↔
      (∀ segment ∈ l.parts, '\x00' ∉ segment.toList) ∧ ∃ text data, HoldsText disk l text ∧
        disk.overflows .json text = false ∧ Json.parse text = .ok data ∧
          RecordOf ListsComponents data components := by
  have hnull : (∀ segment ∈ l.parts, '\x00' ∉ segment.toList) ↔ l.hasNull = false := by
    rw [← Bool.not_eq_true, hasNull_iff]
    push Not
    rfl
  rw [run_openManifest, hnull]
  simp only [holdsText_iff]
  cases l.hasNull with
  | true => simp
  | false =>
    cases hr : disk.read l with
    | error trouble => simp
    | ok bytes =>
      cases ht : Text.readText bytes with
      | error e => simp [ht]
      | ok text =>
        cases ho : disk.overflows .json text with
        | true => simp [ht, ho]
        | false => simp [ht, ho, readManifest_eq_ok]

theorem HoldsText.eq {text other : String} {bytes : List UInt8} (h : HoldsText disk l other)
    (hr : disk.read l = .ok bytes) (ht : Text.readText bytes = .ok text) : other = text := by
  obtain ⟨held, hheld, ho⟩ := holdsText_iff.mp h
  obtain rfl : bytes = held := Except.ok.inj (hr.symm.trans hheld)
  exact Except.ok.inj (ho.symm.trans ht)

theorem Spoiled.exists_read (h : Spoiled disk l) (hl : l.hasNull = false) :
    ∃ bytes, disk.read l = .ok bytes := by
  cases h with
  | nullPath hs hnull => simp [hasNull_iff.mpr ⟨_, hs, hnull⟩] at hl
  | undecodable hread => exact ⟨_, hread⟩
  | tooDeep htext => exact htext.imp' _ fun _ => And.left
  | hugeNumber htext => exact htext.imp' _ fun _ => And.left
  | unnamable htext => exact htext.imp' _ fun _ => And.left

theorem spoiled_iff_of_text {bytes : List UInt8} {text : String} (hl : l.hasNull = false)
    (hr : disk.read l = .ok bytes) (ht : Text.readText bytes = .ok text) :
    Spoiled disk l ↔ disk.overflows .json text = true ∨
      (∃ n, Json.parse text = .error (.hugeNumber n)) ∨
        ∃ entries, Json.parse text = .ok (.table entries) ∧ ListsUnnamable entries := by
  have hholds : HoldsText disk l text := holdsText_iff.mpr ⟨bytes, hr, ht⟩
  constructor
  · intro h
    cases h with
    | nullPath hs hnull => simp [hasNull_iff.mpr ⟨_, hs, hnull⟩] at hl
    | undecodable hread hnone =>
      obtain rfl := Except.ok.inj (hr.symm.trans hread)
      obtain ⟨e, he⟩ := readText_eq_error_iff.mpr hnone
      cases ht.symm.trans he
    | tooDeep htext hdeep => exact .inl (htext.eq hr ht ▸ hdeep)
    | hugeNumber htext hparse => exact .inr (.inl ⟨_, htext.eq hr ht ▸ hparse⟩)
    | unnamable htext hparse hlist => exact .inr (.inr ⟨_, htext.eq hr ht ▸ hparse, hlist⟩)
  · rintro (hdeep | ⟨n, hparse⟩ | ⟨entries, hparse, hlist⟩)
    · exact .tooDeep hholds hdeep
    · exact .hugeNumber hholds hparse (Json.longRun_of_parse hparse)
    · exact .unnamable hholds hparse hlist

theorem openManifest_unreported_iff
    (hpaired : ∀ text, HoldsText disk l text → Json.parse text ≠ .error .halfPair) :
    (∃ e, (run (openManifest l) disk).1 = .error e ∧ e.isReported = false) ↔ Spoiled disk l := by
  rw [run_openManifest]
  cases hl : l.hasNull with
  | true =>
    obtain ⟨segment, hs, hnull⟩ := hasNull_iff.mp hl
    exact iff_of_true ⟨_, rfl, rfl⟩ (.nullPath hs hnull)
  | false =>
    cases hr : disk.read l with
    | error trouble =>
      refine iff_of_false (by simp [ManifestError.isReported]) fun h => ?_
      obtain ⟨bytes, hread⟩ := h.exists_read hl
      cases hr.symm.trans hread
    | ok bytes =>
      cases ht : Text.readText bytes with
      | error e =>
        refine iff_of_true ⟨.undecodable e, by simp [ht], rfl⟩ ?_
        exact .undecodable hr (readText_eq_error_iff.mp ⟨e, ht⟩)
      | ok text =>
        have hread := @readManifest_unreported_iff l.toText text
        rw [or_iff_right (hpaired text (holdsText_iff.mpr ⟨bytes, hr, ht⟩))] at hread
        rw [spoiled_iff_of_text hl hr ht, ← hread]
        cases ho : disk.overflows .json text with
        | true => simp [ht, ho, ManifestError.isReported]
        | false => simp [ht, ho]

end Opening

def numberedText : String :=
  "\x7b\"components\":[\x7b\"tag_name\":5,\"source_path\":\"a.py\"\x7d]\x7d"

/-- A manifest with a tag that is a number. -/
def numberedDisk : Disk where
  nodes := [(["m"], .file (Text.encode numberedText))]

theorem holdsText_numbered {text : String} (h : HoldsText numberedDisk { parts := ["m"] } text) :
    text = numberedText := by
  have hread : (Text.readText (Text.encode numberedText)).toOption = some numberedText := by
    decide +kernel
  exact h.eq rfl (toOption_eq_some.mp hread)

end Hydration
