import Hydration.Proofs.Success
import Hydration.Settings

/-! Tables that the settings cannot be taken from. Checks report all that is wrong with the entries of
a table, but what keeps the entries from being taken is a fault that nobody reports. Main statement:
which tables make the settings end in such a fault. -/

namespace Hydration

namespace Validation

variable {α β : Type}

/-- The check ends with a value or with issues. -/
def Checked.Plain (checked : Checked α) : Prop := ∀ word, checked ≠ .tagKind word

theorem Checked.plain_ok (value : α) : (Checked.ok value).Plain := by simp [Plain]

theorem plain_complain (complaint : Complaint) : (complain complaint : Checked α).Plain := by
  simp [Checked.Plain, complain]

namespace Checked

theorem plain_map_iff {f : α → β} {checked : Checked α} : (f <$> checked).Plain ↔ checked.Plain := by
  cases checked <;> simp [Plain, Functor.map, Checked.map]

theorem plain_seq_iff {f : Checked (α → β)} {checked : Checked α} :
    (f <*> checked).Plain ↔ f.Plain ∧ checked.Plain := by
  cases f <;> cases checked <;> simp [Plain, Seq.seq, Checked.seq, Checked.map]

theorem plain_under_iff {checked : Checked α} {key : String} :
    (checked.under key).Plain ↔ checked.Plain := by
  cases checked <;> simp [Plain, Checked.under]

theorem plain_andThen_iff {checked : Checked α} {f : α → Checked β} (hf : ∀ value, (f value).Plain) :
    (checked.andThen f).Plain ↔ checked.Plain := by
  cases checked with
  | ok value => exact iff_of_true (hf value) (plain_ok value)
  | _ => simp [Plain, Checked.andThen]

theorem Plain.map {checked : Checked α} (h : checked.Plain) (f : α → β) : (f <$> checked).Plain :=
  plain_map_iff.mpr h

theorem Plain.seq {f : Checked (α → β)} {checked : Checked α} (hf : f.Plain) (h : checked.Plain) :
    (f <*> checked).Plain :=
  plain_seq_iff.mpr ⟨hf, h⟩

theorem Plain.under {checked : Checked α} (h : checked.Plain) (key : String) :
    (checked.under key).Plain :=
  plain_under_iff.mpr h

theorem Plain.andThen {checked : Checked α} {f : α → Checked β} (h : checked.Plain)
    (hf : ∀ value, (f value).Plain) : (checked.andThen f).Plain :=
  (plain_andThen_iff hf).mpr h

end Checked

theorem plain_listOf_iff {check : Check α} {data : Data} :
    (listOf check data).Plain ↔ ∀ items, data = .list items → ∀ item ∈ items, (check item).Plain := by
  have hitems (items : List Data) (i : Nat) :
      (checkItems check i items).Plain ↔ ∀ item ∈ items, (check item).Plain := by
    induction items generalizing i with
    | nil => simp [checkItems, Checked.plain_ok]
    | cons item items ih =>
      change ((List.cons <$> (check item).under (toString i)) <*>
        checkItems check (i + 1) items).Plain ↔ _
      rw [Checked.plain_seq_iff, Checked.plain_map_iff, Checked.plain_under_iff, ih]
      simp
  cases data with
  | list items => simpa [listOf] using hitems items 0
  | _ => simp [listOf, plain_complain]

section Parts

variable {check : Check α} (hc : ∀ data, (check data).Plain)

include hc

theorem plain_required (entries : Entries) (key : String) : (required entries key check).Plain := by
  unfold required
  cases entries.lookup key with
  | none => exact (plain_complain _).under key
  | some data => exact (hc data).under key

theorem plain_optional (entries : Entries) (key : String) (default : α) :
    (optional entries key default check).Plain := by
  unfold optional
  cases entries.lookup key with
  | none => exact Checked.plain_ok default
  | some data => exact (hc data).under key

theorem plain_listOf (data : Data) : (listOf check data).Plain :=
  plain_listOf_iff.mpr fun _ _ item _ => hc item

theorem plain_nullable (data : Data) : (nullable check data).Plain := by
  cases data with
  | null => exact Checked.plain_ok none
  | _ => exact (hc _).map some

end Parts

theorem plain_text (data : Data) : (text data).Plain := by
  cases data with
  | text value => exact Checked.plain_ok value
  | _ => exact plain_complain _

theorem plain_oneOf (choices : List (String × α)) (data : Data) : (oneOf choices data).Plain := by
  cases data with
  | text label =>
    rw [oneOf]
    split
    · exact Checked.plain_ok _
    · exact plain_complain _
  | _ => exact plain_complain _

theorem plain_whole (data : Data) : (whole data).Plain := by
  have hresult (result : Except Complaint Int) : (ofResult result).Plain := by
    cases result with
    | ok value => exact Checked.plain_ok value
    | error complaint => exact plain_complain complaint
  cases data with
  | whole n => exact Checked.plain_ok n
  | flag value => exact Checked.plain_ok _
  | text word => exact hresult _
  | real x => exact hresult _
  | _ => exact plain_complain _

theorem plain_positive (data : Data) : (positive data).Plain := by
  refine (plain_whole data).andThen fun n => ?_
  split
  · exact plain_complain _
  · exact Checked.plain_ok n

theorem plain_version (data : Data) : (version data).Plain := by
  refine (plain_text data).andThen fun v => ?_
  dsimp only
  split
  · exact Checked.plain_ok _
  · exact plain_complain _

theorem plain_helperList (data : Data) : (helperList data).Plain := by
  refine (plain_listOf plain_text data).andThen fun names => ?_
  split
  · exact plain_complain _
  · exact Checked.plain_ok names

theorem plain_recordOf {title : String} {check : Entries → Checked α} (hc : ∀ entries, (check entries).Plain)
    (data : Data) : ((recordOf title check).check data).Plain := by
  cases data with
  | table entries => exact hc entries
  | _ => exact plain_complain _

theorem plain_optionsSchema (data : Data) : (optionsSchema.check data).Plain := by
  refine plain_recordOf (fun entries => ?_) data
  refine ((((((Checked.Plain.map ?_ _).seq ?_).seq ?_).seq ?_).seq ?_).seq ?_).seq ?_
  · exact plain_optional (plain_oneOf formats) _ _ _
  · exact plain_optional (plain_nullable plain_version) _ _ _
  · exact plain_optional plain_text _ _ _
  · exact plain_optional plain_helperList _ _ _
  · exact plain_optional (plain_listOf plain_text) _ _ _
  · exact plain_optional (plain_listOf plain_text) _ _ _
  · exact plain_optional (plain_nullable plain_text) _ _ _

end Validation

theorem plain_workersSchema (data : Data) : (workersSchema.check data).Plain :=
  Validation.plain_recordOf
    (fun entries => Validation.plain_required Validation.plain_positive entries "max_workers") data

section Faults

variable {α β : Type}

/-- The step ends in a fault that is not reported. -/
def Escapes (step : Except SettingsError α) : Prop := ∃ e, step = .error e ∧ e.isReported = false

/-- No fault of the step is reported. -/
def Unreported (step : Except SettingsError α) : Prop := ∀ e, step = .error e → e.isReported = false

theorem not_escapes_ok (a : α) : ¬ Escapes (.ok a) := by simp [Escapes]

theorem unreported_ok (a : α) : Unreported (.ok a) := by simp [Unreported]

theorem Unreported.bind {step : Except SettingsError α} {f : α → Except SettingsError β}
    (hs : Unreported step) (hf : ∀ a, Unreported (f a)) : Unreported (step >>= f) := by
  cases step with
  | error e => exact fun e' h => Except.error.inj h ▸ hs e rfl
  | ok a => exact hf a

/-- A step behind which nothing escapes. -/
theorem escapes_bind_of_safe {step : Except SettingsError α} {f : α → Except SettingsError β}
    (hf : ∀ a, ¬ Escapes (f a)) : Escapes (step >>= f) ↔ Escapes step := by
  cases step with
  | error e => simp [Escapes, bind, Except.bind]
  | ok a => exact iff_of_false (hf a) (not_escapes_ok a)

/-- Of two steps one escapes when the first does or the second, provided that the second does not
depend on what the first gives and never escapes where the first reports a fault. -/
theorem escapes_bind_iff_of_reported {step : Except SettingsError α}
    {f : α → Except SettingsError β} {P : Prop}
    (hs : ∀ e, step = .error e → e.isReported = true → ¬ P) (hf : ∀ a, Escapes (f a) ↔ P) :
    Escapes (step >>= f) ↔ Escapes step ∨ P := by
  cases step with
  | error e =>
    cases hr : e.isReported with
    | false => simp [Escapes, bind, Except.bind, hr]
    | true => simp [Escapes, bind, Except.bind, hr, hs e rfl hr]
  | ok a => exact (hf a).trans (or_iff_right (not_escapes_ok a)).symm

theorem escapes_bind_iff {step : Except SettingsError α} {f : α → Except SettingsError β} {P : Prop}
    (hs : Unreported step) (hf : ∀ a, Escapes (f a) ↔ P) :
    Escapes (step >>= f) ↔ Escapes step ∨ P :=
  escapes_bind_iff_of_reported (fun e he hr => by simp [hs e he] at hr) hf

theorem unreported_filterMapM {key : Type} {f : key → Except SettingsError (Option β)}
    (hf : ∀ k, Unreported (f k)) (keys : List key) : Unreported (keys.filterMapM f) := by
  induction keys with
  | nil => exact unreported_ok []
  | cons k keys ih =>
    rw [List.filterMapM_cons]
    refine (hf k).bind fun found => ?_
    cases found with
    | none => exact ih
    | some b => exact ih.bind fun bs => unreported_ok _

theorem escapes_filterMapM_iff {key : Type} {f : key → Except SettingsError (Option β)}
    (hf : ∀ k, Unreported (f k)) (keys : List key) :
    Escapes (keys.filterMapM f) ↔ ∃ k ∈ keys, Escapes (f k) := by
  induction keys with
  | nil => exact iff_of_false (not_escapes_ok []) (by simp)
  | cons k keys ih =>
    rw [List.filterMapM_cons, escapes_bind_iff (hf k) (P := Escapes (keys.filterMapM f)), ih]
    · simp
    · rintro (_ | b)
      · rfl
      · exact escapes_bind_of_safe fun bs => not_escapes_ok _

end Faults

namespace Data

/-- The key cannot be asked for: a list that holds it, or a text that it occurs in, gives it to no
one, and data of other kinds holds nothing. -/
def Refuses (key : String) : Data → Prop
  | .table _ => False
  | .list items => Data.text key ∈ items
  | .text written => key.toList <:+: written.toList
  | _ => True

/-- The command cannot take what it asks for: the entries of the options, then the manifest and the
workers if they are not chosen. A manifest has to be named by a text, and workers by a table. -/
def Misread (choices : Choices) (table : Data) : Prop :=
  (∃ key ∈ optionKeys, table.Refuses key) ∨
  (choices.manifest = none ∧ (table.Refuses "manifest" ∨ ∃ entries data, table = .table entries ∧
    entries.lookup "manifest" = some data ∧ ∀ path, data ≠ .text path)) ∨
  (choices.workers = none ∧ ∀ entries, table ≠ .table entries)

end Data

theorem contains_iff {needle cs : List Char} : contains needle cs = true ↔ needle <:+: cs := by
  induction cs with
  | nil => simp [contains]
  | cons c cs ih => rw [contains, Bool.or_eq_true, ih, List.isPrefixOf_iff_prefix, List.infix_cons_iff]

section Table

variable {table : Data} {key : String}

theorem isText_iff {text : String} {data : Data} : isText text data = true ↔ data = .text text := by
  cases data <;> simp [isText]

theorem unreported_entry (table : Data) (key : String) : Unreported ( entry? table key) := by
  intro e h
  cases table with
  | table entries => cases h
  | list items =>
    rw [ entry?] at h
    split at h
    · exact Except.error.inj h ▸ rfl
    · cases h
  | text text =>
    rw [ entry?] at h
    split at h
    · exact Except.error.inj h ▸ rfl
    · cases h
  | _ => exact Except.error.inj h ▸ rfl

theorem escapes_entry?_iff : Escapes ( entry? table key) ↔ table.Refuses key := by
  cases table with
  | table entries => exact iff_of_false (not_escapes_ok _) id
  | list items =>
    have hany : items.any (isText key) = true ↔ Data.text key ∈ items := by simp [isText_iff]
    rw [Data.Refuses, ← hany, entry?]
    split
    · exact iff_of_true ⟨_, rfl, rfl⟩ ‹_›
    · exact iff_of_false (not_escapes_ok _) ‹_›
  | text text =>
    rw [Data.Refuses, ← contains_iff, entry?]
    split
    · exact iff_of_true ⟨_, rfl, rfl⟩ ‹_›
    · exact iff_of_false (not_escapes_ok _) ‹_›
  | _ => exact iff_of_true ⟨_, rfl, rfl⟩ trivial

/-- Only a table gives out entries. -/
theorem lookup_of_entry {data : Data} (h : entry? table key = .ok (some data)) :
    ∃ entries, table = .table entries ∧ entries.lookup key = some data := by
  cases table with
  | table entries => exact ⟨entries, rfl, Except.ok.inj h⟩
  | list items =>
    rw [ entry?] at h
    split at h <;> cases h
  | text text =>
    rw [ entry?] at h
    split at h <;> cases h
  | _ => cases h

theorem unreported_optionEntry (table : Data) (key : String) :
    Unreported (do return (← entry? table key).map fun value => (key, value)) :=
  (unreported_entry table key).bind fun _ => unreported_ok _

theorem unreported_optionEntries (table : Data) : Unreported (optionEntries table) :=
  unreported_filterMapM (unreported_optionEntry table) optionKeys

theorem escapes_optionEntries_iff :
    Escapes (optionEntries table) ↔ ∃ key ∈ optionKeys, table.Refuses key := by
  rw [optionEntries, escapes_filterMapM_iff (unreported_optionEntry table)]
  refine exists_congr fun key => and_congr_right fun _ => ?_
  exact (escapes_bind_of_safe fun _ => not_escapes_ok _).trans escapes_entry?_iff

/-- Only the manifest of a table is followed so far that its fault is reported. -/
theorem exists_entries_of_reported {current folder : Path.Location} {e : SettingsError}
    (h : tableManifest current folder table = .error e) (hr : e.isReported = true) :
    ∃ entries, table = .table entries := by
  rw [tableManifest, bind_eq_error] at h
  rcases h with h | ⟨entry, hentry, h⟩
  · simp [unreported_entry table "manifest" e h] at hr
  · cases entry with
    | none => cases h
    | some data =>
      obtain ⟨entries, rfl, -⟩ := lookup_of_entry hentry
      exact ⟨entries, rfl⟩

theorem escapes_tableManifest_iff (current folder : Path.Location) :
    Escapes (tableManifest current folder table) ↔ table.Refuses "manifest" ∨
      ∃ entries data, table = .table entries ∧ entries.lookup "manifest" = some data ∧
        ∀ path, data ≠ .text path := by
  rw [← escapes_entry?_iff]
  cases he : entry? table "manifest" with
  | error e =>
    have hu := unreported_entry table "manifest" e he
    refine iff_of_true ⟨e, ?_, hu⟩ (.inl ⟨e, rfl, hu⟩)
    rw [tableManifest, he]
    rfl
  | ok entry =>
    rw [or_iff_right (not_escapes_ok entry), tableManifest, he]
    cases entry with
    | none =>
      refine iff_of_false (not_escapes_ok none) ?_
      rintro ⟨entries, data, rfl, hd, -⟩
      cases hd.symm.trans (Except.ok.inj he)
    | some data =>
      obtain ⟨entries, rfl, hd⟩ := lookup_of_entry he
      have hall : (∃ own other, Data.table entries = .table own ∧ own.lookup "manifest" = some other ∧
          ∀ path, other ≠ .text path) ↔ ∀ path, data ≠ .text path := by
        constructor
        · rintro ⟨own, other, ho, hother, hp⟩
          obtain rfl := Data.table.inj ho
          rwa [Option.some.inj (hd.symm.trans hother)]
        · exact fun hp => ⟨entries, data, rfl, hd, hp⟩
      rw [hall]
      cases data with
      | text path =>
        refine iff_of_false ?_ fun hp => hp path rfl
        rintro ⟨e, he, hr⟩
        simp only [bind, Except.bind] at he
        split at he
        · cases he
        · split at he
          · obtain rfl := Except.error.inj he
            cases hr
          · cases he
      | _ => exact iff_of_true ⟨_, rfl, rfl⟩ (by simp)

theorem escapes_tableWorkers_iff :
    Escapes (tableWorkers table) ↔ ∀ entries, table ≠ .table entries := by
  cases table with
  | table entries => exact iff_of_false (not_escapes_ok _) fun h => h entries rfl
  | _ => exact iff_of_true ⟨_, rfl, rfl⟩ (by simp)

theorem not_escapes_validated {α : Type} {schema : Validation.Schema α} {data : Data}
    (h : (schema.check data).Plain) : ¬ Escapes (validated schema data) := by
  rintro ⟨e, he, hr⟩
  unfold validated Validation.Schema.validate at he
  cases hc : schema.check data with
  | tagKind word => exact h word hc
  | ok value => simp [hc, Except.mapError] at he
  | issues list =>
    simp only [hc, Except.mapError, Except.error.injEq] at he
    subst he
    cases hr

/-- Merging the choices with a table ends in a fault that is not reported exactly if the table is
misread. -/
theorem escapes_mergeSettings_iff (current folder : Path.Location) {choices : Choices} :
    Escapes (mergeSettings choices current folder table) ↔ table.Misread choices := by
  -- Checking what was taken reports all that it finds.
  have hchecked (entries : Validation.Entries) (manifest : Option Path.Location) (workers : Data) :
      ¬ Escapes (do
        let options ← validated Validation.optionsSchema (.table entries)
        let workers ← validated workersSchema (.table [("max_workers", workers)])
        return ({ options, manifest, workers } : Settings)) := by
    rw [escapes_bind_of_safe]
    · exact not_escapes_validated (Validation.plain_optionsSchema _)
    · intro options
      exact mt (escapes_bind_of_safe fun _ => not_escapes_ok _).mp
        (not_escapes_validated (plain_workersSchema _))
  rw [Data.Misread, ← escapes_optionEntries_iff, ← escapes_tableManifest_iff current folder,
    ← escapes_tableWorkers_iff, mergeSettings, escapes_bind_iff (unreported_optionEntries table)]
  intro entries
  cases hm : choices.manifest with
  | some l =>
    cases hw : choices.workers with
    | some data => simpa using hchecked _ _ _
    | none =>
      simp only [reduceCtorEq, false_and, true_and, false_or]
      exact escapes_bind_of_safe fun workers => hchecked _ _ workers
  | none =>
    cases hw : choices.workers with
    | some data =>
      simp only [reduceCtorEq, false_and, true_and, or_false]
      exact escapes_bind_of_safe fun l => hchecked _ l _
    | none =>
      simp only [true_and]
      refine escapes_bind_iff_of_reported (fun e he hr => ?_) fun l =>
        escapes_bind_of_safe fun workers => hchecked _ l workers
      obtain ⟨entries, rfl⟩ := exists_entries_of_reported he hr
      exact fun h => escapes_tableWorkers_iff.mp h entries rfl

end Table

end Hydration
