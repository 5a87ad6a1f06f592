import Hydration.Proofs.Misreading
import Hydration.Proofs.SameFiles
import Hydration.Proofs.Schemas
import Hydration.Proofs.Success

/-! Settings that are merged. A choice goes before the entry of the table, and the entry before the
default. Merging succeeds exactly with the settings that prevail by this order, where the table is not
misread. -/

namespace Hydration

open Hydration.Path Validation

namespace Validation

def IsFormat (data : Data) (style : Imports.ImportStyle) : Prop := data = .text style.label

/-- A version is taken without the blanks around it. -/
def IsVersionOrNull (data : Data) : Option String → Prop
  | some v => ∃ written, data = .text written ∧ Text.strip written = v ∧ isVersion v.toList = true
  | none => data = .null

def IsHelperList (data : Data) (names : List String) : Prop := ListOf IsText data names ∧ names.Nodup

def IsPositive (data : Data) (n : Int) : Prop := whole data = .ok n ∧ 1 ≤ n

theorem accepts_format : Accepts (oneOf formats) IsFormat :=
  accepts_oneOf (fun style => by cases style <;> decide) (by simp [formats])

theorem accepts_versionOrNull : Accepts (nullable version) IsVersionOrNull := by
  intro data v
  cases data with
  | null => cases v <;> simp [nullable, IsVersionOrNull]
  | text written =>
    have hversion (own : String) : version (.text written) = .ok own ↔
        Text.strip written = own ∧ isVersion own.toList = true := by
      rw [version, Checked.andThen_eq_ok]
      simp only [text, Checked.ok.injEq, exists_eq_left']
      by_cases hv : isVersion (Text.strip written).toList = true
      · rw [if_pos hv, Checked.ok.injEq]
        exact ⟨fun h => ⟨h, h ▸ hv⟩, And.left⟩
      · rw [if_neg hv]
        refine iff_of_false (complain_ne_ok _ _) ?_
        rintro ⟨rfl, hown⟩
        exact hv hown
    change some <$> version (.text written) = .ok v ↔ _
    rw [Checked.map_eq_ok]
    cases v <;> simp [IsVersionOrNull, hversion]
  | _ => cases v <;> simp [nullable, version, text, complain, Checked.andThen, Checked.map, IsVersionOrNull]

theorem hasRepeats_eq_false_iff {names : List String} : hasRepeats names = false ↔ names.Nodup := by
  induction names with
  | nil => simp [hasRepeats]
  | cons name names ih => simp [hasRepeats, ih]

theorem accepts_helperList : Accepts helperList IsHelperList := by
  intro data names
  rw [helperList, Checked.andThen_eq_ok]
  simp only [accepts_listOf accepts_text data, IsHelperList, ← hasRepeats_eq_false_iff]
  constructor
  · rintro ⟨own, hown, h⟩
    split at h
    · exact absurd h (complain_ne_ok _ _)
    · rename_i hn
      obtain rfl := Checked.ok.inj h
      exact ⟨hown, Bool.eq_false_iff.mpr hn⟩
  · rintro ⟨hown, hn⟩
    exact ⟨names, hown, by simp [hn]⟩

theorem accepts_positive : Accepts positive IsPositive := by
  intro data n
  rw [positive, Checked.andThen_eq_ok, IsPositive]
  constructor
  · rintro ⟨own, hown, h⟩
    split at h
    · exact absurd h (complain_ne_ok _ _)
    · obtain rfl := Checked.ok.inj h
      exact ⟨hown, by omega⟩
  · rintro ⟨hown, hn⟩
    exact ⟨n, hown, by rw [if_neg (by omega)]⟩

end Validation

/-- What is described by the data that was found, or else the default. -/
def FoundOr {α : Type} (found : Option Data) (default : α) (R : Data → α → Prop) (value : α) : Prop :=
  match found with
  | some data => R data value
  | none => value = default

/-- A chosen manifest is kept as it is. One that the table names is seen from the folder, unless it is
absolute, and its path is followed, so that it holds no null character. -/
def ManifestFrom (choice : Option Location) (folder : Location) (entry : Option Data)
    (manifest : Option Location) : Prop :=
  match choice, entry with
  | some l, _ => manifest = some l
  | none, some data => ∃ path, data = .text path ∧
      if (Location.ofText path).isAbsolute then manifest = some (.ofText path)
      else '\x00' ∉ path.toList ∧ manifest = some (.resolve folder (.ofText path))
  | none, none => manifest = none

/-- Choices go before the entries of the table, and these before the defaults. Only two of the options
can be chosen, and no entry names a file. -/
structure OptionsPrevail (choices : Choices) (table : Data) (options : Options) : Prop where
  format : FoundOr (choices.format.or (table.get? "module_format")) ({} : Options).format IsFormat
    options.format
  targetVersion : FoundOr (choices.targetVersion.or (table.get? "target_version")) none IsVersionOrNull
    options.targetVersion
  runtimeModule : FoundOr (table.get? "runtime_module") ({} : Options).runtimeModule IsText
    options.runtimeModule
  runtimeHelpers : FoundOr (table.get? "runtime_helpers") ({} : Options).runtimeHelpers IsHelperList
    options.runtimeHelpers
  clientBases : FoundOr (table.get? "client_bases") ({} : Options).clientBases (ListOf IsText)
    options.clientBases
  bootstrapDecorators : FoundOr (table.get? "bootstrap_decorators") ({} : Options).bootstrapDecorators
    (ListOf IsText) options.bootstrapDecorators
  fileName : options.fileName = none

/-- The settings that prevail with a table that stands in a folder. -/
structure Prevails (choices : Choices) (folder : Location) (table : Data) (settings : Settings) :
    Prop where
  options : OptionsPrevail choices table settings.options
  manifest : ManifestFrom choices.manifest folder (table.get? "manifest") settings.manifest
  workers : FoundOr (choices.workers.or (table.get? "max_workers")) 4 IsPositive settings.workers

section Entries

variable {table : Data} {key : String}

theorem entry?_eq_ok {found : Option Data} :
    entry? table key = .ok found ↔ ¬ table.Refuses key ∧ table.get? key = found := by
  have hrefuses : Escapes ( entry? table key) ↔ table.Refuses key := escapes_entry?_iff
  cases he : entry? table key with
  | error e =>
    have hescapes : Escapes ( entry? table key) := ⟨e, he, unreported_entry table key e he⟩
    simp [hrefuses.mp hescapes]
  | ok own =>
    rw [he] at hrefuses
    rw [and_iff_right (hrefuses.not.mp (not_escapes_ok own)), Except.ok.injEq]
    suffices hget : table.get? key = own by rw [hget]
    cases table with
    | table entries => exact Except.ok.inj he
    | list items =>
      rw [ entry?] at he
      split at he
      · cases he
      · exact Except.ok.inj he
    | text text =>
      rw [ entry?] at he
      split at he
      · cases he
      · exact Except.ok.inj he
    | _ => cases he

theorem filterMapM_eq_ok {κ ε β : Type} {f : κ → Except ε (Option β)} {P : κ → Prop}
    {g : κ → Option β} (h : ∀ k found, f k = .ok found ↔ P k ∧ g k = found) {keys : List κ}
    {found : List β} :
    keys.filterMapM f = .ok found ↔ (∀ k ∈ keys, P k) ∧ keys.filterMap g = found := by
  induction keys generalizing found with
  | nil => simp [pure, Except.pure]
  | cons k keys ih =>
    rw [List.filterMapM_cons, bind_eq_ok]
    simp only [h, List.forall_mem_cons]
    constructor
    · rintro ⟨own, ⟨hk, rfl⟩, hrest⟩
      cases hg : g k with
      | none =>
        rw [hg] at hrest
        obtain ⟨hkeys, hfound⟩ := ih.mp hrest
        exact ⟨⟨hk, hkeys⟩, by rw [List.filterMap_cons_none hg, hfound]⟩
      | some b =>
        rw [hg] at hrest
        obtain ⟨bs, hbs, hcons⟩ := bind_eq_ok.mp hrest
        obtain rfl := Except.ok.inj hcons
        obtain ⟨hkeys, hfound⟩ := ih.mp hbs
        exact ⟨⟨hk, hkeys⟩, by rw [List.filterMap_cons_some hg, hfound]⟩
    · rintro ⟨⟨hk, hkeys⟩, hfound⟩
      refine ⟨g k, ⟨hk, rfl⟩, ?_⟩
      cases hg : g k with
      | none =>
        rw [List.filterMap_cons_none hg] at hfound
        exact ih.mpr ⟨hkeys, hfound⟩
      | some b =>
        rw [List.filterMap_cons_some hg] at hfound
        exact bind_eq_ok.mpr ⟨_, ih.mpr ⟨hkeys, rfl⟩, congrArg Except.ok hfound⟩

/-- The entries of a table that are options. -/
def optionsOf (table : Data) : Entries :=
  optionKeys.filterMap fun key => (table.get? key).map fun value => (key, value)

theorem optionEntries_eq_ok {entries : Entries} :
    optionEntries table = .ok entries ↔
      (∀ key ∈ optionKeys, ¬ table.Refuses key) ∧ optionsOf table = entries := by
  refine filterMapM_eq_ok fun key found => ?_
  simp only [bind_eq_ok, entry?_eq_ok, pure, Except.pure, Except.ok.injEq]
  constructor
  · rintro ⟨own, ⟨hk, rfl⟩, rfl⟩
    exact ⟨hk, rfl⟩
  · rintro ⟨hk, rfl⟩
    exact ⟨_, ⟨hk, rfl⟩, rfl⟩

theorem lookup_filterMap (keys : List String) (f : String → Option Data) (key : String) :
    (keys.filterMap fun k => (f k).map fun value => (k, value)).lookup key =
      if key ∈ keys then f key else none := by
  induction keys with
  | nil => rfl
  | cons k keys ih =>
    rw [List.filterMap_cons]
    cases hf : f k with
    | none =>
      rw [Option.map_none]
      dsimp only
      rw [ih]
      by_cases hk : key = k
      · subst hk
        simp [hf]
      · simp [hk]
    | some data =>
      rw [Option.map_some]
      dsimp only
      by_cases hk : key = k
      · subst hk
        simp [hf]
      · rw [List.lookup_cons, beq_false_of_ne hk, ih]
        simp [hk]

theorem lookup_override (entries : Entries) (key other : String) (choice : Option Data) :
    (override entries key choice).lookup other =
      if other = key then choice.or (entries.lookup other) else entries.lookup other := by
  cases choice with
  | none => simp [override]
  | some value => simp [override, lookup_put]

end Entries

section Parts

variable {choices : Choices} {folder current : Location} {table : Data}

/-- What stands below an absolute folder does not depend on where one is. -/
theorem resolve_join (hf : folder.isAbsolute = true) (current l : Location) :
    Location.resolve current (folder.join l) = Location.resolve folder l :=
  Location.resolve_of_isAbsolute (Location.isAbsolute_join hf l) current

theorem tableManifest_eq_ok (hf : folder.isAbsolute = true) {manifest : Option Location} :
    tableManifest current folder table = .ok manifest ↔
      ¬ table.Refuses "manifest" ∧ ManifestFrom none folder (table.get? "manifest") manifest := by
  have hplace (path : String) : (if (Location.ofText path).isAbsolute then
        .ok (some (.ofText path))
      else if (Location.ofText path).hasNull then .error .nullPath
      else .ok (some (.resolve current (folder.join (.ofText path)))) :
        Except SettingsError (Option Location)) = .ok manifest ↔
      if (Location.ofText path).isAbsolute then manifest = some (.ofText path)
      else '\x00' ∉ path.toList ∧ manifest = some (.resolve folder (.ofText path)) := by
    rw [resolve_join hf current, ← Location.hasNull_ofText]
    split
    · rw [Except.ok.injEq, eq_comm]
    · split
      · rename_i hnull
        exact iff_of_false nofun fun h => h.1 hnull
      · rename_i hnull
        rw [and_iff_right hnull, Except.ok.injEq, eq_comm]
  rw [tableManifest, bind_eq_ok]
  simp only [entry?_eq_ok]
  constructor
  · rintro ⟨found, ⟨hr, hg⟩, h⟩
    refine ⟨hr, ?_⟩
    rw [hg]
    cases found with
    | none => exact (Except.ok.inj h).symm
    | some data =>
      cases data with
      | text path => exact ⟨path, rfl, (hplace path).mp h⟩
      | _ => cases h
  · rintro ⟨hr, hm⟩
    refine ⟨_, ⟨hr, rfl⟩, ?_⟩
    cases hg : table.get? "manifest" with
    | none =>
      rw [hg] at hm
      exact congrArg Except.ok hm.symm
    | some data =>
      rw [hg] at hm
      obtain ⟨path, rfl, hm⟩ := hm
      exact (hplace path).mpr hm

theorem tableWorkers_eq_ok {data : Data} :
    tableWorkers table = .ok data ↔
      (∃ entries, table = .table entries) ∧ (table.get? "max_workers").getD (.whole 4) = data := by
  cases table <;> simp [tableWorkers, Data.get?]

theorem not_misread_iff :
    ¬ table.Misread choices ↔ (∀ key ∈ optionKeys, ¬ table.Refuses key) ∧
      (choices.manifest = none → ¬ table.Refuses "manifest" ∧
        ∀ entries data, table = .table entries → entries.lookup "manifest" = some data →
          ∃ path, data = .text path) ∧
      (choices.workers = none → ∃ entries, table = .table entries) := by
  rw [Data.Misread]
  push Not
  rfl

theorem mergeSettings_eq : mergeSettings choices current folder table = (do
    let entries ← optionEntries table
    let manifest ← (choices.manifest.map fun l => .ok (some l)).getD (tableManifest current folder table)
    let workers ← (choices.workers.map .ok).getD (tableWorkers table)
    let options ← validated optionsSchema (.table (override (override entries "module_format"
      choices.format) "target_version" choices.targetVersion))
    let workers ← validated workersSchema (.table [("max_workers", workers)])
    return { options, manifest, workers }) := by
  unfold mergeSettings
  cases choices.manifest <;> cases choices.workers <;> rfl

/-- The manifest of the settings, if it can be taken. -/
theorem manifest_eq_ok (hf : folder.isAbsolute = true) {manifest : Option Location} :
    (choices.manifest.map fun l => .ok (some l)).getD (tableManifest current folder table) =
        .ok manifest ↔
      (choices.manifest = none → ¬ table.Refuses "manifest") ∧
        ManifestFrom choices.manifest folder (table.get? "manifest") manifest := by
  cases choices.manifest with
  | none => simpa using tableManifest_eq_ok hf
  | some l => simp [ManifestFrom, eq_comm]

theorem workers_eq_ok {data : Data} :
    (choices.workers.map .ok).getD (tableWorkers table) = .ok data ↔
      (choices.workers = none → ∃ entries, table = .table entries) ∧
        (choices.workers.or (table.get? "max_workers")).getD (.whole 4) = data := by
  cases choices.workers with
  | none => simpa using tableWorkers_eq_ok
  | some own => simp

theorem validated_eq_ok {α : Type} {schema : Schema α} {data : Data} {value : α} :
    validated schema data = .ok value ↔ schema.check data = .ok value := by
  unfold validated Schema.validate
  cases schema.check data <;> simp [Except.mapError]

theorem check_workers_iff {found : Option Data} {n : Int} :
    workersSchema.check (.table [("max_workers", found.getD (.whole 4))]) = .ok n ↔
      FoundOr found 4 IsPositive n := by
  have hfour : IsPositive (.whole 4) n ↔ n = 4 := by
    simp only [IsPositive, whole, Checked.ok.injEq]
    omega
  refine (accepts_recordOf (fun _ _ => required_eq_ok accepts_positive) _ _).trans ?_
  cases found with
  | some data => simp [RecordOf, Entry, FoundOr]
  | none => simp [RecordOf, Entry, FoundOr, hfour]

/-- The entries in which the choices have replaced those of the table. -/
def overridden (choices : Choices) (table : Data) : Entries :=
  override (override (optionsOf table) "module_format" choices.format) "target_version"
    choices.targetVersion

theorem lookup_overridden (key : String) :
    (overridden choices table).lookup key =
      if key = "module_format" then choices.format.or (table.get? key)
      else if key = "target_version" then choices.targetVersion.or (table.get? key)
      else if key ∈ optionKeys then table.get? key else none := by
  rw [overridden, lookup_override, lookup_override, optionsOf, lookup_filterMap]
  by_cases hf : key = "module_format"
  · subst hf
    simp [optionKeys]
  · by_cases ht : key = "target_version"
    · subst ht
      simp [optionKeys]
    · simp [hf, ht]

theorem entryOr_overridden_iff {α : Type} {key : String} {default value : α} {R : Data → α → Prop} :
    EntryOr (overridden choices table) key default R value ↔
      FoundOr (if key = "module_format" then choices.format.or (table.get? key)
        else if key = "target_version" then choices.targetVersion.or (table.get? key)
        else if key ∈ optionKeys then table.get? key else none) default R value := by
  rw [← lookup_overridden]
  rfl

/-- The options of the settings, if they can be taken. -/
theorem check_overridden_iff {options : Options} :
    optionsSchema.check (.table (overridden choices table)) = .ok options ↔
      OptionsPrevail choices table options := by
  simp only [optionsSchema, recordOf, Checked.seq_eq_ok, Checked.map_eq_ok,
    optional_eq_ok accepts_format, optional_eq_ok accepts_versionOrNull, optional_eq_ok accepts_text,
    optional_eq_ok accepts_helperList, optional_eq_ok (accepts_listOf accepts_text),
    optional_eq_ok accepts_textOrNull, entryOr_overridden_iff]
  constructor
  · rintro ⟨_, ⟨_, ⟨_, ⟨_, ⟨_, ⟨_, ⟨format, hformat, rfl⟩, targetVersion, hversion, rfl⟩, runtimeModule,
      hmodule, rfl⟩, helpers, hhelpers, rfl⟩, bases, hbases, rfl⟩, decorators, hdecorators, rfl⟩,
      file, hfile, rfl⟩
    exact ⟨hformat, hversion, hmodule, hhelpers, hbases, hdecorators, hfile⟩
  · intro h
    exact ⟨_, ⟨_, ⟨_, ⟨_, ⟨_, ⟨_, ⟨_, h.format, rfl⟩, _, h.targetVersion, rfl⟩, _, h.runtimeModule, rfl⟩,
      _, h.runtimeHelpers, rfl⟩, _, h.clientBases, rfl⟩, _, h.bootstrapDecorators, rfl⟩, _, h.fileName,
      rfl⟩

theorem mergeSettings_of_isAbsolute (hf : folder.isAbsolute = true) (current other : Location) :
    mergeSettings choices current folder table = mergeSettings choices other folder table := by
  have hmanifest : tableManifest current folder table = tableManifest other folder table := by
    simp only [tableManifest, resolve_join hf]
  rw [mergeSettings_eq, mergeSettings_eq, hmanifest]

/-- Merging gives the settings that prevail, unless the table is misread. -/
theorem mergeSettings_eq_ok (hf : folder.isAbsolute = true) {settings : Settings} :
    mergeSettings choices current folder table = .ok settings ↔
      ¬ table.Misread choices ∧ Prevails choices folder table settings := by
  simp only [mergeSettings_eq, bind_eq_ok, optionEntries_eq_ok, manifest_eq_ok hf, workers_eq_ok,
    validated_eq_ok]
  constructor
  · rintro ⟨entries, ⟨hkeys, rfl⟩, manifest, ⟨hm, hmanifest⟩, data, ⟨hw, rfl⟩, options, hoptions, n, hn, h⟩
    obtain rfl := Except.ok.inj h
    refine ⟨not_misread_iff.mpr ⟨hkeys, fun hnone => ⟨hm hnone, ?_⟩, hw⟩,
      check_overridden_iff.mp hoptions, hmanifest, check_workers_iff.mp hn⟩
    rintro entries data rfl hd
    rw [hnone, Data.get?, hd] at hmanifest
    obtain ⟨path, hp, -⟩ := hmanifest
    exact ⟨path, hp⟩
  · rintro ⟨hread, hoptions, hmanifest, hworkers⟩
    obtain ⟨hkeys, hm, hw⟩ := not_misread_iff.mp hread
    exact ⟨_, ⟨hkeys, rfl⟩, _, ⟨fun hnone => (hm hnone).1, hmanifest⟩, _, ⟨hw, rfl⟩, _,
      check_overridden_iff.mpr hoptions, _, check_workers_iff.mpr hworkers, rfl⟩

end Parts

end Hydration
