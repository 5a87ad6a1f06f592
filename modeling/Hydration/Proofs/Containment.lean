import Hydration.Proofs.Messages
import Hydration.Proofs.Misreading

/-! Faults that leave the command. Main statement: with an input that exists and a manifest that loads
the command ends with a code exactly if the table of the project file is not misread, no path of a
component holds a null character, all selected modules are texts, the results can be written, and all
that there is to say can be shown. -/

namespace Hydration

open Hydration.Path Disk

section Project

variable {disk : Disk} {choices : Choices} {start : Location}

/-- The tables in the text are not what the command takes them for. -/
def Derails (choices : Choices) (text : String) : Prop :=
  ∃ entries, Toml.parse text = .ok entries ∧
    match (entries.lookup "tool").getD (.table []) with
    | .table tool => ((tool.lookup "hydrant").getD (.table [])).Misread choices
    | _ => True

/-- A table without entries is never misread. -/
theorem not_misread_empty (choices : Choices) : ¬ (Data.table []).Misread choices := by
  rintro (⟨key, -, h⟩ | ⟨-, h | ⟨entries, data, he, hd, -⟩⟩ | ⟨-, h⟩)
  · exact h
  · exact h
  · rw [← Data.table.inj he] at hd
    cases hd
  · exact h [] rfl

theorem escapes_settingsOf_iff (choices : Choices) (current folder : Location) (text : String) :
    Escapes (settingsOf choices current folder text) ↔ Derails choices text := by
  have hmerge (table : Data) : Escapes (mergeSettings choices current folder table) ↔
      table.Misread choices := escapes_mergeSettings_iff current folder
  unfold settingsOf toolTable Derails
  cases Toml.parse text with
  | error refusal =>
    cases refusal with
    | malformed => exact iff_of_false ((hmerge _).not.mpr (not_misread_empty choices)) (by simp)
    | hugeNumber digits => exact iff_of_false (by simp [Escapes, bind, Except.bind,
        SettingsError.isReported]) (by simp)
  | ok entries =>
    simp only [Except.ok.injEq, exists_eq_left']
    cases (entries.lookup "tool").getD (.table []) with
    | table tool => exact hmerge _
    | _ => exact iff_of_true ⟨_, rfl, rfl⟩ trivial

/-- A text that is no project file leads to what no entries lead to. -/
theorem settingsOf_of_malformed {text : String} (h : Toml.parse text = .error .malformed) (choices : Choices)
    (current folder : Location) :
    settingsOf choices current folder text = mergeSettings choices current folder (.table []) := by
  rw [settingsOf, toolTable, h]
  rfl

namespace CommandLine

/-- Loading the settings ends in a fault that is not reported exactly if the nearest project file is a
text that nests too deeply or whose tables are misread. -/
theorem escapes_loadSettings_iff :
    Escapes (run (loadSettings choices start) disk).1 ↔ ∃ folder bytes text,
      projectFile? disk start = some (folder, bytes) ∧ Text.readText bytes = .ok text ∧
        (disk.overflows .toml text = true ∨ Derails choices text) := by
  rw [run_loadSettings]
  dsimp only
  cases hp : projectFile? disk start with
  | none =>
    refine iff_of_false ?_ (by simp)
    exact (escapes_mergeSettings_iff _ _).not.mpr (not_misread_empty choices)
  | some file =>
    obtain ⟨folder, bytes⟩ := file
    dsimp only
    cases ht : Text.readText bytes with
    | error e =>
      refine iff_of_false ?_ ?_
      · rintro ⟨own, he, hr⟩
        obtain rfl := Except.error.inj he
        cases hr
      · rintro ⟨own, other, text, hf, hr, -⟩
        obtain ⟨-, rfl⟩ := Prod.mk.inj (Option.some.inj hf)
        cases ht.symm.trans hr
    | ok text =>
      have hescapes : Escapes (if disk.overflows .toml text then .error .tooDeep
          else settingsOf choices disk.here folder text) ↔
          disk.overflows .toml text = true ∨ Derails choices text := by
        split
        · exact iff_of_true ⟨_, rfl, rfl⟩ (.inl ‹_›)
        · rw [escapes_settingsOf_iff, or_iff_right ‹_›]
      refine hescapes.trans ?_
      constructor
      · exact fun h => ⟨folder, bytes, text, rfl, ht, h⟩
      · rintro ⟨own, other, written, hf, hr, h⟩
        obtain ⟨-, rfl⟩ := Prod.mk.inj (Option.some.inj hf)
        obtain rfl := Except.ok.inj (ht.symm.trans hr)
        exact h

/-- A chosen manifest goes before the one that a table names. -/
theorem manifest_of_choice {settings : Settings} {manifest : Location}
    (hs : (run (loadSettings choices start) disk).1 = .ok settings)
    (hc : choices.manifest = some manifest) : settings.manifest = some manifest := by
  obtain ⟨folder, table, -, hmerge⟩ := exists_merge_of_loadSettings hs
  have hm := manifest_of_mergeSettings hmerge
  rw [hc] at hm
  exact (Except.ok.inj hm).symm

end CommandLine

end Project

namespace CommandLine

section Run

variable {arguments : Arguments} {disk : Disk} {kind : EntryKind} {settings : Settings}
  {groups : List Group}

/-- Where the settings name a manifest, it can be opened and holds components. -/
def ManifestLoads (arguments : Arguments) (disk : Disk) (kind : EntryKind) : Prop :=
  ∀ settings manifest,
    (run (loadSettings (choicesOf arguments) (startOf arguments kind)) disk).1 = .ok settings →
    settings.manifest = some manifest →
    ∃ components, (run (openManifest manifest) disk).1 = .ok components

/-- What a run loads is determined. -/
theorem Loads.unique {own : Settings} {manifest other : Location}
    {components others : List Component} (h : Loads arguments disk settings manifest components)
    (h' : Loads arguments disk own other others) :
    own = settings ∧ other = manifest ∧ others = components := by
  obtain ⟨⟨kind, hk, hs⟩, hm, ho⟩ := h
  obtain ⟨⟨kind', hk', hs'⟩, hm', ho'⟩ := h'
  obtain rfl := Option.some.inj (hk.symm.trans hk')
  obtain rfl := Except.ok.inj (hs.symm.trans hs')
  obtain rfl := Option.some.inj (hm.symm.trans hm')
  exact ⟨rfl, rfl, Except.ok.inj (ho'.symm.trans ho)⟩

/-- So are the modules that it reaches. -/
theorem Reaches.unique {others : List Group} {own : Settings}
    (h : Reaches arguments disk settings groups) (h' : Reaches arguments disk own others) :
    own = settings ∧ others = groups := by
  obtain ⟨manifest, components, hload, -, rfl⟩ := h
  obtain ⟨manifest', components', hload', -, rfl⟩ := h'
  obtain ⟨rfl, rfl, rfl⟩ := hload.unique hload'
  exact ⟨rfl, rfl⟩

/-- All that a run has to say of the modules that it reaches can be shown, also that there are none. -/
structure TellsAll (arguments : Arguments) (disk : Disk) (options : Options) (groups : List Group) :
    Prop extends Told disk options (folderOf arguments) groups where
  nothing : groups = [] →
    Tells .warning s!"No manifest components are declared under {(inputOf arguments).toText}"

theorem run_hydrateGroups_of_undecodable (settings : Settings) (folder : Option Location)
    (h : ¬ ∀ g ∈ groups, g.Decodable disk) :
    ∃ e, run (hydrateGroups false settings folder groups) disk =
      (abandon [] (.undecodable e), disk) := by
  obtain ⟨e, he⟩ := run_readModules_of_undecodable {} h
  refine ⟨e, ?_⟩
  rw [hydrateGroups, run_bind, he]
  rfl

theorem told_nil (disk : Disk) (options : Options) (folder : Option Location) :
    Told disk options folder [] where
  emptied g hg := absurd hg.mem List.not_mem_nil
  written g text hg := absurd hg.mem List.not_mem_nil
  report := by simp

/-- A run that reaches modules ends with a code exactly if all of them are texts, the results can be
written, and all is shown; the code is one when some module could not be opened or fails. -/
theorem ends_perform_iff (hv : arguments.verbose = false) (hh : disk.here.Proper)
    (hr : Reaches arguments disk settings groups) {code : Nat} {after : Disk} :
    Ends (perform arguments) disk code after ↔
      (∀ g ∈ groups, g.Decodable disk) ∧
      Written disk (resultsOf disk settings.options (folderOf arguments) groups) after ∧
      TellsAll arguments disk settings.options groups ∧
      code = if (answersOf disk settings.options groups).1.hasErrors then 1 else 0 := by
  have hp : ∀ g ∈ groups, g.file.Proper := fun g hg => hr.proper hh hg
  rw [ends_perform_iff_settle hr hv, settleModules]
  by_cases hne : groups = []
  · subst hne
    rw [if_pos rfl, ends_conclude_iff]
    have hnothing : Shows false [nothingEvent arguments] ↔
        TellsAll arguments disk settings.options [] := by
      rw [shows_cons, and_iff_left shows_nil, nothingEvent, fault?_say (by decide)]
      exact ⟨fun h => ⟨told_nil .., fun _ => h⟩, fun h => h.nothing rfl⟩
    rw [hnothing]
    constructor
    · rintro ⟨htold, rfl, rfl⟩
      exact ⟨by simp, .nil _, htold, rfl⟩
    · rintro ⟨-, hw, htold, rfl⟩
      cases hw
      exact ⟨htold, rfl, rfl⟩
  · rw [if_neg hne, ends_hydrateGroups_iff, audible_iff hp]
    have htold : Told disk settings.options (folderOf arguments) groups ↔
        TellsAll arguments disk settings.options groups :=
      ⟨fun h => ⟨h, fun he => absurd he hne⟩, TellsAll.toTold⟩
    rw [htold]

/-- Otherwise, if all of them are texts and the results can be written, a message is not shown. -/
theorem balks_perform (hv : arguments.verbose = false) (hh : disk.here.Proper)
    (hr : Reaches arguments disk settings groups) (hd : ∀ g ∈ groups, g.Decodable disk) {after : Disk}
    (hw : Written disk (resultsOf disk settings.options (folderOf arguments) groups) after)
    (ht : ¬ TellsAll arguments disk settings.options groups) : Balks (perform arguments) disk := by
  have hp : ∀ g ∈ groups, g.file.Proper := fun g hg => hr.proper hh hg
  rw [balks_perform_iff hr hv, settleModules]
  by_cases hne : groups = []
  · subst hne
    rw [if_pos rfl]
    refine balks_showThen fun hs => absurd ?_ ht
    rw [shows_cons, nothingEvent, fault?_say (by decide)] at hs
    exact ⟨told_nil .., fun _ => hs.1⟩
  · rw [if_neg hne]
    refine balks_hydrateGroups hd hw fun ha => ht ⟨(audible_iff hp).mp ha, fun he => absurd he hne⟩

theorem renders_missingManifest : Tells .error missingManifest := by
  have h : (Markup.render (Terminal.announce .error missingManifest).message.toList).toOption.isSome =
      true := by decide +kernel
  obtain ⟨shown, hs⟩ := Option.isSome_iff_exists.mp h
  exact ⟨shown, toOption_eq_some.mp hs⟩

/-- A run without settings ends with the code one when their fault is told. -/
theorem ends_of_error (hv : arguments.verbose = false)
    (hk : disk.look (inputOf arguments) = some kind) {e : SettingsError} {code : Nat} {after : Disk}
    (he : (run (loadSettings (choicesOf arguments) (startOf arguments kind)) disk).1 = .error e) :
    Ends (perform arguments) disk code after ↔ e.isReported = true ∧
      Tells .error s!"Invalid configuration: {Markup.escape (run e.tell disk).1}" ∧
      code = 1 ∧ after = disk := by
  have hrun := run_perform_of_look hk
  rw [he, hv] at hrun
  dsimp only at hrun
  rw [Ends, hrun]
  cases e.isReported with
  | false => simp [abandon]
  | true =>
    rw [if_pos rfl, ← Ends, ends_conclude_iff]
    rw [shows_cons, fault?_say (by decide), and_iff_left shows_nil, and_iff_right rfl]

theorem ends_of_no_manifest (hv : arguments.verbose = false)
    (hk : disk.look (inputOf arguments) = some kind)
    (hs : (run (loadSettings (choicesOf arguments) (startOf arguments kind)) disk).1 = .ok settings)
    (hm : settings.manifest = none) : Ends (perform arguments) disk 1 disk := by
  have hrun := run_perform_of_look hk
  rw [hs, hv] at hrun
  simp only [hm] at hrun
  rw [Ends, hrun, ← Ends]
  refine ends_conclude_iff.mpr ⟨?_, rfl, rfl⟩
  exact shows_cons.mpr ⟨(fault?_say (by decide) _).mpr renders_missingManifest, shows_nil⟩

/-- What is said of bytes that are no text has no brackets. -/
theorem bracket_not_mem_message (e : Text.Utf8Error) : '[' ∉ e.message.toList := by
  have hreason : '[' ∉ e.fault.reason.toList := by cases e.fault <;> decide
  have hdigit : ∀ n < 16, '[' ≠ Nat.digitChar n := by decide
  have hbyte : '[' ∉ (Text.hexByte e.byte).toList := by
    have hb := e.byte.toNat_lt
    rw [Text.hexByte, String.toList_ofList]
    simp only [List.mem_cons, List.not_mem_nil, or_false, not_or]
    exact ⟨hdigit _ (by omega), hdigit _ (by omega)⟩
  unfold Text.Utf8Error.message
  split <;> simp only [String.toList_append, List.mem_append, not_or]
  · exact ⟨⟨⟨⟨⟨by decide, hbyte⟩, by decide⟩, bracket_not_mem_nat _⟩, by decide⟩, hreason⟩
  · exact ⟨⟨⟨⟨⟨by decide, bracket_not_mem_nat _⟩, by decide⟩, bracket_not_mem_nat _⟩, by decide⟩,
      hreason⟩

theorem tells_undecodable (e : Text.Utf8Error) :
    Tells .error s!"Invalid configuration: {Markup.escape e.message}" := by
  refine tells_of_not_mem _ ?_
  rw [String.toList_append, List.mem_append, not_or]
  exact ⟨by decide, Markup.not_mem_escape (bracket_not_mem_message e)⟩

/-- A code is zero or one. -/
theorem ends_iff_code (h : ∀ code after, Ends (perform arguments) disk code after → code = 0 ∨ code = 1) :
    ((run (perform arguments) disk).1.result = .ok 0 ∨
      (run (perform arguments) disk).1.result = .ok 1) ↔
      ∃ code after, Ends (perform arguments) disk code after := by
  constructor
  · rintro (h | h) <;> exact ⟨_, _, h, rfl⟩
  · rintro ⟨code, after, hends⟩
    rcases h code after hends with rfl | rfl
    · exact .inl hends.1
    · exact .inr hends.1

/-- The modules that a run reaches are texts, their results can be written, and all is shown. -/
def SettlesModules (arguments : Arguments) (disk : Disk) : Prop :=
  ∀ settings groups, Reaches arguments disk settings groups →
    (∀ g ∈ groups, g.Decodable disk) ∧
    (∃ after, Written disk (resultsOf disk settings.options (folderOf arguments) groups) after) ∧
    TellsAll arguments disk settings.options groups

/-- A run that loads its settings and its manifest ends with zero or one exactly if no path holds a null
character and the modules are settled. -/
theorem contained_of_loads (hv : arguments.verbose = false) (hh : disk.here.Proper)
    {manifest : Location} {components : List Component}
    (hl : Loads arguments disk settings manifest components) :
    ((run (perform arguments) disk).1.result = .ok 0 ∨
      (run (perform arguments) disk).1.result = .ok 1) ↔
      ¬ NullNamed components ∧ SettlesModules arguments disk := by
  by_cases hn : NullNamed components
  · obtain ⟨events, hrun⟩ := run_perform_of_nullNamed hl hv hn
    rw [hrun]
    exact iff_of_false (by simp [abandon]) fun h => h.1 hn
  · have hreach : Reaches arguments disk settings _ := ⟨manifest, components, hl, hn, rfl⟩
    rw [ends_iff_code, and_iff_right hn]
    · simp only [ends_perform_iff hv hh hreach]
      constructor
      · rintro ⟨code, after, hd, hw, ht, -⟩ own others hother
        obtain ⟨rfl, rfl⟩ := hreach.unique hother
        exact ⟨hd, ⟨after, hw⟩, ht⟩
      · intro h
        obtain ⟨hd, ⟨after, hw⟩, ht⟩ := h settings _ hreach
        exact ⟨_, after, hd, hw, ht, rfl⟩
    · intro code after h
      obtain ⟨-, -, -, rfl⟩ := (ends_perform_iff hv hh hreach).mp h
      split
      · exact .inr rfl
      · exact .inl rfl

theorem contained_of_error (hv : arguments.verbose = false)
    (hk : disk.look (inputOf arguments) = some kind) {e : SettingsError}
    (he : (run (loadSettings (choicesOf arguments) (startOf arguments kind)) disk).1 = .error e) :
    ((run (perform arguments) disk).1.result = .ok 0 ∨
      (run (perform arguments) disk).1.result = .ok 1) ↔ ¬ e.isReported = false ∧
      Tells .error s!"Invalid configuration: {Markup.escape (run e.tell disk).1}" := by
  rw [ends_iff_code fun code after h => .inr ((ends_of_error hv hk he).mp h).2.2.1]
  simp only [ends_of_error hv hk he, Bool.not_eq_false]
  constructor
  · rintro ⟨code, after, hr, ht, -⟩
    exact ⟨hr, ht⟩
  · exact fun h => ⟨1, disk, h.1, h.2, rfl, rfl⟩

/-- A project file that is no text is told of. -/
theorem run_perform_of_undecodable (hv : arguments.verbose = false)
    (hk : disk.look (inputOf arguments) = some kind) {e : Text.Utf8Error}
    (he : (run (loadSettings (choicesOf arguments) (startOf arguments kind)) disk).1 =
      .error (.undecodable e)) :
    run (perform arguments) disk =
      (finish [say .error s!"Invalid configuration: {Markup.escape e.message}"] 1, disk) := by
  have hrun := run_perform_of_look hk
  have htell : (run (SettingsError.undecodable e).tell disk).1 = e.message := rfl
  rw [he, hv] at hrun
  simp only [htell] at hrun
  rw [if_pos (show (SettingsError.undecodable e).isReported = true from rfl)] at hrun
  refine hrun.trans (run_conclude_of_shows ?_ 1 disk)
  exact shows_cons.mpr ⟨(fault?_say (by decide) _).mpr (tells_undecodable e), shows_nil⟩

/-- The nearest project file is a text that nests too deeply, or whose tables are not what the command
takes them for. -/
def ProjectMisread (arguments : Arguments) (disk : Disk) (kind : EntryKind) : Prop :=
  ∃ folder bytes text, projectFile? disk (startOf arguments kind) = some (folder, bytes) ∧
    Text.readText bytes = .ok text ∧
      (disk.overflows .toml text = true ∨ Derails (choicesOf arguments) text)

/-- The manifest can be loaded, and some path in it holds a null character. -/
def LoadsNull (arguments : Arguments) (disk : Disk) : Prop :=
  ∃ settings manifest components, Loads arguments disk settings manifest components ∧
    NullNamed components

theorem Loads.loaded {manifest : Location} {components : List Component}
    (h : Loads arguments disk settings manifest components)
    (hk : disk.look (inputOf arguments) = some kind) :
    (run (loadSettings (choicesOf arguments) (startOf arguments kind)) disk).1 = .ok settings := by
  obtain ⟨kind', hk', hs⟩ := h.load
  obtain rfl := Option.some.inj (hk.symm.trans hk')
  exact hs

theorem loadsNull_iff {manifest : Location} {components : List Component}
    (h : Loads arguments disk settings manifest components) :
    LoadsNull arguments disk ↔ NullNamed components := by
  constructor
  · rintro ⟨own, other, others, hother, hn⟩
    obtain ⟨-, -, rfl⟩ := h.unique hother
    exact hn
  · exact fun hn => ⟨_, _, _, h, hn⟩

/-- Nothing is asked of the modules of a run that loads no manifest. -/
theorem settles_of_not_loads (h : ∀ settings manifest components,
      ¬ Loads arguments disk settings manifest components) :
    ¬ LoadsNull arguments disk ∧ SettlesModules arguments disk := by
  constructor
  · rintro ⟨settings, manifest, components, hl, -⟩
    exact h _ _ _ hl
  · rintro settings groups ⟨manifest, components, hl, -⟩
    exact absurd hl (h _ _ _)

/-- A run ends with zero or one exactly if its settings are loaded or refused in words that are shown,
and its modules are settled. -/
theorem contained_iff (hv : arguments.verbose = false) (hh : disk.here.Proper)
    (hk : disk.look (inputOf arguments) = some kind) (hm : ManifestLoads arguments disk kind) :
    let loaded := (run (loadSettings (choicesOf arguments) (startOf arguments kind)) disk).1
    ((run (perform arguments) disk).1.result = .ok 0 ∨
      (run (perform arguments) disk).1.result = .ok 1) ↔
      ¬ ProjectMisread arguments disk kind ∧
      (∀ e : SettingsError, loaded = .error e →
        Tells .error s!"Invalid configuration: {Markup.escape (run e.tell disk).1}") ∧
      ¬ LoadsNull arguments disk ∧ SettlesModules arguments disk := by
  intro loaded
  have hmisread : Escapes loaded ↔ ProjectMisread arguments disk kind := escapes_loadSettings_iff
  rw [← hmisread]
  cases hs : loaded with
  | error e =>
    have hnone (settings : Settings) (manifest : Location) (components : List Component) :
        ¬ Loads arguments disk settings manifest components := by
      intro h
      cases hs.symm.trans (h.loaded hk)
    have hescapes : Escapes (.error e : Except SettingsError Settings) ↔ e.isReported = false := by
      simp [Escapes]
    rw [hescapes, and_iff_left (settles_of_not_loads hnone)]
    simp only [Except.error.injEq, forall_eq']
    exact contained_of_error hv hk hs
  | ok settings =>
    rw [and_iff_right (not_escapes_ok settings), and_iff_right (by simp)]
    cases hmanifest : settings.manifest with
    | none =>
      have hnone (own : Settings) (manifest : Location) (components : List Component) :
          ¬ Loads arguments disk own manifest components := by
        intro h
        obtain rfl := Except.ok.inj (hs.symm.trans (h.loaded hk))
        cases hmanifest.symm.trans h.named
      exact iff_of_true (.inr (ends_of_no_manifest hv hk hs hmanifest).1) (settles_of_not_loads hnone)
    | some manifest =>
      obtain ⟨components, ho⟩ := hm settings manifest hs hmanifest
      have hl : Loads arguments disk settings manifest components := ⟨⟨kind, hk, hs⟩, hmanifest, ho⟩
      rw [loadsNull_iff hl]
      exact contained_of_loads hv hh hl

theorem result_of_misread (hk : disk.look (inputOf arguments) = some kind)
    (h : ProjectMisread arguments disk kind) :
    ∃ e, (run (perform arguments) disk).1.result = .error (.settings e) := by
  obtain ⟨e, he, hr⟩ := escapes_loadSettings_iff.mpr h
  have hrun := run_perform_of_look hk
  rw [he] at hrun
  refine ⟨e, ?_⟩
  simp [hrun, hr, abandon]

theorem result_of_loadsNull (hv : arguments.verbose = false) (h : LoadsNull arguments disk) :
    (run (perform arguments) disk).1.result = .error .nullPath := by
  obtain ⟨settings, manifest, components, hl, hn⟩ := h
  obtain ⟨events, hrun⟩ := run_perform_of_nullNamed hl hv hn
  rw [hrun]
  rfl

theorem result_of_undecodable (hv : arguments.verbose = false)
    (hr : Reaches arguments disk settings groups) (hd : ¬ ∀ g ∈ groups, g.Decodable disk) :
    ∃ e, (run (perform arguments) disk).1.result = .error (.undecodable e) := by
  obtain ⟨loaded, -, hrun⟩ := run_perform_eq hr hv
  obtain ⟨e, he⟩ := run_hydrateGroups_of_undecodable settings (folderOf arguments) hd
  have hne : groups ≠ [] := by
    rintro rfl
    exact hd (by simp)
  rw [settleModules, if_neg hne, he] at hrun
  rw [hrun]
  exact ⟨e, rfl⟩

theorem result_ne_of_unread (hv : arguments.verbose = false) (hh : disk.here.Proper)
    (hr : Reaches arguments disk settings groups) (hu : ∃ g ∈ groups, g.Unread disk) :
    (run (perform arguments) disk).1.result ≠ .ok 0 := by
  intro h
  obtain ⟨-, -, -, hcode⟩ := (ends_perform_iff hv hh hr).mp ⟨h, rfl⟩
  obtain ⟨g, hg, hunread⟩ := hu
  rw [if_pos (hasErrors_answersOf.mpr ⟨g, hg, .inl hunread⟩)] at hcode
  cases hcode

end Run

def loneManifest : String :=
  "\x7b\"components\":[\x7b\"tag_name\":\"p\",\"source_path\":\"p.py\"\x7d]\x7d"

/-- A manifest and its one module, perhaps with a project file. -/
def loneDisk (project : Option String) (bytes : List UInt8) : Disk where
  nodes := (["m"], .file (Text.encode loneManifest)) :: (["p.py"], .file bytes) ::
    project.toList.map fun text => (["pyproject.toml"], .file (Text.encode text))

def loneComponent : Component := { tag := "p", className := "P", sourcePath := "p.py" }

def loneGroup : Group where
  file := { slashes := 1, parts := ["p.py"] }
  components := [{ loneComponent with sourcePath := "/p.py" }]

theorem openManifest_loneDisk (project : Option String) (bytes : List UInt8) :
    (run (openManifest (Location.ofText "m")) (loneDisk project bytes)).1 = .ok [loneComponent] := by
  have hplace : Location.ofText "m" = { parts := ["m"] } := by decide +kernel
  have hread : (loneDisk project bytes).read (Location.ofText "m") = .ok (Text.encode loneManifest) := by
    rw [hplace]
    rfl
  have hdecode : (Text.readText (Text.encode loneManifest)).toOption = some loneManifest := by
    decide +kernel
  have hparse : (readManifest (Location.ofText "m").toText loneManifest).toOption =
      some [loneComponent] := by decide +kernel
  rw [run_openManifest_of_text (by decide +kernel) hread (toOption_eq_some.mp hdecode) rfl]
  exact toOption_eq_some.mp hparse

def loneArguments : Arguments := { path := ".", manifest := some "m", workers := some 1 }

theorem look_loneDisk (project : Option String) (bytes : List UInt8) :
    (loneDisk project bytes).look (inputOf loneArguments) = some .folder := by
  have hplace : inputOf loneArguments = {} := by decide
  rw [hplace]
  rfl

theorem manifestLoads_loneDisk (project : Option String) (bytes : List UInt8) :
    ManifestLoads loneArguments (loneDisk project bytes) .folder := by
  intro settings manifest hs hm
  obtain rfl := Option.some.inj (hm.symm.trans (manifest_of_choice hs rfl))
  exact ⟨_, openManifest_loneDisk project bytes⟩

theorem reaches_loneDisk (bytes : List UInt8) :
    Reaches loneArguments (loneDisk none bytes) sampleSettings [loneGroup] := by
  have hinput : inputOf loneArguments = {} := by decide
  have hplace : Location.resolve { slashes := 1 } {} = { slashes := 1 } := by decide
  have hchild : Location.child { slashes := 1 } "pyproject.toml" =
      { slashes := 1, parts := ["pyproject.toml"] } := by decide
  refine ⟨_, _, ⟨⟨.folder, look_loneDisk none bytes, ?_⟩, rfl, openManifest_loneDisk none bytes⟩,
    by decide, ?_⟩
  · have hfile : projectFile? (loneDisk none bytes) (startOf loneArguments .folder) = none := by
      have hnone : hasProject (loneDisk none bytes) { slashes := 1 } = false := by
        rw [hasProject, hchild]
        rfl
      rw [projectFile?, startOf, hinput]
      change Option.bind (List.find? _ [Location.resolve { slashes := 1 } {}]) _ = none
      rw [hplace, List.find?_cons, hnone]
      rfl
    rw [run_loadSettings, hfile]
    dsimp only
    have hmerge : (mergeSettings (choicesOf loneArguments) { slashes := 1 } { slashes := 1 }
        (.table [])).toOption = some sampleSettings := by decide
    rw [startOf, hinput]
    change mergeSettings _ { slashes := 1 } (Location.resolve { slashes := 1 } {}) _ = _
    rw [hplace]
    exact toOption_eq_some.mp hmerge
  · rw [selectedOf, hinput]
    change _ = selectGroups { slashes := 1 } (Location.resolve { slashes := 1 } {}) _ _
    rw [hplace]
    change _ = selectGroups { slashes := 1 } { slashes := 1 } false (groupByFile { slashes := 1 } _ _)
    decide

theorem proper_here_loneDisk (project : Option String) (bytes : List UInt8) :
    (loneDisk project bytes).here.Proper :=
  ⟨Nat.le_succ 1, by simp [here, loneDisk]⟩

end CommandLine

end Hydration
