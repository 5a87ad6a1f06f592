import Hydration.Proofs.Batch
import Hydration.Proofs.Deliveries
import Hydration.Proofs.Groups

/-! What a run has to do: the settings that it finds and the modules that it selects. Finding out
changes nothing on the disk, and the files of the selected modules are proper locations. -/

namespace Hydration

open Hydration.Path Location

def Disk.here (disk : Disk) : Location := { slashes := 1, parts := disk.current }

def hasProject (disk : Disk) (folder : Location) : Bool :=
  disk.look (folder.child "pyproject.toml") == some .file

/-- The bytes of the nearest project file and the folder that it stands in. -/
def projectFile? (disk : Disk) (start : Location) : Option (Location × List UInt8) :=
  let here := Location.resolve disk.here start
  ((here :: here.ancestors).find? (hasProject disk)).bind fun folder =>
    (disk.read (folder.child "pyproject.toml")).toOption.map fun bytes => (folder, bytes)

/-- The settings that a text of a project file leads to. -/
def settingsOf (choices : Choices) (current folder : Location) (text : String) :
    Except SettingsError Settings :=
  toolTable text >>= mergeSettings choices current folder

namespace CommandLine

open Disk

def ReadOnly {α : Type} (x : StateM Disk α) : Prop := ∀ disk, (run x disk).2 = disk

section ReadOnly

variable {α : Type} {disk : Disk}

theorem ReadOnly.run_eq {x : StateM Disk α} (hx : ReadOnly x) {a : α} (h : (run x disk).1 = a) :
    run x disk = (a, disk) :=
  Prod.ext h (hx disk)

theorem run_current (disk : Disk) : run FileAccess.current disk = (disk.here, disk) := rfl

theorem run_read (l : Location) (disk : Disk) :
    run (FileAccess.read l) disk =
      ((disk.read l).mapError fun trouble => ⟨trouble, l.toText⟩, disk) := rfl

theorem run_isFile (l : Location) (disk : Disk) :
    run (isFile l) disk = (disk.look l == some .file, disk) := rfl

theorem run_resolve (l : Location) (disk : Disk) :
    run (Hydration.resolve l) disk = (Location.resolve disk.here l, disk) := rfl

theorem run_overflows (format : DataFormat) (text : String) (disk : Disk) :
    run (FileAccess.overflows format text) disk = (disk.overflows format text, disk) := rfl

theorem run_nearestProject (folders : List Location) (disk : Disk) :
    run (nearestProject folders) disk = (folders.find? (hasProject disk), disk) := by
  induction folders with
  | nil => rfl
  | cons folder folders ih =>
    rw [nearestProject, run_bind, run_isFile, List.find?_cons, hasProject]
    cases disk.look (folder.child "pyproject.toml") == some .file with
    | true => rfl
    | false => exact ih

/-- The settings come from the nearest project file, or from no entries if there is none; the disk stays
as it is. -/
theorem run_loadSettings (choices : Choices) (start : Location) (disk : Disk) :
    run (loadSettings choices start) disk =
      (match projectFile? disk start with
      | none => mergeSettings choices disk.here (Location.resolve disk.here start) (.table [])
      | some (folder, bytes) =>
        match Text.readText bytes with
        | .error e => .error (.undecodable e)
        | .ok text =>
          if disk.overflows .toml text then .error .tooDeep
          else settingsOf choices disk.here folder text,
        disk) := by
  rw [loadSettings, run_bind, findTable, run_bind, run_resolve, projectFile?]
  dsimp only
  rw [run_bind, run_nearestProject]
  dsimp only
  generalize List.find? (hasProject disk) _ = found
  cases found with
  | none => rfl
  | some folder =>
    dsimp only [Option.bind_some]
    rw [run_bind, run_read]
    cases disk.read (folder.child "pyproject.toml") with
    | error trouble => rfl
    | ok bytes =>
      dsimp only [Except.mapError, Except.toOption, Option.map_some]
      cases Text.readText bytes with
      | error e => rfl
      | ok text =>
        dsimp only
        rw [run_bind, run_overflows]
        cases disk.overflows .toml text with
        | true => rfl
        | false =>
          cases htool : toolTable text with
          | error e => simp only [settingsOf, htool]; rfl
          | ok table => simp only [settingsOf, htool]; rfl

theorem readOnly_loadSettings (choices : Choices) (start : Location) :
    ReadOnly (loadSettings choices start) :=
  fun disk => congrArg Prod.snd (run_loadSettings choices start disk)

/-- What opening a manifest comes to; the disk stays as it is. -/
theorem run_openManifest (l : Location) (disk : Disk) :
    run (openManifest l) disk =
      (if l.hasNull then .error .nullPath
      else match disk.read l with
        | .error trouble => .error (.unreadable l.toText ⟨trouble, l.toText⟩)
        | .ok bytes =>
          match Text.readText bytes with
          | .error e => .error (.undecodable e)
          | .ok text =>
            if disk.overflows .json text then .error .tooDeep else readManifest l.toText text,
        disk) := by
  rw [openManifest]
  split
  · rfl
  · rw [run_bind, run_read]
    cases disk.read l with
    | error trouble => rfl
    | ok bytes =>
      simp only [Except.mapError]
      cases Text.readText bytes with
      | error e => rfl
      | ok text =>
        dsimp only
        rw [run_bind, run_overflows]
        split <;> rfl

theorem readOnly_openManifest (l : Location) : ReadOnly (openManifest l) :=
  fun disk => congrArg Prod.snd (run_openManifest l disk)

theorem readOnly_tellSettings (e : SettingsError) : ReadOnly (e.tell : StateM Disk String) := by
  cases e <;> exact fun _ => rfl

end ReadOnly

/-- A manifest that can be read as a text gives what its text holds. -/
theorem run_openManifest_of_text {disk : Disk} {l : Location} {bytes : List UInt8} {text : String}
    (hl : l.hasNull = false) (hb : disk.read l = .ok bytes) (ht : Text.readText bytes = .ok text)
    (ho : disk.overflows .json text = false) :
    (run (openManifest l) disk).1 = readManifest l.toText text := by
  simp [run_openManifest, hl, hb, ht, ho]

def inputOf (arguments : Arguments) : Location := Location.ofText arguments.path

def folderOf (arguments : Arguments) : Option Location := arguments.out.map Location.ofText

/-- The folder in which the search for a project file starts. -/
def startOf (arguments : Arguments) (kind : EntryKind) : Location :=
  if kind == .folder then inputOf arguments else (inputOf arguments).parent

/-- The input of the run exists, and the settings and the manifest can be loaded. -/
structure Loads (arguments : Arguments) (disk : Disk) (settings : Settings) (manifest : Location)
    (components : List Component) : Prop where
  load : ∃ kind, disk.look (inputOf arguments) = some kind ∧
    (run (loadSettings (choicesOf arguments) (startOf arguments kind)) disk).1 = .ok settings
  named : settings.manifest = some manifest
  opened : (run (openManifest manifest) disk).1 = .ok components

/-- The modules of the components that stand at or below the input. -/
def selectedOf (arguments : Arguments) (disk : Disk) (manifest : Location)
    (components : List Component) : List Group :=
  let input := Location.resolve disk.here (inputOf arguments)
  selectGroups disk.here input (disk.look input == some .file)
    (groupByFile disk.here (some manifest.parent) components)

/-- Some path of a component holds a null character. -/
def NullNamed (components : List Component) : Prop :=
  ∃ cmp ∈ components, '\x00' ∈ cmp.sourcePath.toList

instance (components : List Component) : Decidable (NullNamed components) :=
  inferInstanceAs (Decidable (∃ cmp ∈ components, '\x00' ∈ cmp.sourcePath.toList))

/-- A run that comes as far as its modules. -/
def Reaches (arguments : Arguments) (disk : Disk) (settings : Settings) (groups : List Group) : Prop :=
  ∃ manifest components, Loads arguments disk settings manifest components ∧
    ¬ NullNamed components ∧ groups = selectedOf arguments disk manifest components

/-- A run with one worker that comes as far as its modules. -/
structure Selects (arguments : Arguments) (disk : Disk) (settings : Settings)
    (groups : List Group) : Prop where
  reaches : Reaches arguments disk settings groups
  worker : settings.workers = 1

theorem any_hasNull_iff {components : List Component} :
    (components.any fun cmp => (Location.ofText cmp.sourcePath).hasNull) = true ↔
      NullNamed components := by
  simp only [NullNamed, List.any_eq_true, hasNull_ofText]

/-- A run whose input exists goes by the settings that it loads. -/
theorem run_perform_of_look {arguments : Arguments} {disk : Disk} {kind : EntryKind}
    (hk : disk.look (inputOf arguments) = some kind) :
    run (perform arguments) disk =
      match (run (loadSettings (choicesOf arguments) (startOf arguments kind)) disk).1 with
      | .error e =>
        if e.isReported then
          run (conclude arguments.verbose [say .error
            s!"Invalid configuration: {Markup.escape (run e.tell disk).1}"] 1) disk
        else (abandon [] (.settings e), disk)
      | .ok settings =>
        match settings.manifest with
        | none => run (conclude arguments.verbose [say .error missingManifest] 1) disk
        | some manifest => run (hydrateManifest arguments.verbose settings (inputOf arguments) manifest
            (folderOf arguments)) disk := by
  have hlook : run (FileAccess.look (inputOf arguments)) disk = (some kind, disk) := Prod.ext hk rfl
  obtain ⟨loaded, hs⟩ : ∃ loaded,
      (run (loadSettings (choicesOf arguments) (startOf arguments kind)) disk).1 = loaded := ⟨_, rfl⟩
  have hload := (readOnly_loadSettings _ _).run_eq hs
  rw [hs]
  rw [startOf] at hload
  rw [inputOf] at hlook hload
  rw [perform]
  dsimp only
  rw [run_bind, hlook]
  dsimp only
  rw [run_bind, hload]
  cases loaded with
  | error e =>
    dsimp only
    split
    · rw [run_bind, readOnly_tellSettings e]
    · rfl
  | ok settings =>
    cases hm : settings.manifest with
    | none => simp only [hm]
    | some manifest =>
      simp only [hm]
      rfl

/-- The record of what a manifest holds. -/
def loadedEvent (manifest : Location) (components : List Component) : Event :=
  .record ⟨.debug, s!"Loaded {components.length} component(s) from {manifest.toText}"⟩

/-- The warning that nothing was selected. -/
def nothingEvent (arguments : Arguments) : Event :=
  say .warning s!"No manifest components are declared under {(inputOf arguments).toText}"

theorem fault?_loadedEvent (manifest : Location) (components : List Component) :
    (loadedEvent manifest components).fault? false = none :=
  fault?_quiet (show Level.debug.rank < Level.info.rank by decide)

section Loaded

variable {arguments : Arguments} {disk : Disk} {settings : Settings} {manifest : Location}
  {components : List Component} {groups : List Group}

theorem run_perform_of_loads (h : Loads arguments disk settings manifest components) :
    ∃ next : StateM Disk Outcome,
      run (perform arguments) disk =
        run (showThen arguments.verbose [loadedEvent manifest components] next) disk ∧
      run next disk =
        if NullNamed components then (abandon [] .nullPath, disk)
        else if selectedOf arguments disk manifest components = [] then
          run (conclude arguments.verbose [nothingEvent arguments] 0) disk
        else run (hydrateGroups arguments.verbose settings (folderOf arguments)
          (selectedOf arguments disk manifest components)) disk := by
  obtain ⟨⟨kind, hlook, hload⟩, hm, hopen⟩ := h
  have hopen' := (readOnly_openManifest manifest).run_eq hopen
  rw [run_perform_of_look hlook, hload]
  simp only [hm]
  rw [hydrateManifest, run_bind, hopen']
  refine ⟨_, rfl, ?_⟩
  by_cases hnull : NullNamed components
  · rw [if_pos (any_hasNull_iff.mpr hnull), if_pos hnull]
    rfl
  · rw [if_neg (mt any_hasNull_iff.mp hnull), if_neg hnull]
    rw [run_bind, run_current]
    dsimp only
    rw [run_bind, run_isFile]
    dsimp only
    change run (if (selectedOf arguments disk manifest components).isEmpty = true then _ else _) _ = _
    simp only [List.isEmpty_iff]
    split <;> rfl

/-- The path of a component with a null character cannot be followed. -/
theorem run_perform_of_nullNamed (h : Loads arguments disk settings manifest components)
    (hv : arguments.verbose = false) (hn : NullNamed components) :
    ∃ events, run (perform arguments) disk = (abandon events .nullPath, disk) := by
  obtain ⟨next, hrun, hnext⟩ := run_perform_of_loads h
  have hshows : Shows arguments.verbose [loadedEvent manifest components] := by
    rw [hv]
    exact shows_cons.mpr ⟨fault?_loadedEvent manifest components, shows_nil⟩
  rw [hrun, run_showThen_of_shows hshows, hnext, if_pos hn]
  exact ⟨_, rfl⟩

/-- A run that reaches modules hydrates them; if there are none it only says so. -/
theorem run_perform_of_reaches (h : Reaches arguments disk settings groups) :
    ∃ (loaded : Event) (next : StateM Disk Outcome),
      loaded.fault? false = none ∧ tablesOf [loaded] = [] ∧
      run (perform arguments) disk = run (showThen arguments.verbose [loaded] next) disk ∧
      run next disk =
        if groups = [] then run (conclude arguments.verbose [nothingEvent arguments] 0) disk
        else run (hydrateGroups arguments.verbose settings (folderOf arguments) groups) disk := by
  obtain ⟨manifest, components, hload, hn, rfl⟩ := h
  obtain ⟨next, hrun, hnext⟩ := run_perform_of_loads hload
  exact ⟨_, next, fault?_loadedEvent manifest components, rfl, hrun, hnext.trans (if_neg hn)⟩

/-- The code of such a run comes from its modules. -/
theorem ends_of_ends_perform (h : Reaches arguments disk settings groups) (hne : groups ≠ [])
    {code : Nat} {after : Disk} (he : Ends (perform arguments) disk code after) :
    Ends (hydrateGroups arguments.verbose settings (folderOf arguments) groups) disk code after := by
  obtain ⟨loaded, next, -, -, hrun, hnext⟩ := run_perform_of_reaches h
  rw [if_neg hne] at hnext
  rw [Ends, hrun] at he
  have hends := (ends_showThen_iff.mp he).2
  rwa [Ends, hnext] at hends

/-- What is done about the modules that were reached. -/
def settleModules (arguments : Arguments) (settings : Settings) (groups : List Group) :
    StateM Disk Outcome :=
  if groups = [] then conclude false [nothingEvent arguments] 0
  else hydrateGroups false settings (folderOf arguments) groups

/-- Without the records of the lowest level, such a run comes to what its modules come to. -/
theorem run_perform_eq (h : Reaches arguments disk settings groups)
    (hv : arguments.verbose = false) :
    ∃ loaded, tablesOf [loaded] = [] ∧ run (perform arguments) disk =
      (prepend [loaded] (run (settleModules arguments settings groups) disk).1,
        (run (settleModules arguments settings groups) disk).2) := by
  obtain ⟨loaded, next, hloaded, htables, hrun, hnext⟩ := run_perform_of_reaches h
  rw [hv] at hrun hnext
  refine ⟨loaded, htables, ?_⟩
  rw [hrun, run_showThen_of_shows (shows_cons.mpr ⟨hloaded, shows_nil⟩), hnext, settleModules]
  split <;> rfl

theorem ends_perform_iff_settle (h : Reaches arguments disk settings groups)
    (hv : arguments.verbose = false) {code : Nat} {after : Disk} :
    Ends (perform arguments) disk code after ↔
      Ends (settleModules arguments settings groups) disk code after := by
  obtain ⟨loaded, -, hrun⟩ := run_perform_eq h hv
  rw [Ends, hrun]
  rfl

theorem balks_perform_iff (h : Reaches arguments disk settings groups)
    (hv : arguments.verbose = false) :
    Balks (perform arguments) disk ↔ Balks (settleModules arguments settings groups) disk := by
  obtain ⟨loaded, -, hrun⟩ := run_perform_eq h hv
  rw [Balks, hrun]
  rfl

end Loaded

section Files

variable {disk : Disk} {choices : Choices} {start : Location} {settings : Settings}

theorem mem_of_projectFile? {folder : Location} {bytes : List UInt8}
    (h : projectFile? disk start = some (folder, bytes)) :
    folder ∈ Location.resolve disk.here start :: (Location.resolve disk.here start).ancestors := by
  obtain ⟨found, hfound, hread⟩ := Option.bind_eq_some_iff.mp h
  obtain ⟨own, -, he⟩ := Option.map_eq_some_iff.mp hread
  obtain ⟨rfl, -⟩ := Prod.mk.inj he
  exact List.mem_of_find?_eq_some hfound

/-- The settings are merged from some entries, for a folder at the start or above it. -/
theorem exists_merge_of_loadSettings (h : (run (loadSettings choices start) disk).1 = .ok settings) :
    ∃ folder table,
      folder ∈ Location.resolve disk.here start :: (Location.resolve disk.here start).ancestors ∧
      mergeSettings choices disk.here folder table = .ok settings := by
  rw [run_loadSettings] at h
  dsimp only at h
  cases hp : projectFile? disk start with
  | none =>
    rw [hp] at h
    exact ⟨_, _, List.mem_cons_self, h⟩
  | some file =>
    obtain ⟨folder, bytes⟩ := file
    simp only [hp] at h
    split at h
    · cases h
    · split at h
      · cases h
      · obtain ⟨table, -, hmerge⟩ := bind_eq_ok.mp h
        exact ⟨folder, table, mem_of_projectFile? hp, hmerge⟩

/-- The manifest of the settings is the chosen one, or else what the table names. -/
theorem manifest_of_mergeSettings {current folder : Location} {table : Data}
    (h : mergeSettings choices current folder table = .ok settings) :
    (choices.manifest.map fun l => .ok (some l)).getD (tableManifest current folder table) =
      .ok settings.manifest := by
  simp only [mergeSettings, bind_eq_ok] at h
  obtain ⟨entries, -, h⟩ := h
  cases hl : choices.manifest <;> cases hw : choices.workers <;>
    simp only [hl, hw, bind_eq_ok] at h <;>
    obtain ⟨found, hf, workers, -, options, -, checked, -, h⟩ := h <;>
    obtain rfl := Except.ok.inj h <;>
    exact hf

theorem proper_tableManifest {current folder manifest : Location} {table : Data}
    (hc : current.Proper) (hf : folder.Proper)
    (h : tableManifest current folder table = .ok (some manifest)) : manifest.Proper := by
  rw [tableManifest, bind_eq_ok] at h
  obtain ⟨entry, -, h⟩ := h
  cases entry with
  | none => simp [pure, Except.pure] at h
  | some data =>
    cases data with
    | text path =>
      dsimp only at h
      split at h
      · exact Option.some.inj (Except.ok.inj h) ▸ proper_ofText path
      · split at h
        · cases h
        · exact Option.some.inj (Except.ok.inj h) ▸ hc.resolve (hf.join (proper_ofText path))
    | _ => simp at h

theorem Loads.proper_manifest {arguments : Arguments} {manifest : Location}
    {components : List Component} (h : Loads arguments disk settings manifest components)
    (hd : disk.here.Proper) : manifest.Proper := by
  obtain ⟨kind, -, hload⟩ := h.load
  have hinput : (inputOf arguments).Proper := proper_ofText arguments.path
  have hstart : (startOf arguments kind).Proper := by
    unfold startOf
    split
    · exact hinput
    · exact hinput.parent
  generalize startOf arguments kind = start at hload hstart
  obtain ⟨folder, table, hm, hmerge⟩ := exists_merge_of_loadSettings hload
  have hfolder : folder.Proper := by
    rcases List.mem_cons.mp hm with rfl | hm
    · exact hd.resolve hstart
    · exact (hd.resolve hstart).ancestors _ hm
  have hmanifest := manifest_of_mergeSettings hmerge
  rw [h.named] at hmanifest
  cases hchoice : arguments.manifest with
  | none =>
    rw [choicesOf, hchoice] at hmanifest
    exact proper_tableManifest hd hfolder hmanifest
  | some path =>
    rw [choicesOf, hchoice] at hmanifest
    obtain rfl := Option.some.inj (Except.ok.inj hmanifest)
    exact proper_ofText path

/-- The file of a group is where one of the components was placed. -/
theorem exists_of_mem_groupByFile {current : Location} {base : Option Location}
    {components : List Component} {g : Group} (h : g ∈ groupByFile current base components) :
    ∃ cmp ∈ components, g.file = (placeComponent current base cmp).1 := by
  obtain ⟨cmp, hc, hf⟩ := mem_file_groupByFile.mp (List.mem_map_of_mem h)
  exact ⟨cmp, hc, hf.symm⟩

theorem proper_placeComponent {current base : Location} (hc : current.Proper) (hb : base.Proper)
    (cmp : Component) : (placeComponent current (some base) cmp).1.Proper := by
  have hl := proper_ofText cmp.sourcePath
  simp only [placeComponent]
  split
  · exact hl
  · exact hc.resolve (hb.join hl)

theorem isAbsolute_placeComponent (current base : Location) (cmp : Component) :
    (placeComponent current (some base) cmp).1.isAbsolute = true := by
  simp only [placeComponent]
  split
  · assumption
  · rfl

section Selected

variable {arguments : Arguments} {groups : List Group} {g : Group}

theorem Reaches.exists_of_mem (h : Reaches arguments disk settings groups) (hg : g ∈ groups) :
    ∃ manifest components cmp, Loads arguments disk settings manifest components ∧
      g.file = (placeComponent disk.here (some manifest.parent) cmp).1 := by
  obtain ⟨manifest, components, hload, -, rfl⟩ := h
  obtain ⟨cmp, -, hf⟩ := exists_of_mem_groupByFile (List.mem_of_mem_filter hg)
  exact ⟨manifest, components, cmp, hload, hf⟩

/-- The file of a selected module is read back from the text that names it. -/
theorem Reaches.proper (h : Reaches arguments disk settings groups) (hd : disk.here.Proper)
    (hg : g ∈ groups) : g.file.Proper := by
  obtain ⟨manifest, components, cmp, hload, hf⟩ := h.exists_of_mem hg
  exact hf ▸ proper_placeComponent hd (hload.proper_manifest hd).parent cmp

theorem Reaches.isAbsolute (h : Reaches arguments disk settings groups) (hg : g ∈ groups) :
    g.file.isAbsolute = true := by
  obtain ⟨manifest, components, cmp, -, hf⟩ := h.exists_of_mem hg
  exact hf ▸ isAbsolute_placeComponent disk.here manifest.parent cmp

end Selected

end Files

end CommandLine

end Hydration
