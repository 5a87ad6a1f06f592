import Hydration.Proofs.Containment
import Hydration.Proofs.Merging

/-! The precedence of settings. They depend on the choices and on the nearest project file only: what
stands further up changes nothing, even if the nearest file is malformed or holds no table of the
program. -/

namespace Hydration

open Hydration.Path Disk

/-- The bytes of the project file in a folder. -/
def projectBytes? (disk : Disk) (folder : Location) : Option (List UInt8) :=
  (disk.read (folder.child "pyproject.toml")).toOption

/-- The folder where a search starts and all above it, the nearest first. -/
def foldersFrom (disk : Disk) (start : Location) : List Location :=
  Location.resolve disk.here start :: (Location.resolve disk.here start).ancestors

/-- Each folder holds the same project file on both disks if there is none below it, and the machines
can follow the same texts. -/
structure SameNearest (disk other : Disk) (folders : List Location) : Prop where
  files : ∀ below folder above, folders = below ++ folder :: above →
    (∀ own ∈ below, projectBytes? disk own = none) →
      projectBytes? other folder = projectBytes? disk folder
  machine : other.overflows .toml = disk.overflows .toml

/-- The table that a text of a project file holds for the program: one without entries if the text is
malformed or says nothing of it. -/
inductive ProjectTable (text : String) : Data → Prop
  | malformed (h : Toml.parse text = .error .malformed) : ProjectTable text (.table [])
  | parsed {entries tool : Validation.Entries} (h : Toml.parse text = .ok entries)
      (ht : (entries.lookup "tool").getD (.table []) = .table tool) :
      ProjectTable text ((tool.lookup "hydrant").getD (.table []))

/-- The table that the settings are taken from, and the folder of its file. -/
inductive NearestTable (disk : Disk) (start : Location) : Location → Data → Prop
  | missing (h : ∀ folder ∈ foldersFrom disk start, projectBytes? disk folder = none) :
      NearestTable disk start (Location.resolve disk.here start) (.table [])
  | found {below above : List Location} {folder : Location} {bytes : List UInt8} {text : String}
      {table : Data} (hs : foldersFrom disk start = below ++ folder :: above)
      (hb : ∀ own ∈ below, projectBytes? disk own = none) (h : projectBytes? disk folder = some bytes)
      (ht : Text.readText bytes = .ok text) (ho : disk.overflows .toml text = false)
      (hd : ProjectTable text table) :
      NearestTable disk start folder table

theorem get?_eq_some_iff {data value : Data} {key : String} :
    data.get? key = some value ↔
      ∃ entries, data = .table entries ∧ entries.lookup key = some value := by
  cases data <;> simp [Data.get?]

theorem toolTable_eq_ok_iff {text : String} {table : Data} :
    toolTable text = .ok table ↔ ProjectTable text table := by
  constructor
  · intro h
    unfold toolTable at h
    split at h
    · obtain rfl := Except.ok.inj h
      exact .malformed ‹_›
    · cases h
    · split at h
      · obtain rfl := Except.ok.inj h
        exact .parsed ‹_› ‹_›
      · cases h
  · rintro (h | ⟨h, ht⟩)
    · rw [toolTable, h]
    · rw [toolTable, h]
      simp only [ht]

section Nearest

variable {disk other : Disk} {start : Location}

theorem hasProject_eq (disk : Disk) (folder : Location) :
    hasProject disk folder = (projectBytes? disk folder).isSome := by
  rw [hasProject, projectBytes?, Disk.look, Disk.read]
  cases disk.find (folder.child "pyproject.toml") with
  | error trouble => rfl
  | ok node => cases node <;> rfl

theorem projectFile?_eq (disk : Disk) (start : Location) :
    projectFile? disk start = (foldersFrom disk start).findSome? fun folder =>
      (projectBytes? disk folder).map fun bytes => (folder, bytes) := by
  rw [projectFile?, foldersFrom]
  generalize (Location.resolve disk.here start :: (Location.resolve disk.here start).ancestors) =
    folders
  induction folders with
  | nil => rfl
  | cons folder folders ih =>
    rw [List.find?_cons, hasProject_eq, List.findSome?_cons, ← ih]
    cases h : projectBytes? disk folder with
    | none => rfl
    | some bytes =>
      have hread : (disk.read (folder.child "pyproject.toml")).toOption = some bytes := h
      simp [hread]

theorem projectFile?_eq_none_iff :
    projectFile? disk start = none ↔
      ∀ folder ∈ foldersFrom disk start, projectBytes? disk folder = none := by
  simp [projectFile?_eq]

theorem projectFile?_eq_some_iff {folder : Location} {bytes : List UInt8} :
    projectFile? disk start = some (folder, bytes) ↔ ∃ below above,
      foldersFrom disk start = below ++ folder :: above ∧
        (∀ own ∈ below, projectBytes? disk own = none) ∧ projectBytes? disk folder = some bytes := by
  rw [projectFile?_eq, List.findSome?_eq_some_iff]
  constructor
  · rintro ⟨below, own, above, hs, ho, hb⟩
    obtain ⟨own', hbytes, he⟩ := Option.map_eq_some_iff.mp ho
    obtain ⟨rfl, rfl⟩ := Prod.mk.inj he
    exact ⟨below, above, hs, fun f hf => by simpa using hb f hf, hbytes⟩
  · rintro ⟨below, above, hs, hb, h⟩
    exact ⟨below, folder, above, hs, by simp [h], fun f hf => by simp [hb f hf]⟩

/-- A search does not look above the nearest project file. -/
theorem findSome?_projectBytes?_eq {folders : List Location}
    (h : ∀ below folder above, folders = below ++ folder :: above →
      (∀ own ∈ below, projectBytes? disk own = none) →
        projectBytes? other folder = projectBytes? disk folder) :
    (folders.findSome? fun folder => (projectBytes? other folder).map fun bytes => (folder, bytes)) =
      folders.findSome? fun folder => (projectBytes? disk folder).map fun bytes => (folder, bytes) := by
  induction folders with
  | nil => rfl
  | cons folder folders ih =>
    rw [List.findSome?_cons, List.findSome?_cons, h [] folder folders rfl (by simp)]
    cases hb : projectBytes? disk folder with
    | some bytes => rfl
    | none =>
      refine ih fun below own above hsplit hbelow => ?_
      refine h (folder :: below) own above (by rw [hsplit]; rfl) fun f hf => ?_
      rcases List.mem_cons.mp hf with rfl | hf
      · exact hb
      · exact hbelow f hf

theorem isAbsolute_of_mem_ancestors {l above : Location} (h : l.isAbsolute = true)
    (hm : above ∈ l.ancestors) : above.isAbsolute = true := by
  have hslashes (parts : List String) :
      ∀ own ∈ Location.ancestorsOf l.slashes parts, own.slashes = l.slashes := by
    induction parts with
    | nil => simp [Location.ancestorsOf]
    | cons part parts ih => simpa [Location.ancestorsOf] using ih
  simpa [Location.isAbsolute, hslashes _ above hm] using h

theorem isAbsolute_of_projectFile? {folder : Location} {bytes : List UInt8}
    (h : projectFile? disk start = some (folder, bytes)) : folder.isAbsolute = true := by
  obtain ⟨below, above, hs, -⟩ := projectFile?_eq_some_iff.mp h
  have hm : folder ∈ foldersFrom disk start := by simp [hs]
  rcases List.mem_cons.mp hm with rfl | hm
  · rfl
  · exact isAbsolute_of_mem_ancestors rfl hm

end Nearest

namespace CommandLine

section Loading

variable {choices : Choices} {disk other : Disk} {start : Location}

/-- The settings that are loaded prevail with the nearest table, which is not misread. -/
theorem loadSettings_eq_ok {settings : Settings} :
    (run (loadSettings choices start) disk).1 = .ok settings ↔
      ∃ folder table, NearestTable disk start folder table ∧ ¬ table.Misread choices ∧
        Prevails choices folder table settings := by
  rw [run_loadSettings]
  dsimp only
  cases hp : projectFile? disk start with
  | none =>
    refine (mergeSettings_eq_ok rfl).trans ?_
    constructor
    · exact fun h => ⟨_, _, .missing (projectFile?_eq_none_iff.mp hp), h⟩
    · rintro ⟨folder, table, hn | ⟨hs, hb, hf, -, -, -⟩, h⟩
      · exact h
      · cases hp.symm.trans (projectFile?_eq_some_iff.mpr ⟨_, _, hs, hb, hf⟩)
  | some file =>
    obtain ⟨folder, bytes⟩ := file
    have hfolder := isAbsolute_of_projectFile? hp
    dsimp only
    constructor
    · intro h
      split at h
      · cases h
      · split at h
        · cases h
        · rename_i ho
          obtain ⟨table, ht, hm⟩ := bind_eq_ok.mp h
          obtain ⟨below, above, hs, hb, hf⟩ := projectFile?_eq_some_iff.mp hp
          exact ⟨folder, table, .found hs hb hf ‹_› (Bool.eq_false_iff.mpr ho)
            (toolTable_eq_ok_iff.mp ht), (mergeSettings_eq_ok hfolder).mp hm⟩
    · rintro ⟨own, table, hn | ⟨hs, hb, hf, ht, ho, hd⟩, h⟩
      · cases hp.symm.trans (projectFile?_eq_none_iff.mpr hn)
      · have hown := projectFile?_eq_some_iff.mpr ⟨_, _, hs, hb, hf⟩
        obtain ⟨rfl, rfl⟩ := Prod.mk.inj (Option.some.inj (hp.symm.trans hown))
        simp only [ht, ho]
        exact bind_eq_ok.mpr ⟨table, toolTable_eq_ok_iff.mpr hd, (mergeSettings_eq_ok hfolder).mpr h⟩

/-- Loading looks at the folder where it starts and at the nearest project file. -/
theorem loadSettings_congr {elsewhere : Location}
    (hs : Location.resolve other.here elsewhere = Location.resolve disk.here start)
    (hn : SameNearest disk other (foldersFrom disk start)) :
    (run (loadSettings choices elsewhere) other).1 = (run (loadSettings choices start) disk).1 := by
  have hfile : projectFile? other elsewhere = projectFile? disk start := by
    have hfolders : foldersFrom other elsewhere = foldersFrom disk start := by
      rw [foldersFrom, hs, foldersFrom]
    rw [projectFile?_eq, projectFile?_eq, hfolders]
    exact findSome?_projectBytes?_eq hn.files
  rw [run_loadSettings, run_loadSettings, hfile, hs]
  dsimp only
  cases hp : projectFile? disk start with
  | none => exact mergeSettings_of_isAbsolute rfl _ _
  | some file =>
    obtain ⟨folder, bytes⟩ := file
    have hfolder := isAbsolute_of_projectFile? hp
    dsimp only
    cases Text.readText bytes with
    | error e => rfl
    | ok text =>
      have hsettings : settingsOf choices other.here folder text =
          settingsOf choices disk.here folder text :=
        congrArg (toolTable text >>= ·) (funext fun table => mergeSettings_of_isAbsolute hfolder _ _)
      simp only [hn.machine, hsettings]

end Loading

/-- Loading gives the settings in which choices go before the table of the nearest project file, and
that goes before the defaults. With the same choices and the same start, another disk leads to the same
if the nearest project file is the same there. -/
theorem settings_precedence (choices : Choices) (start : Location) (disk : Disk) :
    (∀ settings, (run (loadSettings choices start) disk).1 = .ok settings ↔
      ∃ folder table, NearestTable disk start folder table ∧ ¬ table.Misread choices ∧
        Prevails choices folder table settings) ∧
    ∀ other elsewhere, Location.resolve other.here elsewhere = Location.resolve disk.here start →
      SameNearest disk other (foldersFrom disk start) →
      (run (loadSettings choices elsewhere) other).1 = (run (loadSettings choices start) disk).1 :=
  ⟨fun _ => loadSettings_eq_ok, fun _ _ => loadSettings_congr⟩

/-- A folder with a project file, and one above it. -/
def nestedDisk (above nearest : String) : Disk where
  nodes := [(["a"], .folder), (["a", "pyproject.toml"], .file (Text.encode nearest)),
    (["pyproject.toml"], .file (Text.encode above))]

def nestedFolder : Location := { slashes := 1, parts := ["a"] }

theorem foldersFrom_nestedDisk (above nearest : String) :
    foldersFrom (nestedDisk above nearest) nestedFolder = [nestedFolder, { slashes := 1 }] := by
  rfl

theorem projectBytes?_nestedDisk (above nearest : String) :
    projectBytes? (nestedDisk above nearest) nestedFolder = some (Text.encode nearest) := by
  have hchild : nestedFolder.child "pyproject.toml" =
      { slashes := 1, parts := ["a", "pyproject.toml"] } := by decide
  rw [projectBytes?, hchild]
  rfl

theorem nearestTable_nestedDisk {above nearest : String} {table : Data}
    (ht : (Text.readText (Text.encode nearest)).toOption = some nearest)
    (hd : ProjectTable nearest table) :
    NearestTable (nestedDisk above nearest) nestedFolder nestedFolder table := by
  have hfolders : foldersFrom (nestedDisk above nearest) nestedFolder =
      [] ++ nestedFolder :: [{ slashes := 1 }] := foldersFrom_nestedDisk above nearest
  exact .found hfolders (by simp) (projectBytes?_nestedDisk above nearest) (toOption_eq_some.mp ht)
    rfl hd

/-- A malformed file, above which another may stand, and one that names a manifest. -/
theorem settings_precedence_of_nested :
    (run (loadSettings {} nestedFolder) (nestedDisk "[tool.hydrant]\nmax_workers = 7\n" "x")).1 =
      (run (loadSettings {} nestedFolder) (nestedDisk "" "x")).1 ∧
    (run (loadSettings { workers := some (.whole 2) } nestedFolder)
      (nestedDisk "" "[tool.hydrant]\nmanifest = 'm.json'\n")).1 =
        .ok { manifest := some { slashes := 1, parts := ["a", "m.json"] }, workers := 2 } := by
  constructor
  · refine (settings_precedence {} nestedFolder (nestedDisk "" "x")).2 _ _ rfl ⟨?_, rfl⟩
    intro below folder above hs hb
    rw [foldersFrom_nestedDisk] at hs
    cases below with
    | nil =>
      obtain ⟨rfl, -⟩ := List.cons.inj hs
      rw [projectBytes?_nestedDisk, projectBytes?_nestedDisk]
    | cons own below =>
      obtain ⟨rfl, -⟩ := List.cons.inj hs
      have hnone := hb nestedFolder List.mem_cons_self
      rw [projectBytes?_nestedDisk] at hnone
      cases hnone
  · have hfacts : ((Toml.parse "[tool.hydrant]\nmanifest = 'm.json'\n").toOption.bind fun entries =>
        ((Data.table entries).get? "tool").bind fun tool => (tool.get? "hydrant").map fun table =>
          ((table.get? "manifest").map (isText "m.json"),
            optionKeys.all fun key => (table.get? key).isNone)) = some (some true, true) := by
      decide +kernel
    obtain ⟨entries, hparse, hfacts⟩ := Option.bind_eq_some_iff.mp hfacts
    obtain ⟨tool, htool, hfacts⟩ := Option.bind_eq_some_iff.mp hfacts
    obtain ⟨table, htable, hfacts⟩ := Option.map_eq_some_iff.mp hfacts
    obtain ⟨hmanifest, hoptions⟩ := Prod.mk.inj hfacts
    obtain ⟨data, hdata, htext⟩ := Option.map_eq_some_iff.mp hmanifest
    obtain rfl := isText_iff.mp htext
    have hnone (key : String) (hk : key ∈ optionKeys) : table.get? key = none := by
      simpa using List.all_eq_true.mp hoptions key hk
    obtain ⟨tools, rfl, hown⟩ := get?_eq_some_iff.mp htable
    obtain ⟨own, rfl, -⟩ := get?_eq_some_iff.mp hdata
    have htool : (entries.lookup "tool").getD (.table []) = .table tools := by
      rw [show entries.lookup "tool" = some (.table tools) from htool, Option.getD_some]
    have hd : ProjectTable _ ((tools.lookup "hydrant").getD (.table [])) :=
      .parsed (toOption_eq_some.mp hparse) htool
    rw [hown, Option.getD_some] at hd
    refine ((settings_precedence _ _ _).1 _).mpr
      ⟨nestedFolder, .table own, nearestTable_nestedDisk (by decide +kernel) hd, ?_, ?_, ?_, ?_⟩
    · refine not_misread_iff.mpr ⟨fun _ _ => id, fun _ => ⟨id, fun others data he hd => ?_⟩, nofun⟩
      obtain rfl := Data.table.inj he
      exact ⟨_, Option.some.inj (hd.symm.trans hdata)⟩
    · constructor <;> first | rfl | (rw [hnone _ (by decide)]; rfl)
    · rw [hdata]
      exact ⟨"m.json", rfl, by decide⟩
    · exact ⟨rfl, by decide⟩

end CommandLine

end Hydration
