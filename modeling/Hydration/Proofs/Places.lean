import Hydration.Disk
import Hydration.Proofs.Success

/-! Places on a disk. A location leads to a place that its parts and the current folder determine, as
long as there are folders on the way. Changes to the disk leave its folders there, so a way that is
open stays open, and a file is written at one place while all other files stay as they are. -/

namespace Hydration.Disk

open Hydration.Path

def follow (place : List String) (segment : String) : List String :=
  if segment == ".." then place.dropLast else place ++ [segment]

/-- Where a location leads to when there are folders on all of the way. -/
def place (disk : Disk) (l : Location) : List String :=
  l.parts.foldl follow (if l.isAbsolute then [] else disk.current)

def file? (disk : Disk) (place : List String) : Option (List UInt8) :=
  match disk.node? place with
  | some (.file bytes) => some bytes
  | _ => none

section Ways

variable {disk : Disk} {l : Location} {key : List String} {bytes : List UInt8}

theorem file?_eq_some_iff : disk.file? key = some bytes ↔ disk.node? key = some (.file bytes) := by
  cases hn : disk.node? key with
  | none => simp [file?, hn]
  | some node => cases node <;> simp [file?, hn]

theorem step_eq_ok_iff {place next : List String} {segment : String} :
    disk.step place segment = .ok next ↔
      disk.node? place = some .folder ∧ follow place segment = next := by
  cases hn : disk.node? place with
  | none => simp [step, hn]
  | some node => cases node <;> simp [step, hn, follow]

theorem eq_foldl_of_foldlM {parts place next : List String}
    (h : parts.foldlM disk.step place = .ok next) : next = parts.foldl follow place := by
  induction parts generalizing place with
  | nil => exact (Except.ok.inj h).symm
  | cons segment parts ih =>
    rw [List.foldlM_cons, bind_eq_ok] at h
    obtain ⟨mid, hs, h⟩ := h
    rw [List.foldl_cons, (step_eq_ok_iff.mp hs).2]
    exact ih h

theorem eq_place_of_walk (h : disk.walk l = .ok key) : key = disk.place l := eq_foldl_of_foldlM h

theorem find_eq_ok_iff {node : Node} :
    disk.find l = .ok node ↔
      disk.walk l = .ok (disk.place l) ∧ disk.node? (disk.place l) = some node := by
  rw [find, bind_eq_ok]
  constructor
  · rintro ⟨key, hw, h⟩
    obtain rfl := eq_place_of_walk hw
    cases hn : disk.node? (disk.place l) with
    | none => simp [hn] at h
    | some other =>
      simp only [hn] at h
      exact ⟨hw, congrArg some (Except.ok.inj h)⟩
  · rintro ⟨hw, hn⟩
    exact ⟨_, hw, by rw [hn]; rfl⟩

theorem read_eq_ok_iff :
    disk.read l = .ok bytes ↔
      disk.walk l = .ok (disk.place l) ∧ disk.file? (disk.place l) = some bytes := by
  rw [read, bind_eq_ok, file?_eq_some_iff, ← find_eq_ok_iff]
  constructor
  · rintro ⟨node, hf, h⟩
    cases node with
    | folder => simp at h
    | file own =>
      obtain rfl := Except.ok.inj h
      exact hf
  · intro hf
    exact ⟨_, hf, rfl⟩

theorem look_eq_folder_iff : disk.look l = some .folder ↔ disk.find l = .ok .folder := by
  cases hf : disk.find l with
  | error trouble => simp [look, hf]
  | ok node => cases node <;> simp [look, hf]

theorem find_parent_of_walk {segment : String} {parts : List String}
    (hw : disk.walk { l with parts := parts ++ [segment] } = .ok key) :
    disk.find { l with parts } = .ok .folder := by
  rw [walk, List.foldlM_append, bind_eq_ok] at hw
  obtain ⟨mid, hm, h⟩ := hw
  rw [List.foldlM_cons, bind_eq_ok] at h
  obtain ⟨last, hs, -⟩ := h
  have hmid : mid = disk.place { l with parts } := eq_foldl_of_foldlM hm
  subst hmid
  exact find_eq_ok_iff.mpr ⟨hm, (step_eq_ok_iff.mp hs).1⟩

end Ways

/-- The later disk has all folders of the earlier one, and it is seen from the same folder. -/
structure Keeps (before after : Disk) : Prop where
  current : after.current = before.current
  folder : ∀ place, before.node? place = some .folder → after.node? place = some .folder

/-- Nothing but folders came into being. -/
structure Furnishes (before after : Disk) : Prop extends Keeps before after where
  file : ∀ place, after.file? place = before.file? place

section Changes

variable {before mid after : Disk} {l : Location}

theorem Keeps.refl (disk : Disk) : Keeps disk disk := ⟨rfl, fun _ h => h⟩

theorem Keeps.trans (h : Keeps before mid) (h' : Keeps mid after) : Keeps before after :=
  ⟨h'.current.trans h.current, fun p hp => h'.folder p (h.folder p hp)⟩

theorem Keeps.place_eq (h : Keeps before after) (l : Location) : after.place l = before.place l := by
  rw [place, place, h.current]

theorem Keeps.foldlM_step (h : Keeps before after) {parts place next : List String}
    (hw : parts.foldlM before.step place = .ok next) :
    parts.foldlM after.step place = .ok next := by
  induction parts generalizing place with
  | nil => exact hw
  | cons segment parts ih =>
    rw [List.foldlM_cons, bind_eq_ok] at hw ⊢
    obtain ⟨mid, hs, hw⟩ := hw
    obtain ⟨hn, he⟩ := step_eq_ok_iff.mp hs
    exact ⟨mid, step_eq_ok_iff.mpr ⟨h.folder _ hn, he⟩, ih hw⟩

theorem Keeps.walk (h : Keeps before after) {key : List String} (hw : before.walk l = .ok key) :
    after.walk l = .ok key := by
  rw [Disk.walk, h.current]
  exact h.foldlM_step hw

theorem Keeps.find_folder (h : Keeps before after) (hf : before.find l = .ok .folder) :
    after.find l = .ok .folder := by
  obtain ⟨hw, hn⟩ := find_eq_ok_iff.mp hf
  rw [find_eq_ok_iff, h.place_eq]
  exact ⟨h.walk hw, h.folder _ hn⟩

theorem Furnishes.refl (disk : Disk) : Furnishes disk disk := ⟨.refl disk, fun _ => rfl⟩

theorem Furnishes.trans (h : Furnishes before mid) (h' : Furnishes mid after) :
    Furnishes before after :=
  ⟨h.toKeeps.trans h'.toKeeps, fun p => (h'.file p).trans (h.file p)⟩

end Changes

section Put

variable {disk after : Disk} {key p : List String} {node : Node} {l : Location}

theorem lookup_setNode (nodes : List (List String × Node)) (key : List String) (node : Node)
    (p : List String) :
    (setNode nodes key node).lookup p = if p = key then some node else nodes.lookup p := by
  induction nodes with
  | nil =>
    by_cases h : p = key
    · simp [setNode, h]
    · have hne : (p == key) = false := by simpa using h
      simp [setNode, List.lookup_cons, h, hne]
  | cons entry nodes ih =>
    obtain ⟨k, n⟩ := entry
    by_cases hk : k = key
    · subst hk
      by_cases h : p = k
      · simp [setNode, h]
      · have hne : (p == k) = false := by simpa using h
        simp [setNode, List.lookup_cons, h, hne]
    · have hk' : (k == key) = false := by simpa using hk
      simp only [setNode, hk', Bool.false_eq_true, if_false, List.lookup_cons, ih]
      by_cases h : p = k
      · subst h
        simp [hk]
      · have hne : (p == k) = false := by simpa using h
        simp [hne]

theorem node?_put (hk : disk.node? key ≠ some .folder) (p : List String) :
    (disk.put key node).node? p = if p = key then some node else disk.node? p := by
  have hne : key ≠ [] := by
    rintro rfl
    exact hk rfl
  by_cases hp : p = []
  · subst hp
    simp [node?, hne.symm]
  · simp [node?, hp, put, lookup_setNode]

theorem keeps_put (hk : disk.node? key ≠ some .folder) : Keeps disk (disk.put key node) := by
  refine ⟨rfl, fun p hp => ?_⟩
  rw [node?_put hk, if_neg]
  · exact hp
  · rintro rfl
    exact hk hp

theorem furnishes_makeFolder (h : disk.makeFolder l = .ok after) :
    Furnishes disk after ∧ after.find l = .ok .folder := by
  rw [makeFolder, bind_eq_ok] at h
  obtain ⟨key, hw, h⟩ := h
  obtain rfl := eq_place_of_walk hw
  cases hn : disk.node? (disk.place l) with
  | some node => simp [hn] at h
  | none =>
    have hk : disk.node? (disk.place l) ≠ some .folder := by simp [hn]
    have hput : after = disk.put (disk.place l) .folder := by
      rw [hn] at h
      split at h <;> simp_all [pure, Except.pure]
    subst hput
    have hkeeps : Keeps disk (disk.put (disk.place l) .folder) := keeps_put hk
    refine ⟨⟨hkeeps, fun p => ?_⟩, ?_⟩
    · by_cases hp : p = disk.place l
      · subst hp
        simp [file?, node?_put hk, hn]
      · simp [file?, node?_put hk, hp]
    · rw [find_eq_ok_iff, hkeeps.place_eq]
      exact ⟨hkeeps.walk hw, by simp [node?_put hk]⟩

/-- A file can be written at the end of a way, in a folder and where no folder stands. -/
structure Ready (disk : Disk) (l : Location) : Prop where
  walk : disk.walk l = .ok (disk.place l)
  above : disk.node? (disk.place l).dropLast = some .folder
  free : disk.node? (disk.place l) ≠ some .folder

theorem write_eq_ok_iff {text : String} :
    disk.write l text = .ok after ↔
      Ready disk l ∧ after = disk.put (disk.place l) (.file (Text.encode text)) := by
  rw [write, bind_eq_ok]
  constructor
  · rintro ⟨key, hw, h⟩
    obtain rfl := eq_place_of_walk hw
    split at h
    · simp at h
    · rename_i habove hfree
      exact ⟨⟨hw, habove, hfree⟩, (Except.ok.inj h).symm⟩
    · simp at h
    · simp at h
  · rintro ⟨hr, rfl⟩
    refine ⟨_, hr.walk, ?_⟩
    rw [hr.above]
    cases hn : disk.node? (disk.place l) with
    | none => rfl
    | some node =>
      cases node with
      | folder => exact absurd hn hr.free
      | file bytes => rfl

theorem Ready.of_keeps {before after : Disk} (hr : Ready before l) (h : Keeps before after)
    (hf : after.node? (before.place l) ≠ some .folder) : Ready after l := by
  constructor
  · rw [h.place_eq]
    exact h.walk hr.walk
  · rw [h.place_eq]
    exact h.folder _ hr.above
  · rwa [h.place_eq]

end Put

def run {α : Type} (x : StateM Disk α) (disk : Disk) : α × Disk := x disk

theorem run_bind {α β : Type} (x : StateM Disk α) (f : α → StateM Disk β) (disk : Disk) :
    run (x >>= f) disk = run (f (run x disk).1) (run x disk).2 := rfl

@[simp] theorem run_pure {α : Type} (a : α) (disk : Disk) : run (pure a) disk = (a, disk) := rfl

section MakeFolders

variable {disk mid after : Disk} {l : Location}

theorem run_isFolder (l : Location) (disk : Disk) :
    run (isFolder l) disk = (decide (disk.find l = .ok .folder), disk) := by
  have h : (disk.look l == some .folder) = decide (disk.find l = .ok .folder) := by
    rw [Bool.eq_iff_iff, beq_iff_eq, decide_eq_true_iff, look_eq_folder_iff]
  rw [← h]
  rfl

theorem run_makeFolder_of_ok (h : disk.makeFolder l = .ok after) :
    run (FileAccess.makeFolder l) disk = (.ok (), after) := by
  simp [run, FileAccess.makeFolder, change, h]

theorem run_makeFolder_of_error {trouble : Trouble} (h : disk.makeFolder l = .error trouble) :
    run (FileAccess.makeFolder l) disk = (.error ⟨trouble, l.toText⟩, disk) := by
  simp [run, FileAccess.makeFolder, change, h]

/-- What becomes of a folder that was asked for: it stands in the end, and there are only new folders,
or it was refused and the disk has new folders at most. -/
def Made (l : Location) (disk : Disk) (outcome : Except FileError Unit × Disk) : Prop :=
  Furnishes disk outcome.2 ∧ (outcome.1 = .ok () → outcome.2.find l = .ok .folder)

theorem run_existing (h : disk.find l = .ok .folder) (e : FileError) :
    run (do if ← isFolder l then return .ok () else return .error e :
      StateM Disk (Except FileError Unit)) disk = (.ok (), disk) := by
  rw [run_bind, run_isFolder]
  simp only [h, decide_true, if_true, run_pure]

theorem made_existing (l : Location) (disk : Disk) (e : FileError) :
    Made l disk (run (do if ← isFolder l then return .ok () else return .error e) disk) := by
  by_cases h : disk.find l = .ok .folder
  · rw [run_existing h]
    exact ⟨.refl disk, fun _ => h⟩
  · rw [run_bind, run_isFolder]
    simp only [h, decide_false, Bool.false_eq_true, if_false]
    exact ⟨.refl disk, fun hr => absurd hr (by simp)⟩

theorem made_makeOne (l : Location) (disk : Disk) :
    Made l disk (run (makeFolderAt.makeOne l) disk) := by
  rw [makeFolderAt.makeOne, run_bind]
  cases hm : disk.makeFolder l with
  | ok after =>
    rw [run_makeFolder_of_ok hm]
    obtain ⟨hf, hl⟩ := furnishes_makeFolder hm
    exact ⟨hf, fun _ => hl⟩
  | error trouble =>
    rw [run_makeFolder_of_error hm]
    exact made_existing l disk _

theorem made_makeFolderAt (slashes : Nat) (parts : List String) (disk : Disk) :
    Made { slashes, parts := parts.reverse } disk (run (makeFolderAt slashes parts) disk) := by
  induction parts with
  | nil => exact made_makeOne _ disk
  | cons part above ih =>
    rw [makeFolderAt, run_bind]
    cases hm : disk.makeFolder { slashes, parts := (part :: above).reverse } with
    | ok after =>
      rw [run_makeFolder_of_ok hm]
      obtain ⟨hf, hl⟩ := furnishes_makeFolder hm
      exact ⟨hf, fun _ => hl⟩
    | error trouble =>
      rw [run_makeFolder_of_error hm]
      cases trouble with
      | noEntry =>
        -- The folder above is made first, which may bring new folders even when it is refused.
        dsimp only
        rw [run_bind]
        cases hr : run (makeFolderAt slashes above) disk with
        | mk result mid =>
          rw [hr] at ih
          cases result with
          | ok done =>
            obtain ⟨hf, hl⟩ := made_makeOne { slashes, parts := (part :: above).reverse } mid
            exact ⟨ih.1.trans hf, hl⟩
          | error e => exact ⟨ih.1, fun h => absurd h (by simp)⟩
      | «exists» => exact made_existing _ disk _
      | notFolder => exact made_existing _ disk _
      | isFolder => exact made_existing _ disk _
      | other number text => exact made_existing _ disk _

theorem made_makeFolders (l : Location) (disk : Disk) : Made l disk (run (makeFolders l) disk) := by
  have h := made_makeFolderAt l.slashes l.parts.reverse disk
  rwa [List.reverse_reverse] at h

theorem makeFolder_of_find (h : disk.find l = .ok .folder) :
    disk.makeFolder l = .error .exists := by
  obtain ⟨hw, hn⟩ := find_eq_ok_iff.mp h
  rw [makeFolder, hw]
  simp [bind, Except.bind, hn]

/-- There is nothing to do for a folder that exists. -/
theorem makeFolders_of_find (h : disk.find l = .ok .folder) :
    run (makeFolders l) disk = (.ok (), disk) := by
  obtain ⟨slashes, parts⟩ := l
  rw [makeFolders]
  cases hp : parts.reverse with
  | nil =>
    obtain rfl := List.reverse_eq_nil_iff.mp hp
    rw [makeFolderAt, makeFolderAt.makeOne, run_bind,
      run_makeFolder_of_error (makeFolder_of_find h)]
    exact run_existing h _
  | cons part above =>
    obtain rfl : parts = (part :: above).reverse := by rw [← hp, List.reverse_reverse]
    rw [makeFolderAt, run_bind, run_makeFolder_of_error (makeFolder_of_find h)]
    exact run_existing h _

end MakeFolders

end Hydration.Disk
