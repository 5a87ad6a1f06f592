import Hydration.Proofs.Display
import Hydration.Proofs.Locations

/-! Results that are written one after another. In the end each place holds the last text that was
written to it, and all other files are as they were. Writing comes to its end when every place lies in
a folder that is there from the start. -/

namespace Hydration.CommandLine

open Hydration.Path Disk

section Single

variable {disk mid after : Disk} {l : Location} {text : String}

/-- What writing a text brings about: it stands at its place, the way to it is open, and all other
files are as they were. -/
structure Wrote (disk : Disk) (l : Location) (text : String) (after : Disk) : Prop where
  keeps : Keeps disk after
  walk : after.walk l = .ok (disk.place l)
  file : ∀ p, after.file? p = if p = disk.place l then some (Text.encode text) else disk.file? p

theorem wrote_put (hr : Ready disk l) (text : String) :
    Wrote disk l text (disk.put (disk.place l) (.file (Text.encode text))) := by
  have hkeeps : Keeps disk (disk.put (disk.place l) (.file (Text.encode text))) := keeps_put hr.free
  refine ⟨hkeeps, hkeeps.walk hr.walk, fun p => ?_⟩
  by_cases hp : p = disk.place l
  · simp [file?, node?_put hr.free, hp]
  · simp [file?, node?_put hr.free, hp]

theorem run_write_eq_ok_iff : run (do return (← FileAccess.write l text).mapError .file :
    StateM Disk (Except Escaped Unit)) disk = (.ok (), after) ↔ disk.write l text = .ok after := by
  have hwrite : run (FileAccess.write l text) disk =
      run (change l fun disk => disk.write l text) disk := rfl
  rw [run_bind, run_pure, hwrite]
  cases hw : disk.write l text <;> simp [run, change, hw, Except.mapError]

theorem writeModule_eq_ok_iff :
    run (writeModule l text) disk = (.ok (), after) ↔ l.hasNull = false ∧
      ∃ mid, run (makeFolders l.parent) disk = (.ok (), mid) ∧ Ready mid l ∧
        after = mid.put (mid.place l) (.file (Text.encode text)) := by
  cases hl : l.hasNull with
  | true => simp [writeModule, hl]
  | false =>
    rw [writeModule, hl, and_iff_right rfl]
    simp only [Bool.false_eq_true, if_false]
    rw [run_bind]
    cases hm : run (makeFolders l.parent) disk with
    | mk result mid =>
      cases result with
      | error e => simp
      | ok done =>
        dsimp only
        rw [run_write_eq_ok_iff, write_eq_ok_iff]
        simp

theorem wrote_of_writeModule (h : run (writeModule l text) disk = (.ok (), after)) :
    Wrote disk l text after := by
  obtain ⟨-, mid, hm, hr, rfl⟩ := writeModule_eq_ok_iff.mp h
  obtain ⟨hf, -⟩ := made_makeFolders l.parent disk
  rw [hm] at hf
  obtain ⟨hkeeps, hwalk, hfile⟩ := wrote_put hr text
  have hplace : mid.place l = disk.place l := hf.place_eq l
  refine ⟨hf.toKeeps.trans hkeeps, hplace ▸ hwalk, fun p => ?_⟩
  rw [hfile, hplace, hf.file]

theorem Wrote.read (h : Wrote disk l text after) : after.read l = .ok (Text.encode text) := by
  rw [read_eq_ok_iff, h.keeps.place_eq, h.file, if_pos rfl]
  exact ⟨h.walk, rfl⟩

end Single

section LastText

variable {place : Location → List String} {p : List String} {l : Location} {text : String}
  {results back : List (Location × String)}

/-- The last text in a list of results that goes to a place. -/
def lastText (place : Location → List String) (p : List String) :
    List (Location × String) → Option String
  | [] => none
  | (l, text) :: rest => (lastText place p rest).or (if place l = p then some text else none)

theorem lastText_eq_none_iff : lastText place p results = none ↔ ∀ x ∈ results, place x.1 ≠ p := by
  induction results with
  | nil => simp [lastText]
  | cons x results ih =>
    obtain ⟨l, text⟩ := x
    by_cases hl : place l = p
    · simp [lastText, hl]
    · simp [lastText, hl, ih]

theorem exists_of_lastText (h : lastText place p results = some text) :
    ∃ l, (l, text) ∈ results ∧ place l = p := by
  induction results with
  | nil => simp [lastText] at h
  | cons x results ih =>
    rw [lastText, Option.or_eq_some_iff] at h
    rcases h with h | ⟨-, h⟩
    · obtain ⟨l, hm, hl⟩ := ih h
      exact ⟨l, List.mem_cons_of_mem _ hm, hl⟩
    · obtain ⟨hl, he⟩ := Option.ite_none_right_eq_some.mp h
      exact ⟨x.1, Option.some.inj he ▸ List.mem_cons_self, hl⟩

theorem lastText_append (front : List (Location × String)) :
    lastText place p (front ++ back) = (lastText place p back).or (lastText place p front) := by
  induction front with
  | nil => simp [lastText]
  | cons x front ih =>
    obtain ⟨l, text⟩ := x
    rw [List.cons_append, lastText, lastText, ih, Option.or_assoc]

theorem lastText_of_last (front : List (Location × String))
    (hback : ∀ x ∈ back, place x.1 ≠ place l) :
    lastText place (place l) (front ++ (l, text) :: back) = some text := by
  simp [lastText_append, lastText, lastText_eq_none_iff.mpr hback]

theorem lastText_of_nodup (hn : (results.map fun x => place x.1).Nodup)
    (hm : (l, text) ∈ results) : lastText place (place l) results = some text := by
  obtain ⟨front, back, rfl⟩ := List.append_of_mem hm
  refine lastText_of_last front fun x hx he => ?_
  rw [List.map_append, List.map_cons, List.nodup_append] at hn
  exact (List.nodup_cons.mp hn.2.1).1 (he ▸ List.mem_map_of_mem hx)

end LastText

/-- Results written one after another. -/
inductive Written : Disk → List (Location × String) → Disk → Prop
  | nil (disk : Disk) : Written disk [] disk
  | cons {disk mid after : Disk} {l : Location} {text : String} {rest : List (Location × String)}
      (h : run (writeModule l text) disk = (.ok (), mid)) (hrest : Written mid rest after) :
      Written disk ((l, text) :: rest) after

section Row

variable {disk after : Disk} {l : Location} {text : String} {results : List (Location × String)}

theorem Written.keeps (h : Written disk results after) : Keeps disk after := by
  induction h with
  | nil disk => exact .refl disk
  | cons h hrest ih => exact (wrote_of_writeModule h).keeps.trans ih

theorem Written.walk (h : Written disk results after) (hm : (l, text) ∈ results) :
    after.walk l = .ok (disk.place l) := by
  induction h with
  | nil disk => simp at hm
  | cons h hrest ih =>
    have hw := wrote_of_writeModule h
    rcases List.mem_cons.mp hm with he | hm
    · obtain ⟨rfl, rfl⟩ := Prod.mk.inj he
      exact hrest.keeps.walk hw.walk
    · rw [ih hm, hw.keeps.place_eq]

/-- Each place holds the last text that was written to it. -/
theorem Written.file? (h : Written disk results after) (p : List String) :
    after.file? p = ((lastText disk.place p results).map Text.encode).or (disk.file? p) := by
  induction h with
  | nil disk => simp [lastText]
  | @cons disk mid after l text rest h hrest ih =>
    have hw := wrote_of_writeModule h
    have hplace : mid.place = disk.place := funext hw.keeps.place_eq
    rw [ih, hw.file, hplace, lastText]
    by_cases hp : p = disk.place l
    · cases lastText disk.place p rest <;> simp [hp]
    · cases lastText disk.place p rest <;> simp [hp, Ne.symm hp]

theorem Written.read (h : Written disk results after) (hm : (l, text) ∈ results) {last : String}
    (hl : lastText disk.place (disk.place l) results = some last) :
    after.read l = .ok (Text.encode last) := by
  rw [read_eq_ok_iff, h.keeps.place_eq, h.file?, hl]
  exact ⟨h.walk hm, rfl⟩

/-- A result can be written: its folder stands, or can be made, and nothing is in its way. -/
def Writable (disk : Disk) (l : Location) : Prop := (run (writeModule l "") disk).1 = .ok ()

theorem exists_of_writable (h : Writable disk l) : l.hasNull = false ∧
    ∃ mid, run (makeFolders l.parent) disk = (.ok (), mid) ∧ Ready mid l := by
  cases hr : run (writeModule l "") disk with
  | mk result after =>
    have hok : result = .ok () := by simpa [Writable, hr] using h
    subst hok
    obtain ⟨hl, mid, hm, hready, -⟩ := writeModule_eq_ok_iff.mp hr
    exact ⟨hl, mid, hm, hready⟩

theorem ready_of_writable (h : Writable disk l) (hf : disk.find l.parent = .ok .folder) :
    Ready disk l := by
  obtain ⟨-, mid, hm, hready⟩ := exists_of_writable h
  rw [makeFolders_of_find hf] at hm
  obtain ⟨-, rfl⟩ := Prod.mk.inj hm
  exact hready

/-- When all folders stand and nothing is in the way, all results can be written. -/
theorem exists_written_of_ready (h : ∀ x ∈ results,
      x.1.hasNull = false ∧ disk.find x.1.parent = .ok .folder ∧ Ready disk x.1) :
    ∃ after, Written disk results after := by
  induction results generalizing disk with
  | nil => exact ⟨disk, .nil disk⟩
  | cons x results ih =>
    obtain ⟨l, text⟩ := x
    obtain ⟨hl, hf, hr⟩ := h (l, text) List.mem_cons_self
    have hkeeps : Keeps disk (disk.put (disk.place l) (.file (Text.encode text))) := keeps_put hr.free
    have hwrite : run (writeModule l text) disk =
        (.ok (), disk.put (disk.place l) (.file (Text.encode text))) :=
      writeModule_eq_ok_iff.mpr ⟨hl, disk, makeFolders_of_find hf, hr, rfl⟩
    -- What was written is a file, so it stands in no way.
    have hrest : ∀ x ∈ results, x.1.hasNull = false ∧
        (disk.put (disk.place l) (.file (Text.encode text))).find x.1.parent = .ok .folder ∧
          Ready (disk.put (disk.place l) (.file (Text.encode text))) x.1 := by
      intro x hx
      obtain ⟨hxl, hxf, hxr⟩ := h x (List.mem_cons_of_mem _ hx)
      refine ⟨hxl, hkeeps.find_folder hxf, hxr.of_keeps hkeeps ?_⟩
      rw [node?_put hr.free]
      split
      · simp
      · exact hxr.free
    obtain ⟨after, ha⟩ := ih hrest
    exact ⟨after, .cons hwrite ha⟩

/-- Results for one folder can be written if each of them can be written first. -/
theorem exists_written_of_folder (folder : Location)
    (h : ∀ x ∈ results, x.1.parent = folder ∧ Writable disk x.1) :
    ∃ after, Written disk results after := by
  cases results with
  | nil => exact ⟨disk, .nil disk⟩
  | cons x results =>
    obtain ⟨l, text⟩ := x
    obtain ⟨hp, hw⟩ := h (l, text) List.mem_cons_self
    obtain ⟨hl, mid, hm, -⟩ := exists_of_writable hw
    have hf : mid.find folder = .ok .folder := by
      obtain ⟨-, hfind⟩ := made_makeFolders l.parent disk
      rw [hm, hp] at hfind
      exact hfind rfl
    -- From here on the folder stands, and the first result is written as if it always had.
    have hall : ∀ x ∈ (l, text) :: results,
        x.1.hasNull = false ∧ mid.find x.1.parent = .ok .folder ∧ Ready mid x.1 := by
      intro x hx
      obtain ⟨hxp, hxw⟩ := h x hx
      obtain ⟨hxl, other, ho, hready⟩ := exists_of_writable hxw
      rw [hxp, ← hp, hm] at ho
      obtain ⟨-, rfl⟩ := Prod.mk.inj ho
      exact ⟨hxl, hxp ▸ hf, hready⟩
    obtain ⟨after, ha⟩ := exists_written_of_ready hall
    cases ha with
    | cons hfirst hrest =>
      obtain ⟨-, same, hs, hready, rfl⟩ := writeModule_eq_ok_iff.mp hfirst
      rw [hp, makeFolders_of_find hf] at hs
      obtain ⟨-, rfl⟩ := Prod.mk.inj hs
      exact ⟨after, .cons (writeModule_eq_ok_iff.mpr ⟨hl, mid, hm, hready, rfl⟩) hrest⟩

end Row

section Jobs

variable {β : Type} {verbose : Bool} {disk after : Disk} {folder : Option Location}
  {items : List (Job × Option String)}

def sourceOf (job : Job) : Location := Location.ofText (job.file.getD "")

/-- What follows from each job that is answered with a text. -/
def answered (f : Job → String → β) (items : List (Job × Option String)) : List β :=
  items.filterMap fun item => item.2.map (f item.1)

/-- The texts of the jobs that have one, each with the place that it goes to. -/
def deliveries (folder : Option Location) : List (Job × Option String) → List (Location × String) :=
  answered fun job text => (outputPlace (sourceOf job) folder, text)

/-- What is shown when these texts are written. -/
def announcements (folder : Option Location) : List (Job × Option String) → List Event :=
  answered fun job _ =>
    say .success (hydratedMessage (job.file.getD "") (outputPlace (sourceOf job) folder))

theorem tablesOf_announcements (folder : Option Location) (items : List (Job × Option String)) :
    tablesOf (announcements folder items) = [] := by
  induction items with
  | nil => rfl
  | cons item items ih =>
    obtain ⟨job, text⟩ := item
    cases text <;> exact ih

theorem run_writeModules_of_ok {mid : Disk} {job : Job} {text : String}
    (h : run (writeModule (outputPlace (sourceOf job) folder) text) disk = (.ok (), mid)) :
    let event := say .success
      (hydratedMessage (job.file.getD "") (outputPlace (sourceOf job) folder))
    run (writeModules verbose folder ((job, some text) :: items)) disk =
      match event.fault? verbose with
      | some e => ((abandon [] (.markup e), 0), mid)
      | none =>
        let rest := run (writeModules verbose folder items) mid
        ((prepend [event] rest.1.1, rest.1.2 + 1), rest.2) := by
  intro event
  rw [sourceOf] at h
  rw [writeModules, run_bind, h]
  change run (match event.fault? verbose with
    | some e => _
    | none => _) mid = _
  cases event.fault? verbose <;> rfl

theorem run_writeModules_of_error {mid : Disk} {job : Job} {text : String} {e : Escaped}
    (h : run (writeModule (outputPlace (sourceOf job) folder) text) disk = (.error e, mid)) :
    run (writeModules verbose folder ((job, some text) :: items)) disk =
      ((abandon [] e, 0), mid) := by
  rw [sourceOf] at h
  rw [writeModules, run_bind, h]
  rfl

/-- What is shown when all results were written: a record for each. -/
theorem run_writeModules_of_written (h : Written disk (deliveries folder items) after)
    (hs : Shows verbose (announcements folder items)) :
    run (writeModules verbose folder items) disk =
      ((finish (announcements folder items) 0, (deliveries folder items).length), after) := by
  induction items generalizing disk with
  | nil =>
    cases h
    rfl
  | cons item items ih =>
    obtain ⟨job, text⟩ := item
    cases text with
    | none => exact ih h hs
    | some text =>
      obtain ⟨hevent, hs⟩ := shows_cons.mp hs
      cases h with
      | cons hw hrest =>
        rw [run_writeModules_of_ok hw, hevent, ih hrest hs]
        rfl

/-- When one of these records cannot be shown, the run ends once its text is written. -/
theorem run_writeModules_of_unshown (h : Written disk (deliveries folder items) after)
    (hs : ¬ Shows verbose (announcements folder items)) :
    ∃ e, (run (writeModules verbose folder items) disk).1.1.result = .error (.markup e) := by
  induction items generalizing disk with
  | nil => exact absurd shows_nil hs
  | cons item items ih =>
    obtain ⟨job, text⟩ := item
    cases text with
    | none => exact ih h hs
    | some text =>
      cases h with
      | cons hw hrest =>
        rw [run_writeModules_of_ok hw]
        dsimp only
        split
        · exact ⟨_, rfl⟩
        · rename_i hevent
          exact ih hrest fun hrest => hs (shows_cons.mpr ⟨hevent, hrest⟩)

theorem written_of_run_writeModules {code : Nat}
    (h : (run (writeModules verbose folder items) disk).1.1.result = .ok code) :
    Written disk (deliveries folder items) (run (writeModules verbose folder items) disk).2 ∧
      Shows verbose (announcements folder items) := by
  induction items generalizing disk with
  | nil => exact ⟨.nil disk, shows_nil⟩
  | cons item items ih =>
    obtain ⟨job, text⟩ := item
    cases text with
    | none => exact ih h
    | some text =>
      cases hw : run (writeModule (outputPlace (sourceOf job) folder) text) disk with
      | mk result mid =>
        cases result with
        | error e =>
          rw [run_writeModules_of_error hw] at h
          simp [abandon] at h
        | ok done =>
          rw [run_writeModules_of_ok hw] at h ⊢
          dsimp only at h ⊢
          split at h
          · simp [abandon] at h
          · rename_i hevent
            obtain ⟨hwritten, hshows⟩ := ih h
            exact ⟨.cons hw hwritten, shows_cons.mpr ⟨hevent, hshows⟩⟩

end Jobs

end Hydration.CommandLine
