import Hydration.Proofs.Hydrating
import Mathlib.Data.List.TakeWhile

/-! Where the results of a run go. Up to the first module that fails every module with a text is
written, in the order of the groups, unless a module could not be opened. A destination that several
modules share holds the text of the last of them, although the run tells of success. -/

namespace Hydration

open Hydration.Path Disk

def Job.clean (options : Options) (job : Job) : Bool :=
  !(job.block options).any Diagnostic.isError

theorem Job.clean_iff {options : Options} {job : Job} :
    job.clean options = true ↔ ¬ job.Errs options := by
  simp [Job.clean, Job.Errs]

namespace Group

def clean (disk : Disk) (options : Options) (g : Group) : Bool :=
  (g.job? disk).all (Job.clean options)

/-- Where the text of a module is written. -/
def destination (folder : Option Location) (g : Group) : Location :=
  CommandLine.outputPlace g.file folder

def result? (disk : Disk) (options : Options) (folder : Option Location) (g : Group) :
    Option (Location × String) :=
  (g.text? disk options).map fun text => (g.destination folder, text)

theorem clean_iff {disk : Disk} {options : Options} {g : Group} :
    g.clean disk options = true ↔ ¬ g.Fails disk options := by
  cases hj : g.job? disk with
  | none => simp [clean, Fails, hj]
  | some job => simp [clean, Fails, hj, Job.clean_iff, Job.errs_iff]

end Group

namespace CommandLine

section Results

variable {β : Type} {disk : Disk} {options : Options} {folder : Option Location} {build : Build}
  {jobs : List Job} {groups : List Group}

/-- What follows from a job that has a text in a build of its own. -/
def outcome? (options : Options) (f : Job → String → β) (job : Job) : Option β :=
  (job.alone options).2.map (f job)

/-- Jobs are answered up to the first that records an error, as long as none was known before. -/
theorem answered_runJobs (f : Job → String → β) (ha : build.abort = false) :
    answered f (jobs.zip (build.runJobs options jobs).2) =
      if build.hasErrors then []
      else (jobs.takeWhile (Job.clean options)).filterMap (outcome? options f) := by
  -- The rest starts with a build that has errors if it had some before or the job records one.
  induction jobs generalizing build with
  | nil => simp [answered]
  | cons job jobs ih =>
    have hrest := ih (Build.runJob_abort options job ha)
    rw [Build.hasErrors, Build.runJob_sink ha] at hrest
    rw [Build.runJobs_cons, List.zip_cons_cons, answered]
    by_cases he : (build.sink.extend (job.block options)).hasErrors = true
    · have htext := Build.runJob_text_of_errors ha he
      rw [List.filterMap_cons_none (by simp [htext]), ← answered, hrest, if_pos he]
      rcases Sink.hasErrors_extend_iff.mp he with hb | herrs
      · rw [Build.hasErrors, if_pos hb]
      · have hc : ¬ job.clean options = true := fun hc => Job.clean_iff.mp hc herrs
        rw [List.takeWhile_cons_of_neg hc, List.filterMap_nil, ite_self]
    · have hb : ¬ build.hasErrors = true := fun hb =>
        he (Sink.hasErrors_extend_iff.mpr (.inl hb))
      have hc : job.clean options = true :=
        Job.clean_iff.mpr fun herrs => he (Sink.hasErrors_extend_iff.mpr (.inr herrs))
      have htext : (build.runJob options job).2 = (job.alone options).2 := by
        rw [Build.runJob_of_clean ha (by simpa using he)]
      rw [if_neg he] at hrest
      rw [if_neg hb, List.takeWhile_cons_of_pos hc, htext]
      cases ht : (job.alone options).2 with
      | none =>
        rw [List.filterMap_cons_none (by simp), ← answered, hrest,
          List.filterMap_cons_none (by simp [outcome?, ht])]
      | some text =>
        rw [List.filterMap_cons_some (b := f job text) (by simp), ← answered, hrest,
          List.filterMap_cons_some (b := f job text) (by simp [outcome?, ht])]

theorem sourceOf_of_job? {g : Group} {job : Job} (hp : g.file.Proper) (hj : g.job? disk = some job) :
    sourceOf job = g.file := by
  rw [sourceOf, Group.file_of_job? hj]
  exact Location.ofText_toText hp

theorem takeWhile_jobsOf (disk : Disk) (options : Options) (groups : List Group) :
    (jobsOf disk groups).takeWhile (Job.clean options) =
      (groups.takeWhile (Group.clean disk options)).filterMap (Group.job? disk) :=
  List.takeWhile_filterMap ..

/-- Nothing is answered when a module could not be opened. -/
theorem answered_of_unread (f : Job → String → β) (h : ∃ g ∈ groups, g.Unread disk) :
    answered f ((jobsOf disk groups).zip (answersOf disk options groups).2) = [] := by
  obtain ⟨g, hg, hu⟩ := h
  obtain ⟨d, hd⟩ := Option.isSome_iff_exists.mp (Group.unread?_isSome_iff.mpr hu)
  have hm : d ∈ groups.filterMap (Group.unread? disk) := List.mem_filterMap.mpr ⟨g, hg, hd⟩
  rw [answersOf, answered_runJobs f rfl, if_pos]
  exact Sink.hasErrors_extend_iff.mpr (.inr ⟨d, hm, Group.isError_of_unread? hd⟩)

theorem unread?_eq_nil (hu : ∀ g ∈ groups, ¬ g.Unread disk) :
    groups.filterMap (Group.unread? disk) = [] := by
  refine List.filterMap_eq_nil_iff.mpr fun g hg => ?_
  rw [← Option.not_isSome_iff_eq_none, Group.unread?_isSome_iff]
  exact hu g hg

/-- When all modules are read, those before the first that fails are answered. -/
theorem answered_of_read {f : Job → String → β} {own : Group → String → β}
    (hf : ∀ g ∈ groups, ∀ job, g.job? disk = some job → f job = own g)
    (hu : ∀ g ∈ groups, ¬ g.Unread disk) :
    answered f ((jobsOf disk groups).zip (answersOf disk options groups).2) =
      (groups.takeWhile (Group.clean disk options)).filterMap fun g =>
        (g.text? disk options).map (own g) := by
  rw [answersOf, unread?_eq_nil hu, answered_runJobs f rfl, if_neg (by decide), takeWhile_jobsOf,
    List.filterMap_filterMap]
  refine List.filterMap_congr fun g hg => ?_
  have hmem : g ∈ groups := (List.takeWhile_sublist _).mem hg
  cases hj : g.job? disk with
  | none => simp [Group.text?, hj]
  | some job => simp [outcome?, Group.text?, hj, hf g hmem job hj]

/-- The text of a job goes to the destination of its module. -/
theorem delivery_of_job? {g : Group} {job : Job} (hp : g.file.Proper) (hj : g.job? disk = some job) :
    (fun text : String => (outputPlace (sourceOf job) folder, text)) =
      fun text => (g.destination folder, text) := by
  rw [sourceOf_of_job? hp hj, Group.destination]

theorem resultsOf_of_read (hp : ∀ g ∈ groups, g.file.Proper) (hu : ∀ g ∈ groups, ¬ g.Unread disk) :
    resultsOf disk options folder groups =
      (groups.takeWhile (Group.clean disk options)).filterMap
        (Group.result? disk options folder) :=
  answered_of_read (fun g hg _ => delivery_of_job? (hp g hg)) hu

/-- What is shown of a module whose text is written. -/
def writtenEvent (folder : Option Location) (g : Group) : Event :=
  say .success (hydratedMessage g.file.toText (g.destination folder))

end Results

section Shared

variable {disk : Disk} {options : Options} {folder : Option Location} {g other : Group}

theorem place_destination (h : g.file.Proper) (folder : Option Location) :
    disk.place (g.destination folder) =
      disk.place (resultFolder g.file folder) ++ [g.file.stem ++ hydratedSuffix] := by
  have hup : (g.file.stem ++ hydratedSuffix == "..") = false := by
    simpa using hydrated_ne_up g.file.stem
  rw [Group.destination, outputPlace_eq h, place, place, List.foldl_append]
  simp [follow, hup, Location.isAbsolute]

/-- Two modules have one destination when their stems are the same and, where no folder is given,
they stand in one folder. -/
theorem place_destination_eq_iff (hg : g.file.Proper) (ho : other.file.Proper) :
    disk.place (g.destination folder) = disk.place (other.destination folder) ↔
      g.file.stem = other.file.stem ∧
        (folder = none → disk.place g.file.parent = disk.place other.file.parent) := by
  rw [place_destination hg, place_destination ho]
  constructor
  · intro h
    obtain ⟨hfolder, hname⟩ := List.append_inj' h rfl
    have hstem : g.file.stem = other.file.stem := by
      simpa [← String.toList_inj] using hname
    refine ⟨hstem, fun hf => ?_⟩
    subst hf
    exact hfolder
  · rintro ⟨hstem, hfolder⟩
    rw [hstem]
    cases folder with
    | none => rw [resultFolder, resultFolder, Option.getD_none, Option.getD_none, hfolder rfl]
    | some folder => rfl

/-- The last module for a place decides what all modules that share it find there. -/
theorem read_shared {after : Disk} {groups front back : List Group} {text : String}
    (hw : Written disk (groups.filterMap (Group.result? disk options folder)) after)
    (hgroups : groups = front ++ g :: back) (ht : g.text? disk options = some text)
    (hback : ∀ other ∈ back, (other.text? disk options).isSome = true →
      disk.place (other.destination folder) ≠ disk.place (g.destination folder))
    (ho : other ∈ front ++ [g]) (hs : (other.text? disk options).isSome = true)
    (he : disk.place (other.destination folder) = disk.place (g.destination folder)) :
    after.read (other.destination folder) = .ok (Text.encode text) := by
  obtain ⟨own, hown⟩ := Option.isSome_iff_exists.mp hs
  have hm : (other.destination folder, own) ∈
      groups.filterMap (Group.result? disk options folder) := by
    refine List.mem_filterMap.mpr ⟨other, ?_, by simp [Group.result?, hown]⟩
    rw [hgroups, List.append_cons]
    exact List.mem_append_left _ ho
  refine hw.read hm ?_
  have hresult : g.result? disk options folder = some (g.destination folder, text) := by
    simp [Group.result?, ht]
  rw [he, hgroups, List.filterMap_append, List.filterMap_cons_some hresult]
  refine lastText_of_last _ fun x hx => ?_
  obtain ⟨later, hl, hr⟩ := List.mem_filterMap.mp hx
  obtain ⟨t, hlt, rfl⟩ := Option.map_eq_some_iff.mp hr
  exact hback later hl (by simp [hlt])

end Shared

/-- A run that ends well. All modules that it selects are read and transformed, and each destination
holds the text of the last module that has it: its own text, unless a later module with a text has
the same destination. This is so for modules with one stem, and where no folder for the results is
given only within one folder. -/
theorem results_of_success {arguments : Arguments} {disk : Disk} {settings : Settings}
    {groups : List Group} (hd : disk.here.Proper) (h : Selects arguments disk settings groups)
    (h0 : (run (perform arguments) disk).1.result = .ok 0) :
    let folder := folderOf arguments
    let text? := Group.text? disk settings.options
    let goal (g : Group) := disk.place (g.destination folder)
    (∀ g ∈ groups, (g.job? disk).isSome = true ∧ ¬ g.Fails disk settings.options) ∧
    (∀ front g back text, groups = front ++ g :: back → text? g = some text →
      (∀ other ∈ back, (text? other).isSome = true → goal other ≠ goal g) →
      ∀ sharing ∈ front ++ [g], (text? sharing).isSome = true → goal sharing = goal g →
        (run (perform arguments) disk).2.read (sharing.destination folder) =
          .ok (Text.encode text)) ∧
    (∀ g ∈ groups, ∀ other ∈ groups, goal g = goal other ↔
      g.file.stem = other.file.stem ∧
        (folder = none → disk.place g.file.parent = disk.place other.file.parent)) := by
  intro folder text? goal
  have hp : ∀ g ∈ groups, g.file.Proper := fun g hg => h.reaches.proper hd hg
  have hgoals : ∀ g ∈ groups, ∀ other ∈ groups, goal g = goal other ↔
      g.file.stem = other.file.stem ∧
        (folder = none → disk.place g.file.parent = disk.place other.file.parent) :=
    fun g hg other ho => place_destination_eq_iff (hp g hg) (hp other ho)
  by_cases hempty : groups = []
  · subst hempty
    exact ⟨by simp, fun front g back _ hg => absurd hg (by simp), hgoals⟩
  · obtain ⟨hdec, hwritten, -, hcode⟩ :=
      ends_hydrateGroups_iff.mp (ends_of_ends_perform h.reaches hempty ⟨h0, rfl⟩)
    have hclean : ¬ ∃ g ∈ groups, g.Unread disk ∨ g.Fails disk settings.options := by
      rw [← hasErrors_answersOf]
      intro he
      simp [he] at hcode
    simp only [not_exists, not_and, not_or] at hclean
    have hjob : ∀ g ∈ groups, (g.job? disk).isSome = true :=
      fun g hg => Group.isSome_job? (hdec g hg) (hclean g hg).1
    have hall : groups.takeWhile (Group.clean disk settings.options) = groups :=
      List.takeWhile_eq_self_iff.mpr fun g hg => Group.clean_iff.mpr (hclean g hg).2
    rw [resultsOf_of_read hp fun g hg => (hclean g hg).1, hall] at hwritten
    refine ⟨fun g hg => ⟨hjob g hg, (hclean g hg).2⟩, ?_, hgoals⟩
    intro front g back text hgroups ht hback sharing hsharing hs he
    exact read_shared hwritten hgroups ht hback hsharing hs he

def sampleManifest : String :=
  "\x7b\"components\":[\x7b\"tag_name\":\"p\",\"source_path\":\"a/x.py\"\x7d," ++
    "\x7b\"tag_name\":\"q\",\"source_path\":\"b/x.py\"\x7d]\x7d"

/-- Two modules in folders of their own, with one name. -/
def sampleDisk (first second : String) : Disk where
  nodes := [(["m"], .file (Text.encode sampleManifest)), (["a"], .folder),
    (["a", "x.py"], .file (Text.encode first)), (["b"], .folder),
    (["b", "x.py"], .file (Text.encode second))]

def sampleArguments (out : Option String) : Arguments :=
  { path := ".", manifest := some "m", out, workers := some 1 }

def sampleSettings : Settings := { manifest := some (Location.ofText "m"), workers := 1 }

def firstComponent : Component := { tag := "p", className := "P", sourcePath := "a/x.py" }

def secondComponent : Component := { tag := "q", className := "Q", sourcePath := "b/x.py" }

def firstGroup : Group where
  file := { slashes := 1, parts := ["a", "x.py"] }
  components := [{ firstComponent with sourcePath := "/a/x.py" }]

def secondGroup : Group where
  file := { slashes := 1, parts := ["b", "x.py"] }
  components := [{ secondComponent with sourcePath := "/b/x.py" }]

theorem proper_here_sampleDisk (first second : String) : (sampleDisk first second).here.Proper :=
  ⟨Nat.le_succ 1, by simp [here, sampleDisk]⟩

theorem openManifest_sampleDisk (first second : String) :
    (run (openManifest (Location.ofText "m")) (sampleDisk first second)).1 =
      .ok [firstComponent, secondComponent] := by
  have hplace : Location.ofText "m" = { parts := ["m"] } := by decide +kernel
  have hread : (sampleDisk first second).read (Location.ofText "m") =
      .ok (Text.encode sampleManifest) := by
    rw [hplace]
    rfl
  have hdecode : (Text.readText (Text.encode sampleManifest)).toOption = some sampleManifest := by
    decide +kernel
  have hparse : (readManifest (Location.ofText "m").toText sampleManifest).toOption =
      some [firstComponent, secondComponent] := by decide +kernel
  rw [run_openManifest_of_text (by decide +kernel) hread (toOption_eq_some.mp hdecode) rfl]
  exact toOption_eq_some.mp hparse

theorem selects_shared : Selects (sampleArguments (some "o")) (sampleDisk "1\n" "2\n")
    sampleSettings [firstGroup, secondGroup] where
  reaches := ⟨_, _, ⟨⟨.folder, by decide, toOption_eq_some.mp (by decide)⟩, rfl,
    openManifest_sampleDisk _ _⟩, by decide, by decide⟩
  worker := rfl

/-- Both modules are hydrated to one file, which holds the text of the second of them. -/
theorem results_of_success_of_shared_stem :
    let disk := sampleDisk "1\n" "2\n"
    let arguments := sampleArguments (some "o")
    disk.here.Proper ∧ Selects arguments disk sampleSettings [firstGroup, secondGroup] ∧
    (run (perform arguments) disk).1.result = .ok 0 ∧
    firstGroup.text? disk sampleSettings.options = some "1\n" ∧
    (run (perform arguments) disk).2.read (firstGroup.destination (folderOf arguments)) =
      .ok (Text.encode "2\n") := by
  intro disk arguments
  have hh : disk.here.Proper := proper_here_sampleDisk ..
  have hrun : (run (hydrateGroups false sampleSettings (folderOf (sampleArguments (some "o")))
      [firstGroup, secondGroup]) (sampleDisk "1\n" "2\n")).1.result.toOption = some 0 := by
    decide +kernel
  have h0 : (run (perform arguments) disk).1.result = .ok 0 := by
    obtain ⟨loaded, -, hperform⟩ := run_perform_eq selects_shared.reaches rfl
    rw [hperform, settleModules, if_neg (by decide)]
    exact toOption_eq_some.mp hrun
  have hfirst : firstGroup.text? (sampleDisk "1\n" "2\n") sampleSettings.options = some "1\n" := by
    decide +kernel
  have hsecond : secondGroup.text? (sampleDisk "1\n" "2\n") sampleSettings.options =
      some "2\n" := by decide +kernel
  have hplace : (sampleDisk "1\n" "2\n").place
        (firstGroup.destination (folderOf (sampleArguments (some "o")))) =
      (sampleDisk "1\n" "2\n").place
        (secondGroup.destination (folderOf (sampleArguments (some "o")))) := by decide +kernel
  obtain ⟨-, hread, -⟩ := results_of_success hh selects_shared h0
  refine ⟨hh, selects_shared, h0, hfirst, ?_⟩
  exact hread [firstGroup] secondGroup [] "2\n" rfl hsecond (by simp) firstGroup (by simp)
    (by simp [hfirst, disk]) hplace

end CommandLine

end Hydration
