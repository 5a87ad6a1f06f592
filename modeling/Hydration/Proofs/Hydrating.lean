import Hydration.Proofs.Compiling
import Hydration.Proofs.Selection

/-! The modules of a run, from their files to their results. Modules that cannot be opened are errors
of the build, the others are its jobs; the texts that come out of the jobs are written, and the report
lists the errors of opening before the diagnostics of the jobs. -/

namespace Hydration

open Disk

namespace Group

variable {disk : Disk} {g : Group} {options : Options}

/-- If the module can be opened, its bytes are a text. -/
def Decodable (disk : Disk) (g : Group) : Prop :=
  ∀ bytes, disk.read g.file = .ok bytes → ∃ text, Text.readText bytes = .ok text

def job? (disk : Disk) (g : Group) : Option Job :=
  match disk.read g.file with
  | .error _ => none
  | .ok bytes =>
    (Text.readText bytes).toOption.map fun text => ⟨text, g.components, some g.file.toText⟩

def unreadError (g : Group) (trouble : Trouble) : Diagnostic :=
  let error : FileError := ⟨trouble, g.file.toText⟩
  { message := s!"Cannot read component module: {error.message}", file := some g.file.toText }

def Unread (disk : Disk) (g : Group) : Prop := ∃ trouble, disk.read g.file = .error trouble

def unread? (disk : Disk) (g : Group) : Option Diagnostic :=
  match disk.read g.file with
  | .error trouble => some (g.unreadError trouble)
  | .ok _ => none

/-- The compilation of the module fails. -/
def Fails (disk : Disk) (options : Options) (g : Group) : Prop :=
  ∃ job failure, g.job? disk = some job ∧ (job.reply options).outcome = .error failure

/-- The text that the transformation of the module gives in a build of its own. -/
def text? (disk : Disk) (options : Options) (g : Group) : Option String :=
  (g.job? disk).bind fun job => (job.alone options).2

theorem unread?_isSome_iff : (g.unread? disk).isSome = true ↔ g.Unread disk := by
  cases hr : disk.read g.file <;> simp [unread?, Unread, hr]

theorem isError_of_unread? {d : Diagnostic} (h : g.unread? disk = some d) : d.isError = true := by
  cases hr : disk.read g.file with
  | error trouble =>
    simp only [unread?, hr, Option.some.injEq] at h
    exact h ▸ rfl
  | ok bytes => simp [unread?, hr] at h

theorem isSome_job? (hd : g.Decodable disk) (hu : ¬ g.Unread disk) :
    (g.job? disk).isSome = true := by
  cases hr : disk.read g.file with
  | error trouble => exact absurd ⟨trouble, hr⟩ hu
  | ok bytes =>
    obtain ⟨text, ht⟩ := hd bytes hr
    simp [job?, hr, ht, Except.toOption]

theorem decodable_of_job? (h : (g.job? disk).isSome = true) : g.Decodable disk := by
  intro bytes hr
  cases ht : Text.readText bytes with
  | error e => simp [job?, hr, ht, Except.toOption] at h
  | ok text => exact ⟨text, rfl⟩

theorem exists_read_of_job? (h : (g.job? disk).isSome = true) :
    ∃ bytes, disk.read g.file = .ok bytes := by
  cases hr : disk.read g.file with
  | error trouble => simp [job?, hr] at h
  | ok bytes => exact ⟨bytes, rfl⟩

theorem file_of_job? {job : Job} (h : g.job? disk = some job) : job.file = some g.file.toText := by
  cases hr : disk.read g.file with
  | error trouble => simp [job?, hr] at h
  | ok bytes =>
    simp only [job?, hr, Option.map_eq_some_iff] at h
    obtain ⟨text, -, rfl⟩ := h
    rfl

end Group

/-- The errors that a job records come from a compilation that fails. -/
theorem Job.errs_iff {options : Options} {job : Job} :
    job.Errs options ↔ ∃ failure, (job.reply options).outcome = .error failure := by
  cases ho : (job.reply options).outcome with
  | error failure =>
    have hd := failure.isError_diagnostic (job.request options).file
    simp [Job.Errs, Job.block_of_error ho, hd]
  | ok output =>
    have hw := warning_of_compile ho
    simp only [Job.Errs, Job.block_eq, Reply.reported, ho, reduceCtorEq, exists_false, iff_false,
      not_exists, not_and]
    intro d hd he
    simp [Diagnostic.isError, hw d hd] at he

/-- A job has the text that its compilation gives, if that is not empty. -/
theorem Job.alone_text_iff {options : Options} {job : Job} {text : String} :
    (job.alone options).2 = some text ↔
      (∃ output, (job.reply options).outcome = .ok output ∧ output.text = some text) ∧
        text ≠ "" := by
  rw [Job.alone_eq, Build.settle_text_iff]
  cases ho : (job.reply options).outcome with
  | error failure => simp [Reply.text, ho]
  | ok output =>
    have hclean : (({} : Sink).extend
        ((job.reply options).reported (job.request options).file)).hasErrors = false := by
      rw [Reply.reported, ho]
      exact Transform.hasErrors_extend_of_warnings (warning_of_compile ho) {}
    have habort : (job.reply options).abort = false := rfl
    simp [hclean, habort, Reply.text, ho, named?_eq_some_iff]

theorem Build.report_report (build : Build) (first second : List Diagnostic) :
    (build.report first).report second = build.report (first ++ second) := by
  simp [Build.report]

namespace CommandLine

section Reading

variable {disk : Disk} {build : Build} {groups : List Group}

/-- Modules that can be decoded are read one after another. -/
theorem run_readModules (h : ∀ g ∈ groups, g.Decodable disk) :
    run (readModules build groups) disk =
      (.ok (build.report (groups.filterMap (Group.unread? disk)),
        groups.filterMap (Group.job? disk)), disk) := by
  -- What cannot be opened is reported on the way, so the build that the rest starts with varies.
  induction groups generalizing build with
  | nil => simp [readModules, Build.report]
  | cons g groups ih =>
    have hrest : ∀ g ∈ groups, g.Decodable disk := fun g hg => h g (List.mem_cons_of_mem _ hg)
    rw [readModules]
    dsimp only
    rw [run_bind, run_read]
    cases hr : disk.read g.file with
    | error trouble =>
      have hunread : g.unread? disk = some (g.unreadError trouble) := by simp [Group.unread?, hr]
      have hjob : g.job? disk = none := by simp [Group.job?, hr]
      rw [List.filterMap_cons_some hunread, List.filterMap_cons_none hjob]
      refine (ih hrest).trans ?_
      rw [Build.report_report]
      rfl
    | ok bytes =>
      obtain ⟨text, ht⟩ := h g List.mem_cons_self bytes hr
      have hunread : g.unread? disk = none := by simp [Group.unread?, hr]
      have hjob : g.job? disk = some ⟨text, g.components, some g.file.toText⟩ := by
        simp [Group.job?, hr, ht, Except.toOption]
      rw [List.filterMap_cons_none hunread, List.filterMap_cons_some hjob]
      simp only [Except.mapError, ht]
      rw [run_bind, ih hrest]
      rfl

/-- A module that cannot be decoded ends the run. -/
theorem run_readModules_of_undecodable (build : Build) (h : ¬ ∀ g ∈ groups, g.Decodable disk) :
    ∃ e, run (readModules build groups) disk = (.error (.undecodable e), disk) := by
  induction groups generalizing build with
  | nil => exact absurd (by simp) h
  | cons g groups ih =>
    rw [readModules]
    dsimp only
    rw [run_bind, run_read]
    cases hr : disk.read g.file with
    | error trouble =>
      have hg : g.Decodable disk := fun bytes hb => by simp [hr] at hb
      exact ih _ fun hrest => h (List.forall_mem_cons.mpr ⟨hg, hrest⟩)
    | ok bytes =>
      simp only [Except.mapError]
      cases ht : Text.readText bytes with
      | error e => exact ⟨_, rfl⟩
      | ok text =>
        have hg : g.Decodable disk := fun own hb => by
          rw [hr] at hb
          exact ⟨text, Except.ok.inj hb ▸ ht⟩
        obtain ⟨e, he⟩ := ih build
          fun hrest => h (List.forall_mem_cons.mpr ⟨hg, hrest⟩)
        dsimp only
        rw [run_bind, he]
        exact ⟨e, rfl⟩

end Reading

def jobsOf (disk : Disk) (groups : List Group) : List Job := groups.filterMap (Group.job? disk)

/-- What the report lists: first the modules that could not be opened, then what the jobs recorded. -/
def diagnosticsOf (disk : Disk) (options : Options) (groups : List Group) : List Diagnostic :=
  groups.filterMap (Group.unread? disk) ++ (jobsOf disk groups).flatMap (Job.block options)

/-- The build after all jobs, and their answers. -/
def answersOf (disk : Disk) (options : Options) (groups : List Group) :
    Build × List (Option String) :=
  (({} : Build).report (groups.filterMap (Group.unread? disk))).runJobs options (jobsOf disk groups)

def resultsOf (disk : Disk) (options : Options) (folder : Option Path.Location)
    (groups : List Group) : List (Path.Location × String) :=
  deliveries folder ((jobsOf disk groups).zip (answersOf disk options groups).2)

section Build

variable {disk : Disk} {options : Options} {groups : List Group}

theorem sink_answersOf :
    (answersOf disk options groups).1.sink =
      ({} : Sink).extend (diagnosticsOf disk options groups) := by
  rw [answersOf, Build.runJobs_sink rfl]
  simp [Build.report, diagnosticsOf]

theorem hasErrors_answersOf :
    (answersOf disk options groups).1.hasErrors = true ↔
      ∃ g ∈ groups, g.Unread disk ∨ g.Fails disk options := by
  rw [Build.hasErrors, sink_answersOf, Sink.hasErrors_extend_iff]
  constructor
  · rintro (h | ⟨d, hd, he⟩)
    · simp [Sink.hasErrors] at h
    · rcases List.mem_append.mp hd with hd | hd
      · obtain ⟨g, hg, hu⟩ := List.mem_filterMap.mp hd
        exact ⟨g, hg, .inl (Group.unread?_isSome_iff.mp (by simp [hu]))⟩
      · obtain ⟨job, hj, hd⟩ := List.mem_flatMap.mp hd
        obtain ⟨g, hg, hjob⟩ := List.mem_filterMap.mp hj
        obtain ⟨failure, hf⟩ := Job.errs_iff.mp ⟨d, hd, he⟩
        exact ⟨g, hg, .inr ⟨job, failure, hjob, hf⟩⟩
  · rintro ⟨g, hg, hu | ⟨job, failure, hjob, hf⟩⟩
    · obtain ⟨d, hd⟩ := Option.isSome_iff_exists.mp (Group.unread?_isSome_iff.mpr hu)
      have hm : d ∈ groups.filterMap (Group.unread? disk) := List.mem_filterMap.mpr ⟨g, hg, hd⟩
      exact .inr ⟨d, List.mem_append_left _ hm, Group.isError_of_unread? hd⟩
    · obtain ⟨d, hd, he⟩ := Job.errs_iff.mpr ⟨failure, hf⟩
      have hm : job ∈ jobsOf disk groups := List.mem_filterMap.mpr ⟨g, hg, hjob⟩
      exact .inr ⟨d, List.mem_append_right _ (List.mem_flatMap.mpr ⟨job, hm, hd⟩), he⟩

end Build

section Run

variable {verbose : Bool} {disk after : Disk} {settings : Settings} {folder : Option Path.Location}
  {groups : List Group} {build : Build} {written total : Nat}

/-- The record that opens a run. -/
def startedEvent (settings : Settings) (jobs : List Job) : Event :=
  say .info s!"Hydrating {jobs.length} module(s) with {settings.workers} worker(s)..."

/-- The record that closes it. -/
def closingEvent (build : Build) (written total : Nat) : Event :=
  if build.hasErrors then say .error s!"Hydration failed: {written}/{total} module(s) written."
  else say .success s!"Build Complete: {written}/{total} module(s) hydrated."

theorem fault?_startedEvent (settings : Settings) (jobs : List Job) :
    (startedEvent settings jobs).fault? verbose = none := by
  refine (fault?_say (by decide) _).mpr (tells_of_not_mem _ ?_)
  simp only [String.toList_append, List.mem_append, not_or, bracket_not_mem_nat, bracket_not_mem_int,
    not_false_eq_true, and_true]
  decide

theorem fault?_closingEvent (build : Build) (written total : Nat) :
    (closingEvent build written total).fault? verbose = none := by
  unfold closingEvent
  split
  all_goals
    refine (fault?_say (by decide) _).mpr (tells_of_not_mem _ ?_)
    simp only [String.toList_append, List.mem_append, not_or, bracket_not_mem_nat, not_false_eq_true,
      and_true]
    decide

theorem verdict_eq (build : Build) (written total : Nat) :
    (verdict verbose build written total : StateM Disk Outcome) =
      conclude verbose (report build.sink.items ++ [closingEvent build written total])
        (if build.hasErrors then 1 else 0) := by
  unfold verdict closingEvent
  split <;> rfl

theorem shows_verdict : Shows verbose (report build.sink.items ++ [closingEvent build written total]) ↔
    Shows verbose (report build.sink.items) := by
  simp [fault?_closingEvent]

theorem tablesOf_verdict (build : Build) (written total : Nat) :
    tablesOf (report build.sink.items ++ [closingEvent build written total]) =
      if build.sink.items = [] then [] else [reportTable build.sink.items] := by
  have hclosing : tablesOf [closingEvent build written total] = [] := by
    unfold closingEvent
    split <;> rfl
  rw [tablesOf_append, hclosing, List.append_nil]
  cases h : build.sink.items <;> simp [report, tablesOf]

/-- What is shown before the results are written. -/
def recordedEvents (disk : Disk) (settings : Settings) (groups : List Group) : List Event :=
  startedEvent settings (jobsOf disk groups) ::
    (answersOf disk settings.options groups).1.records.map .record

/-- What is shown of the results that are written. -/
def announcementsOf (disk : Disk) (options : Options) (folder : Option Path.Location)
    (groups : List Group) : List Event :=
  announcements folder ((jobsOf disk groups).zip (answersOf disk options groups).2)

/-- All that a run over the modules has to say can be shown. -/
structure Audible (verbose : Bool) (disk : Disk) (settings : Settings)
    (folder : Option Path.Location) (groups : List Group) : Prop where
  recorded : Shows verbose (recordedEvents disk settings groups)
  announced : Shows verbose (announcementsOf disk settings.options folder groups)
  reported : Shows verbose (report (diagnosticsOf disk settings.options groups))

theorem items_answersOf (disk : Disk) (options : Options) (groups : List Group) :
    (answersOf disk options groups).1.sink.items = diagnosticsOf disk options groups := by
  rw [sink_answersOf]
  rfl

/-- Where all modules are texts, the records come first, then the results, and the verdict last. -/
theorem exists_run_hydrateGroups (verbose : Bool) (settings : Settings)
    (folder : Option Path.Location) (hd : ∀ g ∈ groups, g.Decodable disk) :
    ∃ next : StateM Disk Outcome,
      run (hydrateGroups verbose settings folder groups) disk =
        run (showThen verbose (recordedEvents disk settings groups) next) disk ∧
      run next disk =
        let wrote := run (writeModules verbose folder
          ((jobsOf disk groups).zip (answersOf disk settings.options groups).2)) disk
        match wrote.1.1.result with
        | .error _ => (wrote.1.1, wrote.2)
        | .ok _ =>
          let last := run (verdict verbose (answersOf disk settings.options groups).1 wrote.1.2
            groups.length) wrote.2
          (prepend wrote.1.1.events last.1, last.2) := by
  rw [hydrateGroups, run_bind, run_readModules hd]
  refine ⟨_, rfl, ?_⟩
  rw [run_bind]
  unfold answersOf jobsOf
  generalize run (writeModules verbose folder _) disk = wrote
  obtain ⟨⟨outcome, written⟩, mid⟩ := wrote
  cases hr : outcome.result <;> simp only [hr] <;> rfl

/-- When all results can be written and shown, the run ends with the verdict on the build. -/
theorem run_hydrateGroups_of_written (hd : ∀ g ∈ groups, g.Decodable disk)
    (hw : Written disk (resultsOf disk settings.options folder groups) after)
    (hs : Audible verbose disk settings folder groups) :
    ∃ events,
      run (hydrateGroups verbose settings folder groups) disk =
        (finish events (if (answersOf disk settings.options groups).1.hasErrors then 1 else 0), after) ∧
      tablesOf events = if diagnosticsOf disk settings.options groups = [] then []
        else [reportTable (diagnosticsOf disk settings.options groups)] := by
  obtain ⟨next, hrun, hnext⟩ := exists_run_hydrateGroups verbose settings folder hd
  have hquiet : tablesOf (recordedEvents disk settings groups) = [] := tablesOf_records _
  have hreport : Shows verbose (report (answersOf disk settings.options groups).1.sink.items) := by
    rw [items_answersOf]
    exact hs.reported
  rw [run_writeModules_of_written hw hs.announced] at hnext
  simp only [verdict_eq, finish] at hnext
  rw [conclude, run_showThen_of_shows (shows_verdict.mpr hreport)] at hnext
  rw [hrun, run_showThen_of_shows hs.recorded, hnext]
  refine ⟨_, rfl, ?_⟩
  rw [← items_answersOf, ← tablesOf_verdict _ _ groups.length]
  simp only [prepend, finish, run_pure, tablesOf_append, hquiet, List.append_nil, List.nil_append]
  rw [tablesOf_announcements, List.nil_append]

/-- When all results can be written and something cannot be shown, the run ends there. -/
theorem balks_hydrateGroups (hd : ∀ g ∈ groups, g.Decodable disk)
    (hw : Written disk (resultsOf disk settings.options folder groups) after)
    (hs : ¬ Audible verbose disk settings folder groups) :
    Balks (hydrateGroups verbose settings folder groups) disk := by
  obtain ⟨next, hrun, hnext⟩ := exists_run_hydrateGroups verbose settings folder hd
  rw [Balks, hrun]
  refine balks_showThen fun hrecorded => ?_
  rw [Balks, hnext]
  by_cases ha : Shows verbose (announcementsOf disk settings.options folder groups)
  · have hreport : ¬ Shows verbose (report (answersOf disk settings.options groups).1.sink.items) := by
      rw [items_answersOf]
      exact fun hr => hs ⟨hrecorded, ha, hr⟩
    obtain ⟨shown, e, hlast⟩ := run_showThen_of_not (mt shows_verdict.mp hreport)
      (pure (finish [] (if (answersOf disk settings.options groups).1.hasErrors then 1 else 0))) after
    rw [run_writeModules_of_written hw ha]
    simp only [verdict_eq, conclude, finish] at hlast ⊢
    exact ⟨e, by rw [hlast]; rfl⟩
  · obtain ⟨e, he⟩ := run_writeModules_of_unshown hw ha
    refine ⟨e, ?_⟩
    dsimp only
    split
    · exact he
    · rename_i hr
      cases hr.symm.trans he

/-- A run over the modules ends with a code exactly if all of them are texts, all results are written,
and all is shown. -/
theorem ends_hydrateGroups_iff {code : Nat} :
    Ends (hydrateGroups verbose settings folder groups) disk code after ↔
      (∀ g ∈ groups, g.Decodable disk) ∧
      Written disk (resultsOf disk settings.options folder groups) after ∧
      Audible verbose disk settings folder groups ∧
      code = if (answersOf disk settings.options groups).1.hasErrors then 1 else 0 := by
  constructor
  · intro h
    by_cases hd : ∀ g ∈ groups, g.Decodable disk
    · obtain ⟨next, hrun, hnext⟩ := exists_run_hydrateGroups verbose settings folder hd
      rw [Ends, hrun] at h
      obtain ⟨hrecorded, hends⟩ := ends_showThen_iff.mp h
      rw [Ends, hnext] at hends
      dsimp only at hends
      split at hends
      · rename_i hr
        cases hr.symm.trans hends.1
      · rename_i hr
        obtain ⟨hwritten, hannounced⟩ := written_of_run_writeModules hr
        rw [verdict_eq] at hends
        obtain ⟨hreport, hcode, hafter⟩ := ends_conclude_iff.mp hends
        rw [shows_verdict, items_answersOf] at hreport
        exact ⟨hd, hafter ▸ hwritten, ⟨hrecorded, hannounced, hreport⟩, hcode⟩
    · obtain ⟨e, he⟩ := run_readModules_of_undecodable {} hd
      rw [Ends, hydrateGroups, run_bind, he] at h
      simp [abandon] at h
  · rintro ⟨hd, hw, hs, rfl⟩
    obtain ⟨events, hrun, -⟩ := run_hydrateGroups_of_written hd hw hs
    rw [Ends, hrun]
    exact ⟨rfl, rfl⟩

end Run

end CommandLine

end Hydration
