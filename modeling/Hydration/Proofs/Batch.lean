import Hydration.Proofs.History

/-! Batches whose jobs run one after another. Up to the first error every job gives what it gives
alone, and from there on none gives a text; but all of them leave behind the diagnostics that they
record alone, in the order of the jobs. -/

namespace Hydration

/-- What a job gives in a build of its own. -/
def Job.alone (options : Options) (job : Job) : Build × Option String :=
  ({} : Build).runJob options job

/-- The diagnostics that a job records in a build of its own. -/
def Job.block (options : Options) (job : Job) : List Diagnostic := (job.alone options).1.sink.items

def Job.Errs (options : Options) (job : Job) : Prop := ∃ d ∈ job.block options, d.isError = true

theorem Sink.hasErrors_extend_iff {sink : Sink} {batch : List Diagnostic} :
    (sink.extend batch).hasErrors = true ↔
      sink.hasErrors = true ∨ ∃ d ∈ batch, d.isError = true := by
  simp only [Sink.hasErrors, Sink.extend, decide_eq_true_eq, gt_iff_lt, Nat.add_pos_iff_pos_or_pos,
    List.length_pos_iff_exists_mem, List.mem_filter]

theorem Failure.isError_diagnostic (failure : Failure) (file : Option String) :
    (failure.diagnostic file).isError = true := by
  simp [Diagnostic.isError, (failure.diagnostic_build file).1]

theorem Build.settle_of_clean {build : Build} {reply : Reply} {file : Option String}
    (ha : build.abort = false) (hr : reply.abort = false)
    (he : (build.sink.extend (reply.reported file)).hasErrors = false) :
    build.settle file reply =
      ({ sink := build.sink.extend (reply.reported file)
         abort := false
         records := build.records ++ (({} : Build).settle file reply).1.records },
        (({} : Build).settle file reply).2) := by
  cases ho : reply.outcome with
  | error failure =>
    have hd : ∃ d ∈ reply.reported file, d.isError = true := by
      simp [Reply.reported, ho, failure.isError_diagnostic file]
    rw [Sink.hasErrors_extend_iff.mpr (.inr hd)] at he
    exact absurd he (by simp)
  | ok output =>
    simp only [Reply.reported, ho] at he ⊢
    have hempty : (({} : Sink).extend output.diagnostics).hasErrors = false := by
      refine Bool.eq_false_iff.mpr fun h => ?_
      rcases Sink.hasErrors_extend_iff.mp h with h | h
      · simp [Sink.hasErrors] at h
      · rw [Sink.hasErrors_extend_iff.mpr (.inr h)] at he
        exact absurd he (by simp)
    simp only [Build.settle_of_ok ho, Build.accept, Build.hasErrors, Build.report, Build.hear, ha,
      hr, he, hempty]
    cases named? output.text with
    | some text => simp
    | none => simp [Build.note]

section Jobs

variable {options : Options} {build : Build} {job : Job}

theorem Build.runJob_of_running (ha : build.abort = false) :
    build.runJob options job = build.settle (job.request options).file (job.reply options) := by
  rw [Build.runJob_eq, if_neg (by simp [ha])]

theorem Job.alone_eq (options : Options) (job : Job) :
    job.alone options = ({} : Build).settle (job.request options).file (job.reply options) :=
  Build.runJob_of_running rfl

theorem Job.block_eq (options : Options) (job : Job) :
    job.block options = (job.reply options).reported (job.request options).file := by
  rw [Job.block, Job.alone_eq, Build.settle_sink]
  rfl

/-- A job whose compilation fails records the one error of the failure. -/
theorem Job.block_of_error {failure : Failure}
    (h : (job.reply options).outcome = .error failure) :
    job.block options = [failure.diagnostic (job.request options).file] := by
  simp only [Job.block_eq, Reply.reported, h]

theorem Build.runJob_sink (ha : build.abort = false) :
    (build.runJob options job).1.sink = build.sink.extend (job.block options) := by
  rw [Build.runJob_of_running ha, Build.settle_sink, Job.block_eq]

theorem Build.runJob_abort (options : Options) (job : Job) (ha : build.abort = false) :
    (build.runJob options job).1.abort = false := by
  rw [Build.runJob_of_running ha, Build.settle_abort, ha]
  rfl

/-- While no error is known, a job gives what it gives alone. -/
theorem Build.runJob_of_clean (ha : build.abort = false)
    (he : (build.sink.extend (job.block options)).hasErrors = false) :
    build.runJob options job =
      ({ sink := build.sink.extend (job.block options)
         abort := false
         records := build.records ++ (job.alone options).1.records },
        (job.alone options).2) := by
  rw [Job.block_eq] at he ⊢
  rw [Build.runJob_of_running ha, Job.alone_eq]
  exact Build.settle_of_clean ha rfl he

theorem Build.runJob_text_of_errors (ha : build.abort = false)
    (he : (build.sink.extend (job.block options)).hasErrors = true) :
    (build.runJob options job).2 = none := by
  rw [Build.runJob_of_running ha]
  refine Option.eq_none_iff_forall_ne_some.mpr fun text ht => ?_
  have hclean := (Build.settle_text_iff.mp ht).1
  rw [← Job.block_eq, he] at hclean
  exact absurd hclean (by simp)

end Jobs

section Order

variable {options : Options} {build : Build} {jobs : List Job}

theorem Build.runJobs_cons (build : Build) (job : Job) :
    build.runJobs options (job :: jobs) =
      (((build.runJob options job).1.runJobs options jobs).1,
        (build.runJob options job).2 :: ((build.runJob options job).1.runJobs options jobs).2) :=
  rfl

theorem Build.runJobs_abort (ha : build.abort = false) :
    (build.runJobs options jobs).1.abort = false := by
  induction jobs generalizing build with
  | nil => exact ha
  | cons job jobs ih => exact ih (Build.runJob_abort options job ha)

theorem Build.runJobs_sink (ha : build.abort = false) :
    (build.runJobs options jobs).1.sink = build.sink.extend (jobs.flatMap (Job.block options)) := by
  induction jobs generalizing build with
  | nil => simp [Build.runJobs]
  | cons job jobs ih =>
    have hrest := ih (Build.runJob_abort options job ha)
    rw [Build.runJob_sink ha, Sink.extend_extend] at hrest
    exact hrest

theorem Build.length_runJobs (build : Build) :
    (build.runJobs options jobs).2.length = jobs.length := by
  induction jobs generalizing build with
  | nil => rfl
  | cons job jobs ih => exact congrArg Nat.succ (ih _)

/-- The answer of a job depends on what is recorded up to the job and by it. -/
theorem Build.getElem?_runJobs (ha : build.abort = false) {i : Nat} {job : Job}
    (hj : jobs[i]? = some job) :
    (build.runJobs options jobs).2[i]? =
      some (if (build.sink.extend ((jobs.take (i + 1)).flatMap (Job.block options))).hasErrors
        then none else (job.alone options).2) := by
  induction jobs generalizing build i with
  | nil => simp at hj
  | cons first jobs ih =>
    cases i with
    | zero =>
      obtain rfl : first = job := by simpa using hj
      simp only [Build.runJobs_cons, List.getElem?_cons_zero, List.take_succ_cons, List.take_zero,
        List.flatMap_cons, List.flatMap_nil, List.append_nil, Option.some.injEq]
      split
      · rename_i he
        exact Build.runJob_text_of_errors ha he
      · rename_i he
        rw [Build.runJob_of_clean ha (by simpa using he)]
    | succ i =>
      have hrest := ih (Build.runJob_abort options first ha)
        (by simpa using hj : jobs[i]? = some job)
      rw [Build.runJob_sink ha, Sink.extend_extend] at hrest
      simpa [Build.runJobs_cons] using hrest

/-- Jobs that record no error give all that they give alone, one after another. -/
theorem Build.runJobs_of_clean (ha : build.abort = false) (hs : build.hasErrors = false)
    (hc : ∀ job ∈ jobs, ¬ job.Errs options) :
    build.runJobs options jobs =
      ({ sink := build.sink.extend (jobs.flatMap (Job.block options))
         abort := false
         records := build.records ++ jobs.flatMap fun job => (job.alone options).1.records },
        jobs.map fun job => (job.alone options).2) := by
  induction jobs generalizing build with
  | nil =>
    cases build
    simp_all [Build.runJobs]
  | cons job jobs ih =>
    have hjob : (build.sink.extend (job.block options)).hasErrors = false := by
      refine Bool.eq_false_iff.mpr fun h => ?_
      rcases Sink.hasErrors_extend_iff.mp h with h | h
      · exact absurd (hs.symm.trans h) (by simp)
      · exact hc job List.mem_cons_self h
    have hclean : (build.runJob options job).1.hasErrors = false := by
      rw [Build.hasErrors, Build.runJob_sink ha]
      exact hjob
    have hrest := ih (Build.runJob_abort options job ha) hclean
      fun j hj => hc j (List.mem_cons_of_mem _ hj)
    rw [Build.runJobs_cons, hrest, Build.runJob_of_clean ha hjob]
    simp

end Order

/-- A batch with one worker, run in a build without errors that was not asked to abort. There is
one answer for each job, in the order of the jobs, and the sink grows by the block of each. The jobs
before the first that records an error answer as they do alone and all from it on answer with no
text; one whose compilation fails still adds its one error. Without errors the jobs can be run in
any order: each keeps its answer and its block, and nothing else changes. -/
theorem Build.batch_law (build : Build) (options : Options) (jobs : List Job)
    (hs : build.hasErrors = false) (ha : build.abort = false) :
    ∃ after texts, build.batch jobs options 1 = .ok (after, texts) ∧
      texts.length = jobs.length ∧ after.abort = false ∧
      after.sink = build.sink.extend (jobs.flatMap (Job.block options)) ∧
      (∀ i job, jobs[i]? = some job →
        ((∀ j ∈ jobs.take (i + 1), ¬ j.Errs options) → texts[i]? = some (job.alone options).2) ∧
        ((∃ j ∈ jobs.take (i + 1), j.Errs options) → texts[i]? = some none)) ∧
      (∀ job ∈ jobs, ∀ failure, (job.reply options).outcome = .error failure →
        ∃ d, job.block options = [d] ∧ d.severity = .error ∧ d.category = .build) ∧
      ((∀ job ∈ jobs, ¬ job.Errs options) → ∀ jobs', jobs'.Perm jobs →
        texts = jobs.map (fun job => (job.alone options).2) ∧
        build.batch jobs' options 1 =
          .ok ({ after with
            sink := build.sink.extend (jobs'.flatMap (Job.block options))
            records := build.records ++ jobs'.flatMap fun job => (job.alone options).1.records },
            jobs'.map fun job => (job.alone options).2)) := by
  have hbatch (jobs : List Job) : build.batch jobs options 1 = .ok (build.runJobs options jobs) := rfl
  refine ⟨_, _, hbatch jobs, build.length_runJobs, build.runJobs_abort ha, build.runJobs_sink ha,
    ?_, ?_, ?_⟩
  · intro i job hj
    rw [build.getElem?_runJobs ha hj]
    constructor
    · intro hc
      rw [if_neg]
      intro he
      rcases Sink.hasErrors_extend_iff.mp he with he | ⟨d, hd, he⟩
      · exact absurd (hs.symm.trans he) (by simp)
      · obtain ⟨j, hj, hd⟩ := List.mem_flatMap.mp hd
        exact hc j hj ⟨d, hd, he⟩
    · rintro ⟨j, hj, d, hd, he⟩
      rw [if_pos]
      exact Sink.hasErrors_extend_iff.mpr (.inr ⟨d, List.mem_flatMap.mpr ⟨j, hj, hd⟩, he⟩)
  · intro job hj failure hf
    have hd := failure.diagnostic_build (job.request options).file
    exact ⟨_, Job.block_of_error hf, hd.1, hd.2.1⟩
  · intro hc jobs' hp
    have hc' : ∀ job ∈ jobs', ¬ job.Errs options := fun job hj => hc job (hp.mem_iff.mp hj)
    rw [hbatch jobs', build.runJobs_of_clean ha hs hc', build.runJobs_of_clean ha hs hc]
    exact ⟨rfl, rfl⟩

def cleanJob : Job := { text := "x = 1\n" }

def brokenJob : Job := { text := "(" }

/-- A job behind one that cannot be read records nothing and gets no text, unlike the one before. -/
theorem Build.batch_law_of_broken :
    ({} : Build).hasErrors = false ∧ ({} : Build).abort = false ∧
    ∃ after d, ({} : Build).batch [cleanJob, brokenJob, cleanJob] {} 1 =
        .ok (after, [some "x = 1\n", none, none]) ∧
      after.sink.items = [d] ∧ d.isError = true := by
  obtain ⟨after, texts, hb, hl, -, hsink, hanswers, -, -⟩ :=
    batch_law {} {} [cleanJob, brokenJob, cleanJob] rfl rfl
  have hclean : cleanJob.block {} = [] := by decide +kernel
  have hbroken : brokenJob.Errs {} := by
    unfold Job.Errs
    decide +kernel
  have hfirst : texts[0]? = some (some "x = 1\n") := by
    have halone : (cleanJob.alone {}).2 = some "x = 1\n" := by decide +kernel
    rw [← halone]
    exact (hanswers 0 cleanJob rfl).1 (by simp [Job.Errs, hclean])
  have hsecond : texts[1]? = some none := (hanswers 1 brokenJob rfl).2 ⟨brokenJob, by simp, hbroken⟩
  have hthird : texts[2]? = some none := (hanswers 2 cleanJob rfl).2 ⟨brokenJob, by simp, hbroken⟩
  have htexts : texts = [some "x = 1\n", none, none] := by
    refine List.ext_getElem? fun i => ?_
    match i with
    | 0 => exact hfirst
    | 1 => exact hsecond
    | 2 => exact hthird
    | i + 3 => simp [hl]
  obtain ⟨d, hd⟩ := List.length_eq_one_iff.mp (by decide +kernel : (brokenJob.block {}).length = 1)
  have he : d.isError = true := by simpa [Job.Errs, hd] using hbroken
  refine ⟨rfl, rfl, after, d, htexts ▸ hb, ?_, he⟩
  simp [hsink, hclean, hd, Sink.extend]

end Hydration
