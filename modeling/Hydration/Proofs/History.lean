import Hydration.Proofs.Settling
import Mathlib.Logic.Relation

/-! A build over its whole life. Whatever is done with it, and however the jobs of a batch take
turns, its sink only grows, its count of errors stays right, and once an error is known no text
comes back any more. -/

namespace Hydration

namespace Sink

/-- The errors that a sink counts are those that it holds. -/
def Counted (sink : Sink) : Prop := sink.errorCount = sink.errors.length

/-- The later sink is the earlier one with further diagnostics behind. -/
def Grows (before after : Sink) : Prop := ∃ batch, after = before.extend batch

@[simp] theorem extend_nil (sink : Sink) : sink.extend [] = sink := by simp [extend]

@[simp] theorem extend_extend (sink : Sink) (batch more : List Diagnostic) :
    (sink.extend batch).extend more = sink.extend (batch ++ more) := by
  simp [extend, Nat.add_assoc]

theorem grows_extend (sink : Sink) (batch : List Diagnostic) : sink.Grows (sink.extend batch) :=
  ⟨batch, rfl⟩

theorem Grows.refl (sink : Sink) : sink.Grows sink := ⟨[], by simp⟩

theorem Grows.trans {before mid after : Sink} (h : before.Grows mid) (h' : mid.Grows after) :
    before.Grows after := by
  obtain ⟨batch, rfl⟩ := h
  obtain ⟨more, rfl⟩ := h'
  exact ⟨batch ++ more, by simp⟩

theorem Grows.items {before after : Sink} (h : before.Grows after) :
    before.items <+: after.items := by
  obtain ⟨batch, rfl⟩ := h
  exact ⟨batch, rfl⟩

theorem Grows.counted {before after : Sink} (h : before.Grows after) (hc : before.Counted) :
    after.Counted := by
  obtain ⟨batch, rfl⟩ := h
  unfold Counted errors at hc ⊢
  simp [extend, hc]

theorem Grows.hasErrors {before after : Sink} (h : before.Grows after)
    (he : before.hasErrors = true) : after.hasErrors = true := by
  obtain ⟨batch, rfl⟩ := h
  have hp : 0 < before.errorCount := of_decide_eq_true he
  exact decide_eq_true (Nat.lt_of_lt_of_le hp (Nat.le_add_right ..))

theorem counted_ofList (items : List Diagnostic) : (ofList items).Counted := by
  simp only [Counted, errors, items_ofList, errorCount_ofList, countP_error]

theorem Counted.hasErrors_iff {sink : Sink} (h : sink.Counted) :
    sink.hasErrors = true ↔ ∃ d ∈ sink.items, d.isError = true := by
  simp [Sink.hasErrors, Counted, errors] at h ⊢
  rw [h, List.length_pos_iff_exists_mem]
  simp

end Sink

/-- How far a job of a batch has come: it waits, is being compiled, has handed in its diagnostics,
has found no error known, or has its answer. -/
inductive Progress where
  | waiting (job : Job)
  | compiling (request : Request)
  | reported (output : Output)
  | cleared (output : Output)
  | answered (text : Option String)

def Job.request (options : Options) (job : Job) : Request :=
  requestOf job.text job.components (job.options options)

def Job.reply (options : Options) (job : Job) : Reply := Compiler.standard (job.request options)

theorem Build.runJob_eq (build : Build) (options : Options) (job : Job) :
    build.runJob options job =
      if build.abort then (build, none)
      else build.settle (job.request options).file (job.reply options) :=
  Build.transform_eq ..

/-- One step of a job looks at the build once or changes it once. Between any two of them other
jobs may make theirs. -/
inductive JobStep (options : Options) : Build × Progress → Build × Progress → Prop
  | skip {build : Build} {job : Job} (h : build.abort = true) :
      JobStep options (build, .waiting job) (build, .answered none)
  | start {build : Build} {job : Job} (h : build.abort = false) :
      JobStep options (build, .waiting job) (build, .compiling (job.request options))
  | fail {build : Build} {request : Request} {failure : Failure}
      (h : (Compiler.standard request).outcome = .error failure) :
      JobStep options (build, .compiling request)
        (build.report [failure.diagnostic request.file], .answered none)
  | report {build : Build} {request : Request} {output : Output}
      (h : (Compiler.standard request).outcome = .ok output) :
      JobStep options (build, .compiling request)
        (build.report output.diagnostics, .reported output)
  | veto {build : Build} {output : Output} (h : build.hasErrors = true) :
      JobStep options (build, .reported output) (build, .answered none)
  | clear {build : Build} {output : Output} (h : build.hasErrors = false) :
      JobStep options (build, .reported output) (build, .cleared output)
  | discard {build : Build} {output : Output} (h : build.abort = true) :
      JobStep options (build, .cleared output) (build, .answered none)
  | answer {build : Build} {output : Output} (h : build.abort = false) :
      JobStep options (build, .cleared output) (build, .answered (named? output.text))
  | note {build : Build} {progress : Progress} (record : Record) :
      JobStep options (build, progress) (build.note record, progress)

/-- In a batch any job makes a step, or the abort flag is set or cleared from outside. -/
inductive BatchStep (options : Options) : Build × List Progress → Build × List Progress → Prop
  | job {build after : Build} {progress next : Progress} (front back : List Progress)
      (h : JobStep options (build, progress) (after, next)) :
      BatchStep options (build, front ++ progress :: back) (after, front ++ next :: back)
  | interrupt {build : Build} {jobs : List Progress} (value : Bool) :
      BatchStep options (build, jobs) (build.setAbort value, jobs)

/-- A batch ends when all its jobs have their answers, in whatever order they got them. -/
def Batched (options : Options) (build : Build) (jobs : List Job) (after : Build)
    (texts : List (Option String)) : Prop :=
  Relation.ReflTransGen (BatchStep options) (build, jobs.map .waiting) (after, texts.map .answered)

/-- What a job can have come to while an error is known. -/
def Progress.Vetoed : Progress → Prop
  | .cleared _ => False
  | .answered text => text = none
  | _ => True

theorem JobStep.grows {options : Options} {s t : Build × Progress} (h : JobStep options s t) :
    s.1.sink.Grows t.1.sink := by
  cases h with
  | fail h => exact Sink.grows_extend _ _
  | report h => exact Sink.grows_extend _ _
  | _ => exact .refl _

theorem JobStep.vetoed {options : Options} {s t : Build × Progress} (h : JobStep options s t)
    (he : s.1.hasErrors = true) (hv : s.2.Vetoed) : t.2.Vetoed := by
  cases h with
  | clear h => simp [h] at he
  | discard h => exact hv.elim
  | answer h => exact hv.elim
  | note record => exact hv
  | _ => simp [Progress.Vetoed]

section Batches

variable {options : Options} {s t : Build × List Progress}

theorem BatchStep.grows (h : BatchStep options s t) : s.1.sink.Grows t.1.sink := by
  cases h with
  | job front back h => exact h.grows
  | interrupt value => exact .refl _

theorem BatchStep.length_eq (h : BatchStep options s t) : t.2.length = s.2.length := by
  cases h <;> simp

theorem BatchStep.vetoed (h : BatchStep options s t) (he : s.1.hasErrors = true)
    (hv : ∀ p ∈ s.2, p.Vetoed) : ∀ p ∈ t.2, p.Vetoed := by
  cases h with
  | interrupt value => exact hv
  | @job build after progress next front back h =>
    have hn : next.Vetoed := h.vetoed he (hv progress (by simp))
    intro p hp
    rcases List.mem_append.mp hp with hp | hp
    · exact hv p (List.mem_append_left _ hp)
    · rcases List.mem_cons.mp hp with rfl | hp
      · exact hn
      · exact hv p (List.mem_append_right _ (List.mem_cons_of_mem _ hp))

theorem grows_of_batchSteps (h : Relation.ReflTransGen (BatchStep options) s t) :
    s.1.sink.Grows t.1.sink := by
  induction h with
  | refl => exact .refl _
  | tail _ step ih => exact ih.trans step.grows

theorem length_of_batchSteps (h : Relation.ReflTransGen (BatchStep options) s t) :
    t.2.length = s.2.length := by
  induction h with
  | refl => rfl
  | tail _ step ih => exact step.length_eq.trans ih

theorem vetoed_of_batchSteps (h : Relation.ReflTransGen (BatchStep options) s t)
    (he : s.1.hasErrors = true) (hv : ∀ p ∈ s.2, p.Vetoed) : ∀ p ∈ t.2, p.Vetoed := by
  induction h with
  | refl => exact hv
  | tail path step ih => exact step.vetoed ((grows_of_batchSteps path).hasErrors he) ih

end Batches

theorem Batched.length_eq {options : Options} {build after : Build} {jobs : List Job}
    {texts : List (Option String)} (h : Batched options build jobs after texts) :
    texts.length = jobs.length := by
  simpa using length_of_batchSteps h

theorem Batched.vetoed {options : Options} {build after : Build} {jobs : List Job}
    {texts : List (Option String)} (h : Batched options build jobs after texts)
    (he : build.hasErrors = true) : texts = List.replicate jobs.length none := by
  have hv := vetoed_of_batchSteps h he (by simp [Progress.Vetoed])
  rw [← h.length_eq]
  refine List.eq_replicate_iff.mpr ⟨rfl, ?_⟩
  intro text ht
  exact hv (.answered text) (List.mem_map_of_mem ht)

section Sequential

variable (options : Options)

theorem jobSteps_notes (build : Build) (progress : Progress) (records : List Record) :
    Relation.ReflTransGen (JobStep options) (build, progress)
      ({ build with records := build.records ++ records }, progress) := by
  induction records generalizing build with
  | nil => simpa using Relation.ReflTransGen.refl
  | cons record records ih =>
    refine .head (.note record) ?_
    simpa [Build.note] using ih (build.note record)

theorem jobSteps_accept {build : Build} (ha : build.abort = false) {request : Request}
    {output : Output} (ho : (Compiler.standard request).outcome = .ok output)
    (file : Option String) :
    Relation.ReflTransGen (JobStep options) (build, .compiling request)
      ((build.accept output file).1, .answered (build.accept output file).2) := by
  refine .head (.report ho) ?_
  unfold Build.accept
  by_cases he : (build.report output.diagnostics).hasErrors = true
  · simp only [he, if_true]
    exact .single (.veto he)
  · have ha' : (build.report output.diagnostics).abort = false := ha
    simp only [he, ha']
    refine .head (.clear (by simpa using he)) (.head (.answer ha') ?_)
    cases ht : named? output.text with
    | some text => exact .refl
    | none => exact .single (.note _)

/-- A job that is left undisturbed comes by these steps to what it gives alone. -/
theorem jobSteps_runJob (build : Build) (job : Job) :
    Relation.ReflTransGen (JobStep options) (build, .waiting job)
      ((build.runJob options job).1, .answered (build.runJob options job).2) := by
  rw [Build.runJob_eq]
  cases ha : build.abort with
  | true => exact .single (.skip ha)
  | false =>
    have hear : build.hear (job.reply options) =
        { build with records := build.records ++ (job.reply options).records } := by
      simp [Build.hear, Job.reply, Compiler.standard]
    have ha' : (build.hear (job.reply options)).abort = false := by
      rw [hear]
      exact ha
    have hnotes := jobSteps_notes options build (.compiling (job.request options))
      (job.reply options).records
    rw [← hear] at hnotes
    refine .head (.start ha) (hnotes.trans ?_)
    cases ho : (job.reply options).outcome with
    | error failure =>
      simp only [Bool.false_eq_true, if_false, Build.settle_of_error ho]
      exact .head (.fail ho) (.single (.note _))
    | ok output =>
      simp only [Bool.false_eq_true, if_false, Build.settle_of_ok ho]
      exact jobSteps_accept options ha' ho _

/-- Running the jobs in their order is one way for a batch to go. -/
theorem batched_runJobs (build : Build) (jobs : List Job) :
    Batched options build jobs (build.runJobs options jobs).1 (build.runJobs options jobs).2 := by
  have go (done : List Progress) : Relation.ReflTransGen (BatchStep options)
      (build, done ++ jobs.map .waiting)
      ((build.runJobs options jobs).1, done ++ (build.runJobs options jobs).2.map .answered) := by
    induction jobs generalizing build done with
    | nil => exact .refl
    | cons job jobs ih =>
      have hjob := (jobSteps_runJob options build job).lift
        (fun s => (s.1, done ++ s.2 :: jobs.map .waiting)) fun s t h => BatchStep.job done _ h
      have hrest := ih (build.runJob options job).1
        (done ++ [.answered (build.runJob options job).2])
      simp only [List.append_assoc, List.singleton_append] at hrest
      exact hjob.trans hrest
  exact go []

end Sequential

/-- What can be done with a build. Reporting stands for a single diagnostic, for a batch of them
and for those of a compiler alike, as all are handed over as a list. -/
inductive Operation where
  | setAbort (value : Bool)
  | report (diagnostics : List Diagnostic)
  | catchFailure (failure : Failure) (file : Option String)
  | transform (text : String) (components : List Component) (options : Options)
      (compiler : Compiler)
  | batch (jobs : List Job) (options : Options) (workers : Int)

/-- How many texts, or the lack of them, an operation answers with. A batch without workers is
refused. -/
def Operation.size : Operation → Nat
  | .transform .. => 1
  | .batch jobs _ workers => if workers ≤ 0 then 0 else jobs.length
  | _ => 0

/-- An operation on a build, its answers and the build that it leaves behind. The jobs of a batch
take turns in any way, with however many workers. -/
inductive Operates : Build → Operation → List (Option String) → Build → Prop
  | setAbort {build : Build} {value : Bool} :
      Operates build (.setAbort value) [] (build.setAbort value)
  | report {build : Build} {diagnostics : List Diagnostic} :
      Operates build (.report diagnostics) [] (build.report diagnostics)
  | catchFailure {build : Build} {failure : Failure} {file : Option String} :
      Operates build (.catchFailure failure file) [] (build.catchFailure failure file)
  | transform {build : Build} {text : String} {components : List Component} {options : Options}
      {compiler : Compiler} :
      Operates build (.transform text components options compiler)
        [(build.transform text components options compiler).2]
        (build.transform text components options compiler).1
  | batch {build after : Build} {jobs : List Job} {options : Options} {workers : Int}
      {texts : List (Option String)} (hw : 0 < workers) (h : Batched options build jobs after texts) :
      Operates build (.batch jobs options workers) texts after
  | refused {build : Build} {jobs : List Job} {options : Options} {workers : Int}
      (hw : workers ≤ 0) : Operates build (.batch jobs options workers) [] build

theorem Build.transform_grows (build : Build) (text : String) (components : List Component)
    (options : Options) (compiler : Compiler) :
    build.sink.Grows (build.transform text components options compiler).1.sink := by
  rw [Build.transform_eq]
  split
  · exact .refl _
  · rw [Build.settle_sink]
    exact Sink.grows_extend _ _

theorem Build.transform_vetoed {build : Build} (he : build.hasErrors = true) (text : String)
    (components : List Component) (options : Options) (compiler : Compiler) :
    (build.transform text components options compiler).2 = none := by
  rw [Build.transform_eq]
  split
  · rfl
  · refine Option.eq_none_iff_forall_ne_some.mpr fun result ht => ?_
    have hclean := (Build.settle_text_iff.mp ht).1
    rw [(Sink.grows_extend build.sink _).hasErrors he] at hclean
    exact absurd hclean (by simp)

theorem Operates.grows {build after : Build} {operation : Operation}
    {answers : List (Option String)} (h : Operates build operation answers after) :
    build.sink.Grows after.sink := by
  cases h with
  | setAbort => exact .refl _
  | report => exact Sink.grows_extend _ _
  | catchFailure => exact Sink.grows_extend _ _
  | transform => exact build.transform_grows ..
  | batch hw h => exact grows_of_batchSteps h
  | refused hw => exact .refl _

theorem Operates.vetoed {build after : Build} {operation : Operation}
    {answers : List (Option String)} (h : Operates build operation answers after)
    (he : build.hasErrors = true) : answers = List.replicate operation.size none := by
  cases h with
  | transform => simp [Operation.size, Build.transform_vetoed he]
  | batch hw h => simpa [Operation.size, Int.not_le.mpr hw] using h.vetoed he
  | refused hw => simp [Operation.size, hw]
  | _ => simp [Operation.size]

/-- Every operation comes to an end; a batch does by running its jobs in their order. -/
theorem exists_operates (build : Build) (operation : Operation) :
    ∃ answers after, Operates build operation answers after := by
  cases operation with
  | batch jobs options workers =>
    by_cases hw : workers ≤ 0
    · exact ⟨_, _, .refused hw⟩
    · exact ⟨_, _, .batch (Int.not_le.mp hw) (batched_runJobs _ build jobs)⟩
  | setAbort value => exact ⟨_, _, .setAbort⟩
  | report diagnostics => exact ⟨_, _, .report⟩
  | catchFailure failure file => exact ⟨_, _, .catchFailure⟩
  | transform text components options compiler => exact ⟨_, _, .transform⟩

theorem operates_of_batch {build after : Build} {jobs : List Job} {options : Options}
    {workers : Int} {texts : List (Option String)}
    (h : build.batch jobs options workers = .ok (after, texts)) :
    Operates build (.batch jobs options workers) texts after := by
  unfold Build.batch at h
  by_cases hw : workers ≤ 0
  · simp [hw] at h
  · simp only [hw, if_false, Except.ok.injEq] at h
    have hb := batched_runJobs options build jobs
    rw [h] at hb
    exact .batch (Int.not_le.mp hw) hb

/-- Operations one after another, each with its answers. -/
inductive Passes : Build → List (Operation × List (Option String)) → Build → Prop
  | nil {build : Build} : Passes build [] build
  | cons {build mid after : Build} {operation : Operation} {answers : List (Option String)}
      {history : List (Operation × List (Option String))}
      (h : Operates build operation answers mid) (hs : Passes mid history after) :
      Passes build ((operation, answers) :: history) after

section Histories

variable {build after : Build} {history : List (Operation × List (Option String))}

theorem Passes.grows (h : Passes build history after) : build.sink.Grows after.sink := by
  induction h with
  | nil => exact .refl _
  | cons h _ ih => exact h.grows.trans ih

theorem Passes.vetoed (h : Passes build history after) (he : build.hasErrors = true) :
    ∀ entry ∈ history, entry.2 = List.replicate entry.1.size none := by
  induction h with
  | nil => simp
  | cons h _ ih => exact List.forall_mem_cons.mpr ⟨h.vetoed he, ih (h.grows.hasErrors he)⟩

end Histories

/-- At any point of its life a build counts the errors in its sink and knows of one exactly if the
sink holds one, and any operation can be carried out. All that was reported stays in front of what
comes later, and after an error every transformation and every job answers with no text, whatever
becomes of the abort flag. A batch that is run answers as a batch may. -/
theorem Build.history_invariants {before : List Diagnostic} {abort : Bool} {records : List Record}
    {history : List (Operation × List (Option String))} {build : Build}
    (h : Passes { sink := Sink.ofList before, abort, records } history build) :
    build.sink.errorCount = build.sink.errors.length ∧
    (build.hasErrors = true ↔ ∃ d ∈ build.sink.items, d.isError = true) ∧
    (∀ operation, ∃ answers after, Operates build operation answers after) ∧
    (∀ later after, Passes build later after →
      build.sink.items <+: after.sink.items ∧
      (build.hasErrors = true →
        ∀ entry ∈ later, entry.2 = List.replicate entry.1.size none)) ∧
    (∀ jobs options workers after texts,
      build.batch jobs options workers = .ok (after, texts) →
      Operates build (.batch jobs options workers) texts after) := by
  have hc : build.sink.Counted := h.grows.counted (Sink.counted_ofList before)
  refine ⟨hc, hc.hasErrors_iff, exists_operates build, ?_, ?_⟩
  · intro later after hl
    exact ⟨hl.grows.items, hl.vetoed⟩
  · intro jobs options workers after texts hb
    exact operates_of_batch hb

def brokenBuild : Build :=
  ({ sink := Sink.ofList [], abort := false, records := [] } : Build).report
    [{ message := "broken" }]

/-- An abort that is asked for and taken back, a compiler that gives a text, and two jobs. -/
def laterOperations (text : Option String) (texts : List (Option String)) :
    List (Operation × List (Option String)) :=
  [(.setAbort true, []), (.setAbort false, []),
    (.transform "x = 1" [] {} fun _ => { outcome := .ok { text := some "x = 1" } }, [text]),
    (.batch [{ text := "x = 1" }, { text := "y = 2" }] {} 2, texts)]

theorem Build.history_invariants_of_error :
    Passes { sink := Sink.ofList [], abort := false, records := [] }
      [(.report [{ message := "broken" }], [])] brokenBuild ∧
    brokenBuild.hasErrors = true ∧
    ∃ after text texts, Passes brokenBuild (laterOperations text texts) after ∧
      text = none ∧ texts = [none, none] := by
  have hfirst : Passes { sink := Sink.ofList [], abort := false, records := [] }
      [(.report [{ message := "broken" }], [])] brokenBuild := .cons .report .nil
  have hlater : Passes brokenBuild (laterOperations _ _) _ :=
    .cons .setAbort (.cons .setAbort (.cons .transform
      (.cons (.batch (by decide) (batched_runJobs _ _ _)) .nil)))
  have hall := ((history_invariants hfirst).2.2.2.1 _ _ hlater).2 rfl
  refine ⟨hfirst, rfl, _, _, _, hlater, ?_, ?_⟩
  · simpa [Operation.size] using hall _ (.tail _ (.tail _ (.head _)))
  · simpa [Operation.size] using hall _ (.tail _ (.tail _ (.tail _ (.head _))))

end Hydration
