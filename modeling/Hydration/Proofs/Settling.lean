import Hydration.Build

/-! What a transformation owes to its build. The compiler is asked at most once, its diagnostics
reach the sink in their order, a failure leaves one error behind, and a text comes back only if
nothing forbids it. -/

namespace Hydration

/-- A sink by its contents: the diagnostics, and how many of them are errors. -/
def Sink.ofList (items : List Diagnostic) : Sink where
  items
  errorCount := items.countP fun d => d.severity = .error

theorem Sink.countP_error (items : List Diagnostic) :
    (items.countP fun d => d.severity = .error) = (items.filter Diagnostic.isError).length := by
  rw [List.countP_eq_length_filter]
  congr

@[simp] theorem Sink.items_ofList (items : List Diagnostic) : (Sink.ofList items).items = items :=
  rfl

@[simp] theorem Sink.errorCount_ofList (items : List Diagnostic) :
    (Sink.ofList items).errorCount = items.countP fun d => d.severity = .error :=
  rfl

@[simp] theorem Sink.extend_ofList (items batch : List Diagnostic) :
    (Sink.ofList items).extend batch = Sink.ofList (items ++ batch) := by
  simp only [Sink.ofList, Sink.extend, List.countP_append, Sink.countP_error]

theorem Sink.hasErrors_ofList {items : List Diagnostic} :
    (Sink.ofList items).hasErrors = false ↔ ∀ d ∈ items, d.severity ≠ .error := by
  simp [Sink.ofList, Sink.hasErrors]

theorem named?_eq_some_iff {text : Option String} {name : String} :
    named? text = some name ↔ text = some name ∧ name ≠ "" := by
  cases text with
  | none => simp [named?]
  | some other =>
    simp only [named?, Option.filter_some]
    by_cases he : other.isEmpty = true <;> simp_all
    rintro rfl
    exact he

/-- A failure is always reported as an error of the build itself. -/
theorem Failure.diagnostic_build (failure : Failure) (file : Option String) :
    (failure.diagnostic file).severity = .error ∧ (failure.diagnostic file).category = .build ∧
      (failure.diagnostic file).file = file := by
  cases failure with
  | read error => cases error <;> simp [Failure.diagnostic]
  | badIndent indent => simp [Failure.diagnostic]
  | unknownVersion => simp [Failure.diagnostic]
  | foreignStage kind => simp [Failure.diagnostic]
  | fault fault => simp [Failure.diagnostic]

/-- What a reply adds to the sink: the diagnostics of a compilation, or the one of a failure. -/
def Reply.reported (reply : Reply) (file : Option String) : List Diagnostic :=
  match reply.outcome with
  | .error failure => [failure.diagnostic file]
  | .ok output => output.diagnostics

def Reply.text (reply : Reply) : Option String :=
  match reply.outcome with
  | .error _ => none
  | .ok output => named? output.text

namespace Build

theorem catchFailure_sink (build : Build) (failure : Failure) (file : Option String) :
    (build.catchFailure failure file).sink = build.sink.extend [failure.diagnostic file] := rfl

theorem catchFailure_abort (build : Build) (failure : Failure) (file : Option String) :
    (build.catchFailure failure file).abort = build.abort := rfl

theorem accept_sink (build : Build) (output : Output) (file : Option String) :
    (build.accept output file).1.sink = build.sink.extend output.diagnostics := by
  simp only [accept]
  split
  · rfl
  · split
    · rfl
    · split <;> rfl

theorem accept_abort (build : Build) (output : Output) (file : Option String) :
    (build.accept output file).1.abort = build.abort := by
  simp only [accept]
  split
  · rfl
  · split
    · rfl
    · split <;> rfl

theorem accept_text_iff {build : Build} {output : Output} {file : Option String} {text : String} :
    (build.accept output file).2 = some text ↔
      (build.sink.extend output.diagnostics).hasErrors = false ∧ build.abort = false ∧
        named? output.text = some text := by
  simp only [accept, report, hasErrors]
  by_cases he : (build.sink.extend output.diagnostics).hasErrors = true
  · simp [he]
  · by_cases ha : build.abort = true
    · simp [he, ha]
    · cases ht : named? output.text <;> simp [he, ha]

/-- The build as it is when a reply has come in and nothing is made of its outcome yet. -/
def hear (build : Build) (reply : Reply) : Build :=
  { build with
    abort := build.abort || reply.abort
    records := build.records ++ reply.records }

theorem settle_of_error {build : Build} {file : Option String} {reply : Reply} {failure : Failure}
    (h : reply.outcome = .error failure) :
    build.settle file reply = ((build.hear reply).catchFailure failure file, none) := by
  simp only [settle, h, hear]

theorem settle_of_ok {build : Build} {file : Option String} {reply : Reply} {output : Output}
    (h : reply.outcome = .ok output) :
    build.settle file reply = (build.hear reply).accept output file := by
  simp only [settle, h, hear]

theorem settle_sink (build : Build) (file : Option String) (reply : Reply) :
    (build.settle file reply).1.sink = build.sink.extend (reply.reported file) := by
  cases ho : reply.outcome with
  | error failure => simp [settle_of_error ho, hear, Reply.reported, ho, catchFailure_sink]
  | ok output => simp [settle_of_ok ho, hear, Reply.reported, ho, accept_sink]

theorem settle_abort (build : Build) (file : Option String) (reply : Reply) :
    (build.settle file reply).1.abort = (build.abort || reply.abort) := by
  cases ho : reply.outcome with
  | error failure => simp [settle_of_error ho, hear, catchFailure_abort]
  | ok output => simp [settle_of_ok ho, hear, accept_abort]

theorem settle_text_iff {build : Build} {file : Option String} {reply : Reply} {text : String} :
    (build.settle file reply).2 = some text ↔
      (build.sink.extend (reply.reported file)).hasErrors = false ∧
        (build.abort || reply.abort) = false ∧ reply.text = some text := by
  cases ho : reply.outcome with
  | error failure => simp [settle_of_error ho, Reply.text, ho]
  | ok output => simp [settle_of_ok ho, accept_text_iff, hear, Reply.reported, Reply.text, ho]

/-- What a build that held `before` owes to a reply: the sink grows by what was reported or by the
one error of a failure, the abort flag is the compiler's alone, and a text comes back exactly when
the compiler gave it, asked for no abort, and no error is known. -/
structure Answered (before : List Diagnostic) (file : Option String) (reply : Reply)
    (after : Build × Option String) : Prop where
  abort_eq : after.1.abort = reply.abort
  failed : ∀ failure, reply.outcome = .error failure →
    after.2 = none ∧ ∃ d : Diagnostic, d.severity = .error ∧ d.category = .build ∧
      d.file = file ∧ after.1.sink.items = before ++ [d] ∧
      after.1.sink.errorCount = (before.countP fun d => d.severity = .error) + 1
  reported : ∀ output, reply.outcome = .ok output →
    after.1.sink.items = before ++ output.diagnostics ∧
    after.1.sink.errorCount =
      (before ++ output.diagnostics).countP fun d => d.severity = .error
  text_iff : ∀ text, after.2 = some text ↔
    text ≠ "" ∧ reply.abort = false ∧ ∃ output, reply.outcome = .ok output ∧
      output.text = some text ∧ ∀ d ∈ before ++ output.diagnostics, d.severity ≠ .error

theorem settle_answered (before : List Diagnostic) (records : List Record) (file : Option String)
    (reply : Reply) :
    Answered before file reply
      (settle { sink := Sink.ofList before, abort := false, records } file reply) := by
  cases ho : reply.outcome with
  | error failure =>
    have hd := failure.diagnostic_build file
    constructor
    · simp [settle, ho, catchFailure_abort]
    · intro other he
      rw [ho] at he
      obtain rfl := Except.error.inj he
      refine ⟨by simp [settle, ho], failure.diagnostic file, hd.1, hd.2.1, hd.2.2, ?_, ?_⟩
      · simp [settle, ho, catchFailure_sink]
      · simp [settle, ho, catchFailure_sink, hd.1]
    · intro output he
      simp [ho] at he
    · simp [settle, ho]
  | ok output =>
    constructor
    · simp [settle, ho, accept_abort]
    · intro failure he
      simp [ho] at he
    · intro other he
      rw [ho] at he
      obtain rfl := Except.ok.inj he
      simp [settle, ho, accept_sink]
    · intro text
      simp only [settle, ho, accept_text_iff, Sink.extend_ofList, Sink.hasErrors_ofList,
        named?_eq_some_iff, Bool.false_or, Except.ok.injEq, exists_eq_left']
      constructor
      · rintro ⟨hclean, habort, htext, hne⟩
        exact ⟨hne, habort, htext, hclean⟩
      · rintro ⟨hne, habort, htext, hclean⟩
        exact ⟨hclean, habort, htext, hne⟩

theorem transform_eq (build : Build) (text : String) (components : List Component)
    (options : Options) (compiler : Compiler) :
    build.transform text components options compiler =
      if build.abort then (build, none)
      else build.settle (requestOf text components options).file
        (compiler (requestOf text components options)) := by
  unfold transform transformWith
  split <;> rfl

/-- The contract of a transformation, for any contents of the sink and any compiler. Once an abort
was asked for, nothing is asked of the compiler, whatever asking it would do, and the build stays
as it is. Otherwise the compiler is asked once and its reply is answered. -/
theorem transform_contract {m : Type → Type} [Monad m] (compile : Request → m Reply)
    (compiler : Compiler) (before : List Diagnostic) (abort : Bool) (records : List Record)
    (text : String) (components : List Component) (options : Options) :
    let build : Build := { sink := Sink.ofList before, abort, records }
    let request := requestOf text components options
    (abort = true →
      build.transformWith compile text components options = pure (build, none) ∧
      build.transform text components options compiler = (build, none)) ∧
    (abort = false →
      build.transformWith compile text components options =
        (do return build.settle request.file (← compile request)) ∧
      Answered before request.file (compiler request)
        (build.transform text components options compiler)) := by
  intro build request
  refine ⟨?_, ?_⟩
  · rintro rfl
    exact ⟨rfl, rfl⟩
  · rintro rfl
    refine ⟨rfl, ?_⟩
    rw [transform_eq]
    exact settle_answered before records request.file (compiler request)

/-- A compiler that asks for an abort and then fails. -/
def failingCompiler : Compiler := fun _ =>
  { outcome := .error (.fault ⟨"ValueError", [.text "no such table"]⟩), abort := true }

/-- A build with a warning in its sink, before and after it gives way to an abort. -/
def warnedBuild (abort : Bool) : Build :=
  { sink := Sink.ofList [{ severity := .warning, message := "unused" }], abort, records := [] }

/-- The failure is one error behind the warning, and the next module is not looked at. -/
theorem transform_contract_of_failing :
    let after := (warnedBuild false).transform "x = 1\n" [] { fileName := some "a.py" } failingCompiler
    after.2 = none ∧ after.1.abort = true ∧ after.1.sink.errorCount = 1 ∧
    (∃ d : Diagnostic, d.severity = .error ∧ d.category = .build ∧ d.file = some "a.py" ∧
      after.1.sink.items = [{ severity := .warning, message := "unused" }, d]) ∧
    (warnedBuild true).transform "x = 1\n" [] {} failingCompiler = (warnedBuild true, none) := by
  intro after
  have hanswered : Answered [{ severity := .warning, message := "unused" }] (some "a.py")
      (failingCompiler (requestOf "x = 1\n" [] { fileName := some "a.py" })) after :=
    ((transform_contract (fun request => pure (f := Id) (failingCompiler request)) failingCompiler
      [{ severity := .warning, message := "unused" }] false [] "x = 1\n" []
      { fileName := some "a.py" }).2 rfl).2
  obtain ⟨hnone, d, hs, hc, hf, hitems, hcount⟩ := hanswered.failed _ rfl
  refine ⟨hnone, hanswered.abort_eq, hcount, ⟨d, hs, hc, hf, hitems⟩, ?_⟩
  exact ((transform_contract (fun request => pure (f := Id) (failingCompiler request))
    failingCompiler [{ severity := .warning, message := "unused" }] true [] "x = 1\n" [] {}).1 rfl).2

end Build

end Hydration
