import Hydration.Proofs.Success
import Hydration.Stage

/-! The order of a compilation. Its passes may act on a world around them, so that it shows what is done
before what. Main statement: a stage that is no pass is refused before anything is read, a text that is
refused keeps every pass from running, and otherwise each pass is given the module of the one before. -/

namespace Hydration

open Syntax Transform

section Refusals

variable {text : String} {options : Options} {failure : Failure}

theorem checkVersion_eq_error (h : checkVersion options = .error failure) :
    failure = .unknownVersion := by
  unfold checkVersion at h
  cases hv : named? options.targetVersion with
  | none => simp [hv] at h
  | some version =>
    simp only [hv] at h
    cases hn : readVersion version with
    | none =>
      simp only [hn, Except.error.injEq] at h
      exact h.symm
    | some number =>
      simp only [hn] at h
      split at h
      · cases h
      · exact (Except.error.inj h).symm

theorem checkVersion_of_toOption (h : (checkVersion options).toOption = none) :
    checkVersion options = .error .unknownVersion := by
  cases hc : checkVersion options with
  | ok version => simp [hc, Except.toOption] at h
  | error failure => rw [checkVersion_eq_error hc]

/-- The version of the grammar is looked at before the text. -/
theorem readModule_eq_error :
    readModule options text = .error failure ↔
      checkVersion options = .error failure ∨
        (∃ version, checkVersion options = .ok version) ∧
          ∃ e, Module.parse text = .error e ∧ .read e = failure := by
  simp only [readModule, bind_eq_error, mapError_eq_error, exists_and_right]

end Refusals

abbrev Step (m : Type → Type) := Context → Module → m PassOutput

/-- A stage whose pass runs in a monad. -/
inductive StageIn (m : Type → Type) where
  | pass (run : Step m)
  | foreign (kind : String)

def Stage.plain : Stage → StageIn (Except Failure)
  | .pass known => .pass known.run
  | .foreign kind => .foreign kind

section Monads

variable {m : Type → Type}

def checkStagesIn : List (StageIn m) → Except Failure (List (Step m))
  | [] => .ok []
  | .foreign kind :: _ => .error (.foreignStage kind)
  | .pass run :: rest => do return run :: (← checkStagesIn rest)

def runPassesIn [Monad m] (context : Context) (passes : List (Step m)) (tree : Module) :
    m PassOutput :=
  passes.foldlM (fun result run => do
    let next ← run context result.module
    return ⟨next.module, result.diagnostics ++ next.diagnostics⟩) ⟨tree, []⟩

/-- The steps of a compilation in a monad in which they may fail. -/
def runStagesIn [Monad m] [MonadExceptOf Failure m] (read : m Module) (context : Context)
    (stages : List (StageIn m)) : m Output := do
  let passes ← MonadExcept.ofExcept (checkStagesIn stages)
  let tree ← read
  let result ← runPassesIn context passes tree
  return { text := some result.module.render, diagnostics := result.diagnostics }

theorem checkStagesIn_plain (stages : List Stage) :
    checkStagesIn (stages.map Stage.plain) =
      (checkStages stages).map fun passes => passes.map Pass.run := by
  induction stages with
  | nil => rfl
  | cons stage stages ih =>
    cases stage with
    | foreign kind => rfl
    | pass known =>
      rw [List.map_cons, Stage.plain, checkStagesIn, ih, checkStages]
      cases checkStages stages <;> rfl

/-- Where passes only fail or give a module, these are the steps of the program. -/
theorem runStages_eq (text : String) (options : Options) (stages : List Stage) (file : Option String) :
    runStages text options stages file =
      runStagesIn (readModule options text) (contextOf options file) (stages.map Stage.plain) := by
  rw [runStages, runStagesIn, checkStagesIn_plain]
  cases checkStages stages with
  | error e => rfl
  | ok passes =>
    have hpasses (tree : Module) : runPassesIn (contextOf options file) (passes.map Pass.run) tree =
        runPasses (contextOf options file) passes tree := List.foldlM_map ..
    cases readModule options text with
    | error e => rfl
    | ok tree =>
      change (runPasses _ passes tree >>= _) = (runPassesIn _ (passes.map Pass.run) tree >>= _)
      rw [hpasses]

variable [Monad m] [LawfulMonad m]

theorem runPassesIn_cons (context : Context) (run : Step m) (passes : List (Step m)) (tree : Module) :
    runPassesIn context (run :: passes) tree = (do
      let next ← run context tree
      let rest ← runPassesIn context passes next.module
      return ⟨rest.module, next.diagnostics ++ rest.diagnostics⟩) := by
  have go (output : PassOutput) :
      passes.foldlM (fun result run => do
        let next ← run context result.module
        return (⟨next.module, result.diagnostics ++ next.diagnostics⟩ : PassOutput)) output = (do
      let rest ← runPassesIn context passes output.module
      return ⟨rest.module, output.diagnostics ++ rest.diagnostics⟩) := by
    induction passes generalizing output with
    | nil => simp [runPassesIn]
    | cons run passes ih =>
      simp only [runPassesIn, List.foldlM_cons, bind_assoc, pure_bind] at ih ⊢
      refine bind_congr fun next => ?_
      rw [ih, ih ⟨next.module, [] ++ next.diagnostics⟩]
      simp
  simp only [runPassesIn, List.foldlM_cons, bind_assoc, pure_bind] at go ⊢
  refine bind_congr fun next => ?_
  rw [go]
  rfl

/-- Passes that follow others are given their module, and report behind them. -/
theorem runPassesIn_append (context : Context) (front back : List (Step m)) (tree : Module) :
    runPassesIn context (front ++ back) tree = (do
      let first ← runPassesIn context front tree
      let last ← runPassesIn context back first.module
      return ⟨last.module, first.diagnostics ++ last.diagnostics⟩) := by
  induction front generalizing tree with
  | nil => simp [runPassesIn]
  | cons run front ih => simp [runPassesIn_cons, ih]

end Monads

/-- What may fail and acts on a world, also where it fails. -/
abbrev Acting (σ : Type) := ExceptT Failure (StateM σ)

section Outcomes

variable {σ α β : Type}

def outcome (x : Acting σ α) (s : σ) : Except Failure α × σ := x s

@[simp] theorem outcome_pure (a : α) (s : σ) : outcome (pure a) s = (.ok a, s) := rfl

theorem outcome_bind (x : Acting σ α) (f : α → Acting σ β) (s : σ) :
    outcome (x >>= f) s =
      match outcome x s with
      | (.ok a, s') => outcome (f a) s'
      | (.error e, s') => (.error e, s') := by
  have hbind : outcome (x >>= f) s = (ExceptT.bindCont f (outcome x s).1).run (outcome x s).2 := rfl
  rw [hbind]
  rcases outcome x s with ⟨e | a, s'⟩ <;> rfl

theorem outcome_bind_of_ok {x : Acting σ α} {a : α} {s s' : σ} (h : outcome x s = (.ok a, s'))
    (f : α → Acting σ β) : outcome (x >>= f) s = outcome (f a) s' := by
  rw [outcome_bind, h]

theorem outcome_bind_of_error {x : Acting σ α} {e : Failure} {s s' : σ}
    (h : outcome x s = (.error e, s')) (f : α → Acting σ β) :
    outcome (x >>= f) s = (.error e, s') := by
  rw [outcome_bind, h]

theorem outcome_bind_eq_ok {x : Acting σ α} {f : α → Acting σ β} {b : β} {s s' : σ} :
    outcome (x >>= f) s = (.ok b, s') ↔
      ∃ a mid, outcome x s = (.ok a, mid) ∧ outcome (f a) mid = (.ok b, s') := by
  rw [outcome_bind]
  rcases outcome x s with ⟨e | a, mid⟩ <;> simp

end Outcomes

inductive Deed where
  | read | ran
deriving DecidableEq

/-- A world, and what was done in it. -/
structure World (σ : Type) where
  state : σ
  deeds : List Deed := []

section Recorded

variable {σ : Type}

def readRecorded (options : Options) (text : String) : Acting (World σ) Module := fun world =>
  (readModule options text, { world with deeds := world.deeds ++ [.read] })

def Step.record (run : Step (Acting σ)) : Step (Acting (World σ)) := fun context tree world =>
  let (result, state) := outcome (run context tree) world.state
  (result, { state, deeds := world.deeds ++ [.ran] })

def StageIn.record : StageIn (Acting σ) → StageIn (Acting (World σ))
  | .pass run => .pass (Step.record run)
  | .foreign kind => .foreign kind

/-- What leaves the world alone. -/
def quietly {α : Type} (x : Except Failure α) : Acting σ α := fun s => (x, s)

def Step.quiet (run : Step (Except Failure)) : Step (Acting σ) := fun context tree =>
  quietly (run context tree)

def StageIn.quiet : StageIn (Except Failure) → StageIn (Acting σ)
  | .pass run => .pass (Step.quiet run)
  | .foreign kind => .foreign kind

/-- A compilation, with what it does to the world and when it reads and runs. -/
def runRecorded (text : String) (options : Options) (stages : List (StageIn (Acting σ)))
    (file : Option String) (s : σ) : Except Failure Output × World σ :=
  outcome (runStagesIn (readRecorded options text) (contextOf options file)
    (stages.map StageIn.record)) { state := s }

/-- Each pass is given the module that the one before gave, in the world that it left. -/
inductive Feeds (context : Context) :
    List (Step (Acting σ)) → Module → σ → List PassOutput → Module → σ → Prop
  | nil (tree : Module) (s : σ) : Feeds context [] tree s [] tree s
  | cons {run : Step (Acting σ)} {passes : List (Step (Acting σ))} {tree last : Module} {s mid s' : σ}
      {next : PassOutput} {outputs : List PassOutput}
      (first : outcome (run context tree) s = (.ok next, mid))
      (rest : Feeds context passes next.module mid outputs last s') :
      Feeds context (run :: passes) tree s (next :: outputs) last s'

section Feeds

variable {context : Context} {passes : List (Step (Acting σ))} {tree last : Module} {s s' : σ}

/-- Passes that all succeed feed one another, and report in their order. -/
theorem outcome_runPassesIn_iff {result : PassOutput} :
    outcome (runPassesIn context passes tree) s = (.ok result, s') ↔
      ∃ outputs, Feeds context passes tree s outputs result.module s' ∧
        result.diagnostics = outputs.flatMap (·.diagnostics) := by
  induction passes generalizing tree s s' result with
  | nil =>
    constructor
    · intro h
      obtain ⟨ho, rfl⟩ := Prod.mk.inj h
      obtain rfl := Except.ok.inj ho
      exact ⟨[], .nil tree s, rfl⟩
    · rintro ⟨outputs, hf, hd⟩
      obtain ⟨module, diagnostics⟩ := result
      cases hf
      obtain rfl : diagnostics = [] := hd
      rfl
  | cons run passes ih =>
    rw [runPassesIn_cons]
    simp only [outcome_bind_eq_ok, ih]
    constructor
    · rintro ⟨next, mid, hn, rest, after, ⟨outputs, hf, hd⟩, hr⟩
      obtain ⟨ho, rfl⟩ := Prod.mk.inj hr
      obtain rfl := Except.ok.inj ho
      exact ⟨next :: outputs, .cons hn hf, by rw [List.flatMap_cons, hd]⟩
    · rintro ⟨outputs, hf, hd⟩
      obtain ⟨module, diagnostics⟩ := result
      cases hf with
      | @cons _ _ _ _ _ mid _ next outputs first rest =>
        refine ⟨next, mid, first, ⟨module, outputs.flatMap (·.diagnostics)⟩, s', ⟨_, rest, rfl⟩, ?_⟩
        rw [List.flatMap_cons] at hd
        rw [outcome_pure, ← hd]

end Feeds

section Deeds

variable (context : Context) (passes : List (Step (Acting σ))) (tree : Module) (s : σ)

/-- Recording changes nothing but the record: all passes have run where none failed, and at least one
where one did. -/
theorem outcome_record (deeds : List Deed) :
    ∃ n, outcome (runPassesIn context (passes.map Step.record) tree) ⟨s, deeds⟩ =
        ((outcome (runPassesIn context passes tree) s).1,
          ⟨(outcome (runPassesIn context passes tree) s).2, deeds ++ List.replicate n .ran⟩) ∧
      ((∃ result, (outcome (runPassesIn context passes tree) s).1 = .ok result) →
        n = passes.length) ∧
      ((∃ e, (outcome (runPassesIn context passes tree) s).1 = .error e) → 0 < n) := by
  -- Both runs take the same steps, so the record is all that can differ between their states.
  induction passes generalizing tree s deeds with
  | nil => exact ⟨0, by simp [runPassesIn], fun _ => rfl, by simp [runPassesIn]⟩
  | cons run passes ih =>
    rw [List.map_cons, runPassesIn_cons, runPassesIn_cons]
    have hrecord : outcome (Step.record run context tree) ⟨s, deeds⟩ =
        ((outcome (run context tree) s).1,
          ⟨(outcome (run context tree) s).2, deeds ++ [.ran]⟩) := rfl
    rcases hrun : outcome (run context tree) s with ⟨e | next, mid⟩
    · rw [hrun] at hrecord
      rw [outcome_bind_of_error hrecord, outcome_bind_of_error hrun]
      exact ⟨1, rfl, by simp, fun _ => Nat.one_pos⟩
    · rw [hrun] at hrecord
      rw [outcome_bind_of_ok hrecord, outcome_bind_of_ok hrun]
      obtain ⟨n, hn, hok, herror⟩ := ih next.module mid (deeds ++ [.ran])
      rcases hrest : outcome (runPassesIn context passes next.module) mid with ⟨e | rest, s'⟩
      · rw [hrest] at hn hok herror
        rw [outcome_bind_of_error hn, outcome_bind_of_error hrest]
        exact ⟨n + 1, by simp [List.replicate_succ], by simp, fun _ => Nat.succ_pos n⟩
      · rw [hrest] at hn hok herror
        rw [outcome_bind_of_ok hn, outcome_bind_of_ok hrest]
        refine ⟨n + 1, by simp [List.replicate_succ], fun _ => ?_, fun _ => Nat.succ_pos n⟩
        rw [hok ⟨rest, rfl⟩, List.length_cons]

end Deeds

section Compilations

variable {text : String} {options : Options} {file : Option String}
  {stages : List (StageIn (Acting σ))} {passes : List (Step (Acting σ))} {s : σ}

/-- Stages are passes one and all, or there is a first that is none. -/
theorem passes_or_foreign {m : Type → Type} (stages : List (StageIn m)) :
    (∃ passes : List (Step m), stages = passes.map StageIn.pass) ∨
      ∃ (front : List (Step m)) (kind : String) (back : List (StageIn m)),
        stages = front.map StageIn.pass ++ .foreign kind :: back := by
  induction stages with
  | nil => exact .inl ⟨[], rfl⟩
  | cons stage stages ih =>
    cases stage with
    | foreign kind => exact .inr ⟨[], kind, stages, rfl⟩
    | pass run =>
      rcases ih with ⟨passes, rfl⟩ | ⟨front, kind, back, rfl⟩
      · exact .inl ⟨run :: passes, rfl⟩
      · exact .inr ⟨run :: front, kind, back, rfl⟩

theorem checkStagesIn_passes {m : Type → Type} (passes : List (Step m)) :
    checkStagesIn (passes.map StageIn.pass) = .ok passes := by
  induction passes with
  | nil => rfl
  | cons run passes ih =>
    rw [List.map_cons, checkStagesIn, ih]
    rfl

theorem checkStagesIn_foreign {m : Type → Type} (front : List (Step m)) (kind : String)
    (back : List (StageIn m)) :
    checkStagesIn (front.map StageIn.pass ++ .foreign kind :: back) = .error (.foreignStage kind) := by
  induction front with
  | nil => rfl
  | cons run front ih =>
    rw [List.map_cons, List.cons_append, checkStagesIn, ih]
    rfl

theorem map_record (passes : List (Step (Acting σ))) :
    (passes.map StageIn.pass).map StageIn.record = (passes.map Step.record).map StageIn.pass := by
  simp only [List.map_map]
  rfl

/-- A stage that is no pass is refused before anything is done. -/
theorem runRecorded_foreign (front : List (Step (Acting σ))) (kind : String)
    (back : List (StageIn (Acting σ))) :
    runRecorded text options (front.map StageIn.pass ++ .foreign kind :: back) file s =
      (.error (.foreignStage kind), { state := s }) := by
  rw [runRecorded, List.map_append, map_record, List.map_cons, StageIn.record, runStagesIn,
    checkStagesIn_foreign]
  rfl

theorem runRecorded_unread {e : Failure} (h : readModule options text = .error e) :
    runRecorded text options (passes.map StageIn.pass) file s =
      (.error e, { state := s, deeds := [.read] }) := by
  rw [runRecorded, map_record, runStagesIn, checkStagesIn_passes]
  have hread : outcome (readRecorded options text) ⟨s, []⟩ = (.error e, ⟨s, [.read]⟩) := by
    rw [← h]
    rfl
  exact outcome_bind_of_error hread _

variable (file passes s) in
/-- What a module gives that was read: what its passes give, as a text. -/
theorem runRecorded_read {tree : Module} (h : readModule options text = .ok tree) :
    ∃ n, runRecorded text options (passes.map StageIn.pass) file s =
        ((outcome (runPassesIn (contextOf options file) passes tree) s).1.map fun result =>
            { text := some result.module.render, diagnostics := result.diagnostics },
          { state := (outcome (runPassesIn (contextOf options file) passes tree) s).2
            deeds := .read :: List.replicate n .ran }) ∧
      ((∃ result, (outcome (runPassesIn (contextOf options file) passes tree) s).1 = .ok result) →
        n = passes.length) ∧
      ((∃ e, (outcome (runPassesIn (contextOf options file) passes tree) s).1 = .error e) → 0 < n) := by
  have hread : outcome (readRecorded options text) ⟨s, []⟩ = (.ok tree, ⟨s, [.read]⟩) := by
    rw [← h]
    rfl
  obtain ⟨n, hn, hcount⟩ := outcome_record (contextOf options file) passes tree s [.read]
  refine ⟨n, ?_, hcount⟩
  rw [runRecorded, map_record, runStagesIn, checkStagesIn_passes]
  refine (outcome_bind_of_ok hread _).trans ?_
  rcases hp : outcome (runPassesIn (contextOf options file) passes tree) s with ⟨e | result, s'⟩
  · rw [hp] at hn
    exact outcome_bind_of_error hn _
  · rw [hp] at hn
    exact outcome_bind_of_ok hn _

theorem quietly_bind {α β : Type} (x : Except Failure α) (f : α → Except Failure β) :
    (quietly x >>= fun a => quietly (f a) : Acting σ β) = quietly (x >>= f) := by
  cases x <;> rfl

theorem runPassesIn_quiet (context : Context) (passes : List (Step (Except Failure))) (tree : Module) :
    (runPassesIn context (passes.map Step.quiet) tree : Acting σ PassOutput) =
      quietly (runPassesIn context passes tree) := by
  induction passes generalizing tree with
  | nil => rfl
  | cons run passes ih =>
    rw [List.map_cons, runPassesIn_cons, runPassesIn_cons, ← quietly_bind]
    refine bind_congr fun next => ?_
    rw [ih, ← quietly_bind]
    rfl

/-- The run of passes that leave the world alone is the run of the program. -/
theorem runRecorded_quiet (text : String) (options : Options) (stages : List Stage)
    (file : Option String) (s : σ) :
    (runRecorded text options (stages.map fun stage => stage.plain.quiet) file s).1 =
      runStages text options stages file := by
  have hmap : (stages.map fun stage => (stage.plain.quiet : StageIn (Acting σ))) =
      (stages.map Stage.plain).map StageIn.quiet := by rw [List.map_map]; rfl
  rw [runStages_eq, hmap, runStagesIn]
  rcases passes_or_foreign (stages.map Stage.plain) with ⟨passes, hp⟩ | ⟨front, kind, back, hp⟩
  · have hquiet : (passes.map StageIn.pass).map (StageIn.quiet : _ → StageIn (Acting σ)) =
        (passes.map Step.quiet).map StageIn.pass := by
      simp only [List.map_map]
      rfl
    rw [hp, hquiet, checkStagesIn_passes]
    cases h : readModule options text with
    | error e =>
      rw [runRecorded_unread h]
      rfl
    | ok tree =>
      obtain ⟨n, hn, -⟩ := runRecorded_read file (passes.map Step.quiet) s h
      rw [hn, runPassesIn_quiet]
      change (runPassesIn _ passes tree).map _ = (runPassesIn _ passes tree >>= _)
      cases runPassesIn (contextOf options file) passes tree <;> rfl
  · have hquiet : (front.map StageIn.pass ++ .foreign kind :: back).map (StageIn.quiet : _ → StageIn (Acting σ)) =
        (front.map Step.quiet).map StageIn.pass ++ .foreign kind :: back.map StageIn.quiet := by
      simp only [List.map_append, List.map_map, List.map_cons]
      rfl
    rw [hp, hquiet, runRecorded_foreign, checkStagesIn_foreign]
    rfl

theorem runRecorded_deeds_ne_nil (text : String) (options : Options) (passes : List (Step (Acting σ)))
    (file : Option String) (s : σ) :
    (runRecorded text options (passes.map StageIn.pass) file s).2.deeds ≠ [] := by
  cases h : readModule options text with
  | error e => simp [runRecorded_unread h]
  | ok tree =>
    obtain ⟨n, hn, -⟩ := runRecorded_read file passes s h
    simp [hn]

theorem runRecorded_eq_unread_iff {e : Failure} :
    runRecorded text options (passes.map StageIn.pass) file s =
        (.error e, { state := s, deeds := [.read] }) ↔
      readModule options text = .error e := by
  refine ⟨fun hr => ?_, runRecorded_unread⟩
  cases h : readModule options text with
  | error own =>
    rw [runRecorded_unread h] at hr
    exact congrArg Except.error (Except.error.inj (Prod.mk.inj hr).1)
  | ok tree =>
    obtain ⟨n, hn, -, hpos⟩ := runRecorded_read file passes s h
    rw [hn] at hr
    obtain ⟨hresult, hworld⟩ := Prod.mk.inj hr
    -- A pass that failed has left its record.
    have hzero : n = 0 := by simpa using congrArg World.deeds hworld
    cases hp : (outcome (runPassesIn (contextOf options file) passes tree) s).1 with
    | error own => exact absurd (hpos ⟨own, hp⟩) (by omega)
    | ok result =>
      rw [hp] at hresult
      cases hresult

theorem runRecorded_eq_ok_iff {tree : Module} (h : readModule options text = .ok tree)
    {output : Output} {world : World σ} :
    runRecorded text options (passes.map StageIn.pass) file s = (.ok output, world) ↔
      ∃ result s', outcome (runPassesIn (contextOf options file) passes tree) s = (.ok result, s') ∧
        output = { text := some result.module.render, diagnostics := result.diagnostics } ∧
        world = { state := s', deeds := .read :: List.replicate passes.length .ran } := by
  obtain ⟨n, hn, hall, -⟩ := runRecorded_read file passes s h
  rw [hn]
  rcases hp : outcome (runPassesIn (contextOf options file) passes tree) s with ⟨e | result, s'⟩
  · simp [Except.map]
  · rw [hall ⟨result, by rw [hp]⟩]
    constructor
    · intro hr
      obtain ⟨ho, hw⟩ := Prod.mk.inj hr
      exact ⟨result, s', rfl, (Except.ok.inj ho).symm, hw.symm⟩
    · rintro ⟨own, s₁, he, rfl, rfl⟩
      obtain ⟨hr, rfl⟩ := Prod.mk.inj he
      obtain rfl := Except.ok.inj hr
      rfl

/-- A run whose passes do not fail, told by what each of them is given. -/
theorem runRecorded_eq_ok_iff_feeds {tree : Module} (h : readModule options text = .ok tree)
    {output : Output} {world : World σ} :
    runRecorded text options (passes.map StageIn.pass) file s = (.ok output, world) ↔
      ∃ outputs last s', Feeds (contextOf options file) passes tree s outputs last s' ∧
        output = { text := some last.render, diagnostics := outputs.flatMap (·.diagnostics) } ∧
        world = { state := s', deeds := .read :: List.replicate passes.length .ran } := by
  refine (runRecorded_eq_ok_iff h).trans ?_
  simp only [outcome_runPassesIn_iff]
  constructor
  · rintro ⟨result, s', ⟨outputs, hf, hd⟩, rfl, rfl⟩
    exact ⟨outputs, result.module, s', hf, by rw [hd], rfl⟩
  · rintro ⟨outputs, last, s', hf, rfl, rfl⟩
    exact ⟨⟨last, _⟩, s', ⟨outputs, hf, rfl⟩, rfl, rfl⟩

/-- A run goes on behind its front part as one that is given what the front part leaves. -/
theorem runRecorded_append_eq_ok_iff {tree : Module} (h : readModule options text = .ok tree)
    {front back : List (Step (Acting σ))} {first : PassOutput} {mid : σ}
    (hfirst : outcome (runPassesIn (contextOf options file) front tree) s = (.ok first, mid))
    {output : Output} {world : World σ} :
    runRecorded text options ((front ++ back).map StageIn.pass) file s = (.ok output, world) ↔
      ∃ last s', outcome (runPassesIn (contextOf options file) back first.module) mid =
          (.ok last, s') ∧
        output = { text := some last.module.render
                   diagnostics := first.diagnostics ++ last.diagnostics } ∧
        world = { state := s', deeds := .read :: List.replicate (front ++ back).length .ran } := by
  refine (runRecorded_eq_ok_iff h).trans ?_
  rw [runPassesIn_append, outcome_bind_of_ok hfirst]
  simp only [outcome_bind_eq_ok, outcome_pure]
  constructor
  · rintro ⟨result, s', ⟨last, after, hlast, hr⟩, rfl, rfl⟩
    obtain ⟨ho, rfl⟩ := Prod.mk.inj hr
    obtain rfl := Except.ok.inj ho
    exact ⟨last, after, hlast, rfl, rfl⟩
  · rintro ⟨last, s', hlast, rfl, rfl⟩
    exact ⟨_, s', ⟨last, s', hlast, rfl⟩, rfl, rfl⟩

/-- Nothing is done exactly if some stage is no pass. -/
theorem runRecorded_eq_idle_iff :
    (∃ e, runRecorded text options stages file s = (.error e, { state := s, deeds := [] })) ↔
      ∃ kind, .foreign kind ∈ stages := by
  rcases passes_or_foreign stages with ⟨passes, rfl⟩ | ⟨front, kind, back, rfl⟩
  · refine iff_of_false ?_ (by simp)
    rintro ⟨e, he⟩
    exact runRecorded_deeds_ne_nil text options passes file s (by rw [he])
  · exact iff_of_true ⟨_, runRecorded_foreign front kind back⟩ ⟨kind, by simp⟩

end Compilations

end Recorded

/-- The order of a compilation whose passes may act on a world. If they leave it alone it is that of the
program. A stage that is no pass, wherever it stands, is refused before anything is read or run. If all
are passes, a version or a text that is refused keeps all of them from running. Otherwise, where none
fails, each is given the module of the one before, the last module is written, and the reports stand in
the order of the passes; and the passes behind a front part run on its module and report behind it. -/
theorem stages_run_in_order {σ : Type} (text : String) (options : Options) (file : Option String)
    (stages : List (StageIn (Acting σ))) (s : σ) :
    let context := contextOf options file
    let run := runRecorded text options stages file s
    (∀ plain : List Stage,
      (runRecorded text options (plain.map fun stage => stage.plain.quiet) file s).1 =
        runStages text options plain file) ∧
    ((∃ e, run = (.error e, { state := s, deeds := [] })) ↔ ∃ kind, .foreign kind ∈ stages) ∧
    (∀ (front : List (Step (Acting σ))) kind back,
      stages = front.map StageIn.pass ++ .foreign kind :: back →
      run = (.error (.foreignStage kind), { state := s, deeds := [] })) ∧
    ∀ passes : List (Step (Acting σ)), stages = passes.map StageIn.pass →
      (∀ e, run = (.error e, { state := s, deeds := [.read] }) ↔
        checkVersion options = .error e ∨
          (∃ version, checkVersion options = .ok version) ∧
            ∃ own, Module.parse text = .error own ∧ .read own = e) ∧
      ∀ tree, readModule options text = .ok tree →
        (∀ output world, run = (.ok output, world) ↔ ∃ outputs last s',
          Feeds context passes tree s outputs last s' ∧
            output = { text := some last.render, diagnostics := outputs.flatMap (·.diagnostics) } ∧
            world = { state := s', deeds := .read :: List.replicate passes.length .ran }) ∧
        ∀ front back, passes = front ++ back → ∀ first mid,
          outcome (runPassesIn context front tree) s = (.ok first, mid) →
          ∀ output world, run = (.ok output, world) ↔ ∃ last s',
            outcome (runPassesIn context back first.module) mid = (.ok last, s') ∧
              output = { text := some last.module.render
                         diagnostics := first.diagnostics ++ last.diagnostics } ∧
              world = { state := s', deeds := .read :: List.replicate passes.length .ran } := by
  intro context run
  refine ⟨fun plain => runRecorded_quiet text options plain file s, runRecorded_eq_idle_iff, ?_, ?_⟩
  · rintro front kind back rfl
    exact runRecorded_foreign front kind back
  · rintro passes rfl
    refine ⟨fun e => ?_, fun tree ht => ⟨fun output world => runRecorded_eq_ok_iff_feeds ht, ?_⟩⟩
    · rw [← readModule_eq_error]
      exact runRecorded_eq_unread_iff
    · rintro front back rfl first mid hfirst output world
      exact runRecorded_append_eq_ok_iff ht hfirst

/-- A pass that counts its runs, and reports the count. -/
def counting : Step (Acting Nat) := fun _ tree n =>
  (.ok ⟨tree, [{ message := toString n }]⟩, n + 1)

/-- Two passes that count, behind which something else may stand, and a version that is not known. -/
theorem stages_run_in_order_of_counting :
    (∃ e, runRecorded "x = 1\n" {} [.pass counting, .foreign "int"] none 0 =
      (.error e, { state := 0, deeds := [] })) ∧
    runRecorded "x = 1\n" { targetVersion := some "2.1" } [.pass counting] none 0 =
      (.error .unknownVersion, { state := 0, deeds := [.read] }) ∧
    ∃ text, runRecorded "x = 1\n" {} [.pass counting, .pass counting] none 0 =
      (.ok { text := some text, diagnostics := [{ message := "0" }, { message := "1" }] },
        { state := 2, deeds := [.read, .ran, .ran] }) := by
  have hversion : checkVersion { targetVersion := some "2.1" } = .error .unknownVersion :=
    checkVersion_of_toOption (by decide +kernel)
  have hread : ((readModule {} "x = 1\n").toOption.map fun _ => ()) = some () := by decide +kernel
  obtain ⟨tree, htree, -⟩ := Option.map_eq_some_iff.mp hread
  have hpasses := (stages_run_in_order "x = 1\n" {} none [.pass counting, .pass counting] 0).2.2.2
    [counting, counting] rfl
  refine ⟨?_, ?_, tree.render, ?_⟩
  · exact (stages_run_in_order _ _ none [.pass counting, .foreign "int"] 0).2.1.mpr ⟨"int", by simp⟩
  · exact ((stages_run_in_order _ _ none [.pass counting] 0).2.2.2 [counting] rfl).1 _ |>.mpr
      (.inl hversion)
  · refine (((hpasses.2 tree (toOption_eq_some.mp htree)).2 [counting] [counting] rfl
      ⟨tree, [{ message := "0" }]⟩ 1 rfl) _ _).mpr ⟨⟨tree, [{ message := "1" }]⟩, 2, rfl, rfl, rfl⟩

end Hydration
