import Hydration.Proofs.Success
import Hydration.Terminal

/-! Levels over many calls to a terminal. As long as no call fails, the level in force is the last one
that was set, and messages go to the active terminal alone. A level that is refused is kept all the
same, and comes back when output moves to another terminal before a level is asked for again. -/

namespace Hydration.Terminal

inductive Call where
  | setLevel (level : Data)
  | swap
  | log (level : Level) (message : String)

def Call.isLog : Call → Bool
  | .log .. => true
  | _ => false

/-- What the terminals show, each by its number. -/
abbrev Shown := List (Nat × List String)

/-- A message reaches every terminal that receives messages. -/
def perform (terminal : Terminal) : Call → Terminal × Except TerminalError Shown
  | .setLevel level => (terminal.setLevel level).map id fun result => result.map fun _ => []
  | .swap => terminal.swap.map id fun result => result.map fun _ => []
  | .log level message =>
    (terminal, (terminal.log level message).map fun lines => terminal.handlers.map fun n => (n, lines))

/-- What can be told of a call: the level in force and the active terminal behind it, and what it made
the terminals show or the text of its fault. -/
structure Effect where
  level : Int
  active : Nat
  outcome : Except String Shown

def Effect.Failed (effect : Effect) : Prop := ∃ text, effect.outcome = .error text

def effectOf (next : Terminal) (result : Except TerminalError Shown) : Effect :=
  { level := next.level, active := next.active, outcome := result.mapError TerminalError.message }

/-- The effects of calls one after another. -/
def effects (terminal : Terminal) : List Call → List Effect
  | [] => []
  | call :: rest =>
    effectOf (terminal.perform call).1 (terminal.perform call).2 ::
      effects (terminal.perform call).1 rest

/-- The terminal behind all the calls. -/
def after (terminal : Terminal) (calls : List Call) : Terminal :=
  calls.foldl (fun terminal call => (terminal.perform call).1) terminal

/-- The number that a level stands for, if it is one. -/
def levelNumber? : Data → Option Int
  | .whole level => some level
  | .flag value => some (if value then 1 else 0)
  | .text name => levelNames.lookup name
  | _ => none

/-- The levels that the calls set, in order. -/
def Call.level? : Call → Option Int
  | .setLevel level => levelNumber? level
  | _ => none

/-- The level set last, or the one from before. -/
def lastLevel (level : Int) (calls : List Call) : Int :=
  (calls.filterMap Call.level?).getLast?.getD level

theorem lookup_unnamed (name : String) : levelNames.lookup ("Level " ++ name) = none := by
  refine List.lookup_eq_none_iff.mpr fun entry he => ?_
  have hfirst : entry.1.toList.head? ≠ some 'L' := by
    revert entry
    decide
  refine bne_iff_ne.mpr fun heq => ?_
  rw [← heq, String.toList_append] at hfirst
  exact hfirst rfl

/-- A level is accepted exactly if it stands for a number. -/
theorem checkLevel_namedLevel {level : Data} {n : Int} :
    checkLevel (namedLevel level) = .ok n ↔ levelNumber? level = some n := by
  cases level with
  | text name =>
    rw [namedLevel, levelNumber?]
    cases hl : levelNames.lookup name with
    | some number => simp [checkLevel]
    | none => simp [checkLevel, lookup_unnamed]
  | _ => simp [namedLevel, levelNumber?, checkLevel]

section Single

variable {terminal : Terminal} {level : Data} {e : TerminalError}

/-- A level that is refused when it is to come into force leaves the one that is in force. -/
theorem enforce_eq (terminal : Terminal) :
    terminal.enforce =
      ({ terminal with level := (checkLevel terminal.asked).toOption.getD terminal.level },
        (checkLevel terminal.asked).map fun _ => ()) := by
  rw [enforce]
  cases checkLevel terminal.asked <;> rfl

theorem perform_setLevel (terminal : Terminal) (level : Data) :
    terminal.perform (.setLevel level) =
      ({ terminal with
          asked := namedLevel level
          level := (checkLevel (namedLevel level)).toOption.getD terminal.level },
        (checkLevel (namedLevel level)).map fun _ => []) := by
  rw [perform, setLevel, enforce_eq]
  cases checkLevel (namedLevel level) <;> rfl

theorem perform_swap (terminal : Terminal) :
    terminal.perform .swap =
      ({ terminal with
          level := (checkLevel terminal.asked).toOption.getD terminal.level
          active := terminal.active + 1
          handlers := [terminal.active + 1] },
        (checkLevel terminal.asked).map fun _ => []) := by
  rw [perform, swap, enforce_eq]
  cases checkLevel terminal.asked <;> rfl

theorem checkLevel_of_perform (h : (terminal.perform (.setLevel level)).2 = .error e) :
    checkLevel (namedLevel level) = .error e := by
  rw [perform_setLevel] at h
  cases hc : checkLevel (namedLevel level) with
  | ok n =>
    rw [hc] at h
    cases h
  | error own =>
    rw [hc] at h
    obtain rfl : own = e := Except.error.inj h
    rfl

/-- A level that is refused is kept as the one that was asked for. -/
theorem perform_of_refused (h : (terminal.perform (.setLevel level)).2 = .error e) :
    (terminal.perform (.setLevel level)).1 = { terminal with asked := namedLevel level } := by
  rw [perform_setLevel, checkLevel_of_perform h]
  rfl

end Single

/-- The level in force is the one that was asked for. -/
def Steady (terminal : Terminal) : Prop := checkLevel terminal.asked = .ok terminal.level

section Steady

variable {terminal : Terminal} {call : Call}

theorem perform_handlers (h : terminal.handlers = [terminal.active]) (call : Call) :
    (terminal.perform call).1.handlers = [(terminal.perform call).1.active] := by
  cases call with
  | setLevel level => rw [perform_setLevel, h]
  | swap => rw [perform_swap]
  | log level message => exact h

/-- A call that does not fail leaves the level steady, and brings the one that it sets into force. -/
theorem perform_of_steady (hs : terminal.Steady)
    (hf : ¬ (effectOf (terminal.perform call).1 (terminal.perform call).2).Failed) :
    (terminal.perform call).1.Steady ∧
      (terminal.perform call).1.level = call.level?.getD terminal.level := by
  cases call with
  | setLevel level =>
    rw [perform_setLevel] at hf ⊢
    cases hc : checkLevel (namedLevel level) with
    | ok n =>
      rw [Call.level?, checkLevel_namedLevel.mp hc]
      exact ⟨hc, rfl⟩
    | error e =>
      rw [hc] at hf
      exact absurd ⟨e.message, rfl⟩ hf
  | swap =>
    rw [perform_swap, hs]
    exact ⟨hs, rfl⟩
  | log level message => exact ⟨hs, rfl⟩

theorem lastLevel_cons (level : Int) (call : Call) (calls : List Call) :
    lastLevel level (call :: calls) = lastLevel (call.level?.getD level) calls := by
  rw [lastLevel, lastLevel, List.filterMap_cons]
  cases call.level? with
  | none => rfl
  | some n => simp [List.getLast?_cons]

theorem after_handlers (h : terminal.handlers = [terminal.active]) (calls : List Call) :
    (terminal.after calls).handlers = [(terminal.after calls).active] := by
  induction calls generalizing terminal with
  | nil => exact h
  | cons call calls ih => exact ih (perform_handlers h call)

theorem after_level (hs : terminal.Steady) {calls : List Call}
    (hf : ∀ effect ∈ terminal.effects calls, ¬ effect.Failed) :
    (terminal.after calls).level = lastLevel terminal.level calls := by
  induction calls generalizing terminal with
  | nil => rfl
  | cons call calls ih =>
    rw [effects, List.forall_mem_cons] at hf
    obtain ⟨hsteady, hlevel⟩ := perform_of_steady hs hf.1
    exact (ih hsteady hf.2).trans (by rw [hlevel, lastLevel_cons])

end Steady

/-- What comes of a level once it is to come into force: its number, or the text of the fault. -/
def verdict (asked : Asked) : Except String Int := (checkLevel asked).mapError TerminalError.message

section Apart

variable {terminal : Terminal} {asked : Asked}

/-- Of a level that was asked for, a move to another terminal gives away the verdict. -/
theorem effectOf_swap_eq_iff :
    effectOf (({ terminal with asked } : Terminal).perform .swap).1
        (({ terminal with asked } : Terminal).perform .swap).2 =
      effectOf (terminal.perform .swap).1 (terminal.perform .swap).2 ↔
      verdict asked = verdict terminal.asked := by
  simp only [perform_swap, effectOf, verdict, Effect.mk.injEq]
  cases checkLevel asked <;> cases checkLevel terminal.asked <;>
    simp [Except.map, Except.mapError, Except.toOption]

theorem perform_swap_of_verdict (h : verdict asked = verdict terminal.asked) :
    (({ terminal with asked } : Terminal).perform .swap).1 =
      { (terminal.perform .swap).1 with asked } := by
  have hl : (checkLevel asked).toOption = (checkLevel terminal.asked).toOption := by
    unfold verdict at h
    cases hc : checkLevel asked <;> cases ht : checkLevel terminal.asked <;>
      simp_all [Except.mapError, Except.toOption]
  rw [perform_swap, perform_swap, hl]

/-- Nothing tells apart two levels with one verdict. -/
theorem effects_of_verdict (h : verdict asked = verdict terminal.asked) (calls : List Call) :
    ({ terminal with asked } : Terminal).effects calls = terminal.effects calls := by
  induction calls generalizing terminal with
  | nil => rfl
  | cons call calls ih =>
    cases call with
    | setLevel level => rfl
    | swap =>
      rw [effects, effects, effectOf_swap_eq_iff.mpr h, perform_swap_of_verdict h, ih]
      rwa [perform_swap]
    | log level message => exact congrArg (_ :: ·) (ih h)

/-- Two levels with different verdicts are told apart exactly where output moves to another terminal
before a level is asked for. -/
theorem effects_eq_iff (calls : List Call) :
    ({ terminal with asked } : Terminal).effects calls = terminal.effects calls ↔
      (calls.find? (fun call => !call.isLog) = some .swap →
        verdict asked = verdict terminal.asked) := by
  induction calls generalizing terminal with
  | nil => simp [effects]
  | cons call calls ih =>
    cases call with
    | setLevel level => exact iff_of_true rfl (by simp [Call.isLog])
    | swap =>
      have hfind : (Call.swap :: calls).find? (fun call => !call.isLog) = some .swap := rfl
      simp only [hfind, forall_const]
      constructor
      · exact fun h => effectOf_swap_eq_iff.mp (List.cons.inj h).1
      · exact fun h => effects_of_verdict h _
    | log level message =>
      have hfind : (Call.log level message :: calls).find? (fun call => !call.isLog) =
          calls.find? fun call => !call.isLog := rfl
      rw [hfind, ← ih]
      constructor
      · exact fun h => (List.cons.inj h).2
      · exact fun h => congrArg (_ :: ·) h

end Apart

/-- As long as no call fails, one terminal receives the messages, which is the active one, and the
level in force is the last that was set. A call whose level is refused makes a difference to later
calls exactly if they move output to another terminal before they ask for a level again, unless the
level that was asked for before it was refused with the same words. -/
theorem refused_level_unnoticed_iff (calls before later : List Call) (level : Data)
    (e : TerminalError) :
    ((∀ effect ∈ effects {} calls, ¬ effect.Failed) →
      (after {} calls).handlers = [(after {} calls).active] ∧
        (after {} calls).level = lastLevel 20 calls) ∧
    (((after {} before).perform (.setLevel level)).2 = .error e →
      ((after {} (before ++ [.setLevel level])).effects later = (after {} before).effects later ↔
        (later.find? (fun call => !call.isLog) = some .swap →
          verdict (after {} before).asked = .error e.message))) := by
  constructor
  · have hsteady : Steady {} := rfl
    exact fun hf => ⟨after_handlers rfl calls, after_level hsteady hf⟩
  · intro h
    have hafter : after {} (before ++ [.setLevel level]) =
        { after {} before with asked := namedLevel level } := by
      rw [after, List.foldl_append]
      exact perform_of_refused h
    have hverdict : verdict (namedLevel level) = .error e.message := by
      rw [verdict, checkLevel_of_perform h]
      rfl
    rw [hafter, effects_eq_iff, hverdict, eq_comm (a := Except.error e.message)]

/-- An unknown name for a level, and a move to another terminal with and without a level before it. -/
theorem refused_level_unnoticed_iff_of_unknown :
    (after {} [.setLevel (.text "LOUD")]).effects [.swap] ≠ (after {} []).effects [.swap] ∧
    (after {} [.setLevel (.text "LOUD")]).effects [.setLevel (.whole 30), .swap] =
      (after {} []).effects [.setLevel (.whole 30), .swap] ∧
    (after {} [.setLevel (.text "ERROR"), .swap]).handlers = [1] ∧
    (after {} [.setLevel (.text "ERROR"), .swap]).level = 40 := by
  have hrefused : ((after {} []).perform (.setLevel (.text "LOUD"))).2 =
      .error (.unknownLevel "Level LOUD") := rfl
  refine ⟨fun h => ?_, ?_, ?_⟩
  · have hv := ((refused_level_unnoticed_iff [] [] [.swap] _ _).2 hrefused).mp h rfl
    cases hv
  · exact ((refused_level_unnoticed_iff [] [] [.setLevel (.whole 30), .swap] _ _).2 hrefused).mpr
      fun hs => nomatch hs
  · have hlevels := refused_level_unnoticed_iff [.setLevel (.text "ERROR"), .swap] [] [] .null
      (.unknownLevel "")
    refine hlevels.1 fun effect he hf => ?_
    obtain ⟨text, ht⟩ := hf
    rcases List.mem_cons.mp he with rfl | he
    · cases ht
    · obtain rfl := List.mem_singleton.mp he
      cases ht

end Hydration.Terminal
