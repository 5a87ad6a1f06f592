import Hydration.Proofs.TopLevel

/-! Imports in branches that cannot be taken when a module runs. The scan leaves out a branch whose
test is the type-checking flag itself. It does not see what else follows from the flag, and so it may
reuse an import that is never made. -/

namespace Hydration.Syntax

/-- What a test may come out as while the flag is down. Other names and calls may give anything, and
the same one different things at different places. -/
def Expr.MayGive : Expr → Bool → Prop
  | .paren _ inner _, b => inner.MayGive b
  | .unary "not" _ operand, b => operand.MayGive !b
  | .boolean left _ "and" right, b => ∃ p q, left.MayGive p ∧ right.MayGive q ∧ (p && q) = b
  | .boolean left _ "or" right, b => ∃ p q, left.MayGive p ∧ right.MayGive q ∧ (p || q) = b
  | e, b => Imports.isCheckingFlag e = true → b = false

def ClauseHead.test? : ClauseHead → Option Expr
  | .if_ _ test => some test
  | .elif _ test => some test
  | _ => none

end Hydration.Syntax

namespace Hydration.Imports

open Syntax Transform

/-- The tests before a branch may fail, and its own may hold. -/
def MayRun (before : List Clause) (clause : Clause) : Prop :=
  (∀ earlier ∈ before, ∀ test ∈ earlier.head.test?, test.MayGive false) ∧
    ∀ test ∈ clause.head.test?, test.MayGive true

/-- The clauses that the scan enters and that may run. -/
def Lives (before : List Clause) (clause : Clause) (after : List Clause) : Prop :=
  Scans before clause after ∧ MayRun before clause

/-- A statement stands where the scan gets to, in a branch that cannot be taken. -/
inductive Doomed (t : Stmt) : Stmt → Prop where
  | here {clauses before after : List Clause} {clause : Clause} {s : Stmt}
      (hc : clauses = before ++ clause :: after) (he : Scans before clause after)
      (hd : ¬ MayRun before clause) (hs : s ∈ blockStatements clause.body)
      (h : Reached Scans t s) : Doomed t (.compound clauses)
  | inside {clauses before after : List Clause} {clause : Clause} {s : Stmt}
      (hc : clauses = before ++ clause :: after) (he : Scans before clause after)
      (hs : s ∈ blockStatements clause.body) (h : Doomed t s) : Doomed t (.compound clauses)

theorem Reached.lives_or_doomed {s t : Stmt} (h : Reached Scans t s) :
    Reached Lives t s ∨ Doomed t s := by
  induction h with
  | here => exact .inl .here
  | @inside clauses before after clause s hc he hs ht ih =>
    by_cases hr : MayRun before clause
    · rcases ih with ih | ih
      · exact .inl (.inside hc ⟨he, hr⟩ hs ih)
      · exact .inr (.inside hc he hs ih)
    · exact .inr (.here hc he hr hs ht)

theorem Doomed.scans {s t : Stmt} (h : Doomed t s) : Reached Scans t s := by
  induction h with
  | here hc he _ hs ht => exact .inside hc he hs ht
  | inside hc he hs _ ih => exact .inside hc he hs ih

/-- A line with a property among the statements of a module holds an import that refers to a name of
a module by a text. -/
def Justified (stands : Stmt → Stmt → Prop) (m : Module) (module name text : String) : Prop :=
  ∃ s ∈ m.body, ∃ line, stands (.line line) s ∧ ∃ entry ∈ line.entries,
    ∃ f ∈ factsOfSmall entry.stmt, f.Answers module name text

/-- Each branch that the scan gets to and that cannot be taken has the flag itself for its test. -/
def PlainlyGuarded (m : Module) : Prop :=
  ∀ s ∈ m.body, ∀ before clause after, Reached Scans (.compound (before ++ clause :: after)) s →
    isScanned (before ++ clause :: after) = true → ¬ MayRun before clause →
    ClauseHead.neverRuns clause.head = true

section Justified

variable {m : Module} {module name text : String}

theorem Justified.mono {first second : Stmt → Stmt → Prop}
    (h : ∀ t s, first t s → second t s) (hj : Justified first m module name text) :
    Justified second m module name text := by
  obtain ⟨s, hs, line, hr, hf⟩ := hj
  exact ⟨s, hs, line, h _ _ hr, hf⟩

theorem justified_scans_iff : Justified (Reached Scans) m module name text ↔
    ∃ f ∈ factsOfBody m.body, f.Answers module name text := by
  constructor
  · rintro ⟨s, hs, line, hr, entry, he, f, hf, ha⟩
    have hown : f ∈ ownFacts (.line line) := List.mem_flatMap.mpr ⟨entry, he, hf⟩
    exact ⟨f, mem_factsOfBody.mpr ⟨s, hs, mem_factsOfStmt.mpr ⟨_, hr, hown⟩⟩, ha⟩
  · rintro ⟨f, hf, ha⟩
    obtain ⟨s, hs, hf⟩ := mem_factsOfBody.mp hf
    obtain ⟨t, ht, hf⟩ := mem_factsOfStmt.mp hf
    cases t with
    | line line =>
      obtain ⟨entry, he, hf⟩ := List.mem_flatMap.mp hf
      exact ⟨s, hs, line, ht, entry, he, f, hf, ha⟩
    | compound clauses => simp [ownFacts] at hf
    | _ =>
      obtain rfl := List.mem_singleton.mp hf
      simp [Fact.Answers, Fact.text, Fact.memberText, Fact.moduleText] at ha

theorem justified_of_resolve (h : (scanScope m).resolve module name = some text) :
    Justified (Reached Scans) m module name text := by
  rw [resolve_scanScope] at h
  exact justified_scans_iff.mpr (exists_answer_of_resolveIn h)

theorem resolve_of_justified (h : Justified (Reached Scans) m module name text) :
    ∃ other, (scanScope m).resolve module name = some other := by
  obtain ⟨f, hf, ha⟩ := justified_scans_iff.mp h
  rw [resolve_scanScope, ← Option.ne_none_iff_exists']
  exact resolveIn_ne_none_of_answer hf ha

theorem justified_lives_or_doomed (h : Justified (Reached Scans) m module name text) :
    Justified (Reached Lives) m module name text ∨ Justified Doomed m module name text := by
  obtain ⟨s, hs, line, hr, hf⟩ := h
  rcases hr.lives_or_doomed with hr | hr
  · exact .inl ⟨s, hs, line, hr, hf⟩
  · exact .inr ⟨s, hs, line, hr, hf⟩

/-- Where the flag guards a branch by itself, the scan leaves the branch out. -/
theorem PlainlyGuarded.not_doomed (hg : PlainlyGuarded m) {s t u : Stmt} (hs : s ∈ m.body)
    (hr : Reached Scans t s) (hd : Doomed u t) : False := by
  induction hd with
  | here hc he hd _ _ =>
    subst hc
    have hnever := hg s hs _ _ _ hr he.1 hd
    rw [he.2] at hnever
    cases hnever
  | inside hc he hs' _ ih => exact ih (hr.trans (.inside hc he hs' .here))

end Justified

/-- Every answer of the scan is given by an import that it gets to. It is given by one that may be
made, unless all that give it stand in branches that cannot be taken; and that never happens where the
flag guards such branches by itself. But wherever an import stands in such a branch, and none that
may be made gives its name, the scan answers with an import that is never made. -/
theorem resolve_justified_iff (m : Module) :
    (∀ module name text, (scanScope m).resolve module name = some text →
        Justified (Reached Scans) m module name text) ∧
      ((∀ module name text, (scanScope m).resolve module name = some text →
          Justified (Reached Lives) m module name text) ↔
        ∀ module name text, (scanScope m).resolve module name = some text →
          Justified Doomed m module name text → Justified (Reached Lives) m module name text) ∧
      (PlainlyGuarded m → ∀ module name text, (scanScope m).resolve module name = some text →
        Justified (Reached Lives) m module name text) ∧
      ∀ module name text, Justified Doomed m module name text →
        (∀ other, ¬ Justified (Reached Lives) m module name other) →
        ∃ other, (scanScope m).resolve module name = some other ∧
          ¬ Justified (Reached Lives) m module name other := by
  refine ⟨fun _ _ _ => justified_of_resolve, ?_, ?_, ?_⟩
  · constructor
    · exact fun h module name text ht _ => h module name text ht
    · intro h module name text ht
      rcases justified_lives_or_doomed (justified_of_resolve ht) with hl | hd
      · exact hl
      · exact h module name text ht hd
  · intro hg module name text ht
    rcases justified_lives_or_doomed (justified_of_resolve ht) with hl | ⟨s, hs, line, hd, -⟩
    · exact hl
    · exact (hg.not_doomed hs .here hd).elim
  · intro module name text hd hno
    obtain ⟨other, ht⟩ := resolve_of_justified (hd.mono fun _ _ h => h.scans)
    exact ⟨other, ht, hno other⟩

def negatedClause : Clause :=
  .mk [] (.if_ .space (.unary "not" .space (.name "TYPE_CHECKING"))) .empty
    (.block {} none [plainLine .pass] [])

def helperClause : Clause := .mk [] .else_ .empty (.block {} none [helperLine] [])

/-- The helper is imported for type checking only, under `else` of the negated flag. -/
def negatedModule : Module := { body := [.compound [negatedClause, helperClause]] }

theorem not_mayRun_helperClause : ¬ MayRun [negatedClause] helperClause := by
  rintro ⟨h, -⟩
  have hno : (Expr.name "TYPE_CHECKING").MayGive true := h _ List.mem_cons_self _ rfl
  cases hno (by decide)

theorem not_lives_negatedModule {module name text : String} :
    ¬ Justified (Reached Lives) negatedModule module name text := by
  rintro ⟨s, hs, line, hr, entry, he, f, hf, -⟩
  obtain rfl := List.mem_singleton.mp hs
  cases hr with
  | @inside _ before after clause s hc hl hs h =>
    match before, hc with
    | [], hc =>
      obtain ⟨rfl, -⟩ := List.cons.inj hc
      obtain rfl := List.mem_singleton.mp hs
      cases h
      obtain rfl := List.mem_singleton.mp he
      simp [factsOfSmall] at hf
    | [first], hc =>
      obtain ⟨hfirst, hc⟩ := List.cons.inj hc
      obtain ⟨rfl, -⟩ := List.cons.inj hc
      exact not_mayRun_helperClause (hfirst ▸ hl.2)
    | _ :: _ :: _, hc => simp at hc

/-- The import under `else` is never made, but it is what the scan answers with. -/
theorem resolve_unjustified_of_negated :
    ∃ text, (scanScope negatedModule).resolve "hydrate_runtime" "register_instance" = some text ∧
      ¬ Justified (Reached Lives) negatedModule "hydrate_runtime" "register_instance" text := by
  obtain ⟨-, -, -, h⟩ := resolve_justified_iff negatedModule
  refine h _ _ "register_instance" ?_ fun _ => not_lives_negatedModule
  have hscans : Scans [negatedClause] helperClause [] := ⟨rfl, rfl⟩
  have hdoomed : Doomed helperLine (.compound [negatedClause, helperClause]) :=
    .here rfl hscans not_mayRun_helperClause (List.mem_singleton_self _) .here
  exact ⟨_, List.mem_singleton_self _, _, hdoomed, _, List.mem_singleton_self _, _,
    List.mem_singleton_self _, .inl (by decide)⟩

end Hydration.Imports
