import Hydration.Syntax.Statement
import Mathlib.Data.List.Forall2

/-! Addresses of statements. A statement has its children, the statements of all its suites in
order, and a shell, which is all the rest of it. An address leads from a body down through
children. -/

namespace Hydration.Syntax

def Suite.stmts : Suite → List Stmt
  | .block _ _ body _ => body
  | .inline .. => []

def stmtsOfClauses (clauses : List Clause) : List Stmt :=
  clauses.flatMap fun clause => clause.body.stmts

/-- The statements one level below a statement. -/
def Stmt.children : Stmt → List Stmt
  | .line _ => []
  | .func _ body => body.stmts
  | .class_ _ body => body.stmts
  | .compound clauses => stmtsOfClauses clauses

/-- What stands for a statement that is left open. -/
def Stmt.hollow : Stmt := .line { entries := [] }

def Suite.shell : Suite → Suite
  | .block header indent body footer => .block header indent (body.map fun _ => Stmt.hollow) footer
  | .inline gap entries tail => .inline gap entries tail

def Clause.shell : Clause → Clause
  | .mk leading head beforeColon body => .mk leading head beforeColon body.shell

/-- All of a statement but its children, whose number stays visible. -/
def Stmt.shell : Stmt → Stmt
  | .line l => .line l
  | .func head body => .func head body.shell
  | .class_ head body => .class_ head body.shell
  | .compound clauses => .compound (clauses.map Clause.shell)

theorem Suite.length_of_shell_eq {a b : Suite} (h : a.shell = b.shell) :
    a.stmts.length = b.stmts.length := by
  cases a with
  | inline => cases b <;> simp_all [Suite.shell, Suite.stmts]
  | block header indent body footer =>
    cases b with
    | inline => simp [Suite.shell] at h
    | block header' indent' body' footer' =>
      simp only [Suite.shell, Suite.block.injEq] at h
      simpa [Suite.stmts] using congrArg List.length h.2.2.1

theorem length_of_clause_shells_eq {as bs : List Clause}
    (h : as.map Clause.shell = bs.map Clause.shell) :
    (stmtsOfClauses as).length = (stmtsOfClauses bs).length := by
  induction as generalizing bs with
  | nil =>
    have : bs = [] := by simpa using h.symm
    simp [this]
  | cons a as ih =>
    cases bs with
    | nil => simp at h
    | cons b bs =>
      obtain ⟨al, ah, ag, ab⟩ := a
      obtain ⟨bl, bh, bg, bb⟩ := b
      simp only [List.map_cons, List.cons.injEq, Clause.shell, Clause.mk.injEq] at h
      have hb := Suite.length_of_shell_eq h.1.2.2.2
      have hr := ih h.2
      simp only [stmtsOfClauses, List.flatMap_cons, List.length_append, Clause.body] at hr ⊢
      omega

theorem Stmt.length_of_shell_eq {a b : Stmt} (h : a.shell = b.shell) :
    a.children.length = b.children.length := by
  cases a <;> cases b <;> simp only [Stmt.shell, Stmt.func.injEq, Stmt.class_.injEq,
    Stmt.compound.injEq, reduceCtorEq] at h
  · rfl
  · exact Suite.length_of_shell_eq h.2
  · exact Suite.length_of_shell_eq h.2
  · exact length_of_clause_shells_eq h

theorem Stmt.children_withLeading (s : Stmt) (leading : List EmptyLine) :
    (s.withLeading leading).children = s.children := by
  cases s with
  | compound clauses =>
    cases clauses with
    | nil => rfl
    | cons clause clauses => cases clause; rfl
  | _ => rfl

theorem stmtsOfClauses_cons (leading : List EmptyLine) (head : ClauseHead) (gap : Gap)
    (body : Suite) (clauses : List Clause) :
    stmtsOfClauses (.mk leading head gap body :: clauses) =
      body.stmts ++ stmtsOfClauses clauses :=
  rfl

theorem Suite.exists_of_shell (s : Suite) {new : List Stmt} (h : new.length = s.stmts.length) :
    ∃ t : Suite, t.shell = s.shell ∧ t.stmts = new := by
  cases s with
  | inline gap entries tail =>
    have hn : new = [] := List.length_eq_zero_iff.mp h
    exact ⟨.inline gap entries tail, rfl, hn.symm⟩
  | block header indent body footer =>
    have hl : new.length = body.length := h
    exact ⟨.block header indent new footer, by simp [Suite.shell, List.map_const', hl], rfl⟩

theorem exists_of_clause_shells (clauses : List Clause) {new : List Stmt}
    (h : new.length = (stmtsOfClauses clauses).length) :
    ∃ others : List Clause,
      others.map Clause.shell = clauses.map Clause.shell ∧ stmtsOfClauses others = new := by
  induction clauses generalizing new with
  | nil =>
    have hn : new = [] := List.length_eq_zero_iff.mp h
    exact ⟨[], rfl, hn.symm⟩
  | cons clause clauses ih =>
    obtain ⟨leading, head, gap, body⟩ := clause
    rw [stmtsOfClauses_cons, List.length_append] at h
    have htake : (new.take body.stmts.length).length = body.stmts.length := by
      rw [List.length_take]
      omega
    have hdrop : (new.drop body.stmts.length).length = (stmtsOfClauses clauses).length := by
      rw [List.length_drop]
      omega
    obtain ⟨body', hb, hs⟩ := body.exists_of_shell htake
    obtain ⟨rest, hr, hss⟩ := ih hdrop
    refine ⟨.mk leading head gap body' :: rest, by simp [Clause.shell, hb, hr], ?_⟩
    rw [stmtsOfClauses_cons, hs, hss, List.take_append_drop]

/-- A shell takes any statements as its children, if only their number is right. -/
theorem Stmt.exists_of_shell (s : Stmt) {new : List Stmt} (h : new.length = s.children.length) :
    ∃ t : Stmt, t.shell = s.shell ∧ t.children = new := by
  cases s with
  | line l =>
    have hn : new = [] := List.length_eq_zero_iff.mp h
    exact ⟨.line l, rfl, hn.symm⟩
  | func head body =>
    obtain ⟨body', hs, hn⟩ := body.exists_of_shell h
    exact ⟨.func head body', by simp [Stmt.shell, hs], hn⟩
  | class_ head body =>
    obtain ⟨body', hs, hn⟩ := body.exists_of_shell h
    exact ⟨.class_ head body', by simp [Stmt.shell, hs], hn⟩
  | compound clauses =>
    obtain ⟨others, hs, hn⟩ := exists_of_clause_shells clauses h
    exact ⟨.compound others, by simp [Stmt.shell, hs], hn⟩

theorem Suite.sizeOf_stmts_le (s : Suite) : sizeOf s.stmts ≤ sizeOf s := by
  cases s <;> simp only [Suite.stmts, List.nil.sizeOf_spec, Suite.block.sizeOf_spec,
    Suite.inline.sizeOf_spec] <;> omega

theorem sizeOf_append (a b : List Stmt) : sizeOf (a ++ b) + 1 = sizeOf a + sizeOf b := by
  induction a with
  | nil => simp; omega
  | cons x a ih => simp only [List.cons_append, List.cons.sizeOf_spec]; omega

theorem sizeOf_stmtsOfClauses_le (clauses : List Clause) :
    sizeOf (stmtsOfClauses clauses) ≤ sizeOf clauses := by
  induction clauses with
  | nil => simp [stmtsOfClauses]
  | cons c rest ih =>
    obtain ⟨leading, head, gap, body⟩ := c
    have hb := body.sizeOf_stmts_le
    have ha := sizeOf_append body.stmts (stmtsOfClauses rest)
    simp only [stmtsOfClauses, List.flatMap_cons, Clause.body, List.cons.sizeOf_spec,
      Clause.mk.sizeOf_spec] at ih ha ⊢
    omega

theorem Stmt.sizeOf_children_lt (s : Stmt) : sizeOf s.children < sizeOf s := by
  cases s with
  | line l =>
    obtain ⟨leading, entries, tail⟩ := l
    simp only [Stmt.children, List.nil.sizeOf_spec, Stmt.line.sizeOf_spec, Line.mk.sizeOf_spec]
    omega
  | func head body =>
    have := body.sizeOf_stmts_le
    simp only [Stmt.children, Stmt.func.sizeOf_spec]; omega
  | class_ head body =>
    have := body.sizeOf_stmts_le
    simp only [Stmt.children, Stmt.class_.sizeOf_spec]; omega
  | compound clauses =>
    have := sizeOf_stmtsOfClauses_le clauses
    simp only [Stmt.children, Stmt.compound.sizeOf_spec]; omega

/-- What holds of a body as soon as it holds one level below holds of every body. -/
theorem body_induction {P : List Stmt → Prop} (h : ∀ body, (∀ s ∈ body, P s.children) → P body)
    (body : List Stmt) : P body := by
  apply h
  intro s hs
  have hlt := List.sizeOf_lt_of_mem hs
  have hc := s.sizeOf_children_lt
  exact body_induction h s.children
termination_by sizeOf body

/-- The statement at an address: an index into the body, then one for each level below. -/
def stmtAt : List Stmt → List Nat → Option Stmt
  | _, [] => none
  | body, [i] => body[i]?
  | body, i :: j :: rest => body[i]?.bind fun s => stmtAt s.children (j :: rest)

theorem stmtAt_below {body : List Stmt} {i : Nat} {s : Stmt} {p : List Nat}
    (hs : body[i]? = some s) (hp : p ≠ []) : stmtAt body (i :: p) = stmtAt s.children p := by
  cases p with
  | nil => exact absurd rfl hp
  | cons j rest => simp [stmtAt, hs]

theorem ne_nil_of_stmtAt {body : List Stmt} {p : List Nat} {s : Stmt}
    (h : stmtAt body p = some s) : p ≠ [] := by
  rintro rfl
  simp [stmtAt] at h

theorem exists_above_of_stmtAt {body : List Stmt} {i : Nat} {p : List Nat} {s : Stmt} (hp : p ≠ [])
    (h : stmtAt body (i :: p) = some s) :
    ∃ a, body[i]? = some a ∧ stmtAt a.children p = some s := by
  cases ha : body[i]? with
  | none =>
    cases p with
    | nil => exact absurd rfl hp
    | cons j rest => simp [stmtAt, ha] at h
  | some a => exact ⟨a, rfl, (stmtAt_below ha hp).symm.trans h⟩

def Everywhere (P : Stmt → Prop) (body : List Stmt) : Prop := ∀ p s, stmtAt body p = some s → P s

/-- What holds at every address of a body holds of its statements and everywhere below them. -/
theorem everywhere_iff {P : Stmt → Prop} {body : List Stmt} :
    Everywhere P body ↔ ∀ s ∈ body, P s ∧ Everywhere P s.children := by
  constructor
  · intro h s hs
    obtain ⟨i, hi⟩ := List.mem_iff_getElem?.mp hs
    refine ⟨h [i] s hi, ?_⟩
    intro p t ht
    exact h (i :: p) t ((stmtAt_below hi (ne_nil_of_stmtAt ht)).trans ht)
  · intro h p s hs
    cases p with
    | nil => exact absurd rfl (ne_nil_of_stmtAt hs)
    | cons i p =>
      by_cases hp : p = []
      · subst hp
        exact (h s (List.mem_of_getElem? hs)).1
      · obtain ⟨a, ha, hs⟩ := exists_above_of_stmtAt hp hs
        exact (h a (List.mem_of_getElem? ha)).2 p s hs

theorem everywhere_singleton {P : Stmt → Prop} {s : Stmt} :
    Everywhere P [s] ↔ P s ∧ Everywhere P s.children := by
  rw [everywhere_iff]
  simp

theorem everywhere_iff_singletons {P : Stmt → Prop} {body : List Stmt} :
    Everywhere P body ↔ ∀ s ∈ body, Everywhere P [s] := by
  simp only [everywhere_singleton]
  exact everywhere_iff

theorem everywhere_nil (P : Stmt → Prop) : Everywhere P [] :=
  everywhere_iff.mpr (by simp)

theorem Everywhere.below {P : Stmt → Prop} {body : List Stmt} (h : Everywhere P body) {p : List Nat}
    {s : Stmt} (hs : stmtAt body p = some s) : Everywhere P s.children := by
  induction p generalizing body with
  | nil => exact absurd rfl (ne_nil_of_stmtAt hs)
  | cons i p ih =>
    by_cases hp : p = []
    · subst hp
      exact (everywhere_iff.mp h s (List.mem_of_getElem? hs)).2
    · obtain ⟨a, ha, hs⟩ := exists_above_of_stmtAt hp hs
      exact ih (everywhere_iff.mp h a (List.mem_of_getElem? ha)).2 hs

end Hydration.Syntax
