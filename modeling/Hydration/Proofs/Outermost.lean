import Hydration.Proofs.Address
import Hydration.Proofs.Success
import Hydration.Transform.Pass

/-! Replacing the outermost located classes of a body. The walk over the body gives the one body
that agrees with the old one at every address except below the replaced classes. -/

namespace Hydration.Transform

open Syntax

/-- The component of a statement, if it is a located class. -/
def locatedStmt (locate : Locate) : Stmt → Option Component
  | .class_ head _ => locate head
  | _ => none

/-- No located class stands above the address. -/
def ClearAbove (locate : Locate) (body : List Stmt) (p : List Nat) : Prop :=
  ∀ q, q <+: p → q ≠ p → ∀ s, stmtAt body q = some s → locatedStmt locate s = none

/-- No located class stands at any address. -/
def Unlocated (locate : Locate) (body : List Stmt) : Prop :=
  ∀ p s, stmtAt body p = some s → locatedStmt locate s = none

/-- `new` is `old` with each outermost located class replaced. A class that is located while
nothing above it is, is replaced under its own component; a statement that neither is located nor
lies below a located class keeps its shell. -/
structure Rewritten (locate : Locate) (replace : Replace) (old new : List Stmt) : Prop where
  length_eq : new.length = old.length
  replaced : ∀ p head body component, stmtAt old p = some (.class_ head body) →
    locate head = some component → ClearAbove locate old p →
    ∃ t, replace component head body = .ok t ∧ stmtAt new p = some t
  kept : ∀ p s, stmtAt old p = some s → locatedStmt locate s = none → ClearAbove locate old p →
    ∃ t, stmtAt new p = some t ∧ t.shell = s.shell

theorem clearAbove_singleton (locate : Locate) (body : List Stmt) (i : Nat) :
    ClearAbove locate body [i] := by
  intro q hq hne s hs
  rcases List.prefix_cons_iff.mp hq with rfl | ⟨r, rfl, hr⟩
  · exact absurd rfl (ne_nil_of_stmtAt hs)
  · exact absurd (by rw [List.prefix_nil.mp hr]) hne

theorem clearAbove_below {locate : Locate} {body : List Stmt} {i : Nat} {s : Stmt} {p : List Nat}
    (hs : body[i]? = some s) (hp : p ≠ []) :
    ClearAbove locate body (i :: p) ↔
      locatedStmt locate s = none ∧ ClearAbove locate s.children p := by
  constructor
  · intro h
    refine ⟨h [i] ⟨p, rfl⟩ (by simpa using hp.symm) s (by simp [stmtAt, hs]), ?_⟩
    intro q hq hne t ht
    exact h (i :: q) (List.cons_prefix_cons.mpr ⟨rfl, hq⟩) (by simpa using hne) t
      ((stmtAt_below hs (ne_nil_of_stmtAt ht)).trans ht)
  · rintro ⟨hn, h⟩ q hq hne t ht
    rcases List.prefix_cons_iff.mp hq with rfl | ⟨r, rfl, hr⟩
    · exact absurd rfl (ne_nil_of_stmtAt ht)
    · cases r with
      | nil =>
        have he : s = t := by simpa [stmtAt, hs] using ht
        exact he ▸ hn
      | cons j r =>
        rw [stmtAt_below hs (by simp)] at ht
        exact h (j :: r) hr (by simpa using hne) t ht

section Walk

variable {locate : Locate} {replace : Replace}

/-- The walk over a statement gives the other one. -/
def Becomes (locate : Locate) (replace : Replace) (s t : Stmt) : Prop :=
  replaceIn locate replace s = .ok t

theorem replaceInAll_eq_ok {old new : List Stmt} :
    replaceInAll locate replace old = .ok new ↔ List.Forall₂ (Becomes locate replace) old new := by
  induction old generalizing new with
  | nil => simp [replaceInAll, eq_comm]
  | cons s old ih =>
    simp only [replaceInAll, bind_eq_ok, ih, List.forall₂_cons_left_iff, Becomes]
    constructor
    · rintro ⟨t, ht, rest, hr, he⟩
      exact ⟨t, rest, ht, hr, (Except.ok.inj he).symm⟩
    · rintro ⟨t, rest, ht, hr, rfl⟩
      exact ⟨t, ht, rest, hr, rfl⟩

theorem replaceInSuite_eq_ok {a b : Suite} :
    replaceInSuite locate replace a = .ok b ↔
      b.shell = a.shell ∧ List.Forall₂ (Becomes locate replace) a.stmts b.stmts := by
  cases a with
  | inline gap entries tail =>
    cases b <;> simp [replaceInSuite, Suite.shell, Suite.stmts, eq_comm]
  | block header indent body footer =>
    simp only [replaceInSuite, bind_eq_ok, replaceInAll_eq_ok, Suite.stmts]
    constructor
    · rintro ⟨new, hn, he⟩
      obtain rfl := Except.ok.inj he
      refine ⟨?_, hn⟩
      simp [Suite.shell, List.map_const', hn.length_eq]
    · rintro ⟨hs, hf⟩
      cases b with
      | inline => simp [Suite.shell] at hs
      | block header' indent' body' footer' =>
        simp only [Suite.shell, Suite.block.injEq] at hs
        obtain ⟨rfl, rfl, -, rfl⟩ := hs
        exact ⟨body', hf, rfl⟩

theorem replaceInClauses_eq_ok {as bs : List Clause} :
    replaceInClauses locate replace as = .ok bs ↔
      bs.map Clause.shell = as.map Clause.shell ∧
        List.Forall₂ (Becomes locate replace) (stmtsOfClauses as) (stmtsOfClauses bs) := by
  induction as generalizing bs with
  | nil =>
    simp only [replaceInClauses, Except.ok.injEq, List.map_nil, List.map_eq_nil_iff]
    constructor
    · rintro rfl
      simp [stmtsOfClauses]
    · exact fun h => h.1.symm
  | cons a as ih =>
    obtain ⟨leading, head, gap, body⟩ := a
    simp only [replaceInClauses, bind_eq_ok, replaceInSuite_eq_ok, ih]
    constructor
    · rintro ⟨body', ⟨hs, hf⟩, bs', ⟨hss, hff⟩, he⟩
      obtain rfl := Except.ok.inj he
      refine ⟨by simp [Clause.shell, hs, hss], ?_⟩
      have hl := (Suite.length_of_shell_eq hs).symm
      exact (forall₂_append_iff hl).mpr ⟨hf, hff⟩
    · rintro ⟨hs, hf⟩
      cases bs with
      | nil => simp at hs
      | cons b bs =>
        obtain ⟨leading', head', gap', body'⟩ := b
        simp only [List.map_cons, List.cons.injEq, Clause.shell, Clause.mk.injEq] at hs
        obtain ⟨⟨rfl, rfl, rfl, hb⟩, hss⟩ := hs
        have hl := (Suite.length_of_shell_eq hb).symm
        have hh := (forall₂_append_iff hl).mp hf
        exact ⟨body', ⟨hb, hh.1⟩, bs, ⟨hss, hh.2⟩, rfl⟩

/-- A statement that is not located keeps its shell, and the walk goes on with its children. -/
theorem becomes_iff_of_unlocated {s t : Stmt} (h : locatedStmt locate s = none) :
    Becomes locate replace s t ↔
      t.shell = s.shell ∧ List.Forall₂ (Becomes locate replace) s.children t.children := by
  cases s with
  | line l =>
    constructor
    · intro hb
      obtain rfl := Except.ok.inj hb
      exact ⟨rfl, .nil⟩
    · rintro ⟨hs, -⟩
      cases t <;> simp only [Stmt.shell, Stmt.line.injEq, reduceCtorEq] at hs
      exact hs ▸ rfl
  | func head body =>
    simp only [Becomes, replaceIn, bind_eq_ok, replaceInSuite_eq_ok]
    constructor
    · rintro ⟨body', hb, he⟩
      obtain rfl := Except.ok.inj he
      exact ⟨by simp [Stmt.shell, hb.1], hb.2⟩
    · rintro ⟨hs, hf⟩
      cases t <;> simp only [Stmt.shell, Stmt.func.injEq, reduceCtorEq] at hs
      obtain ⟨rfl, hb⟩ := hs
      exact ⟨_, ⟨hb, hf⟩, rfl⟩
  | class_ head body =>
    have hn : locate head = none := h
    simp only [Becomes, replaceIn, hn, bind_eq_ok, replaceInSuite_eq_ok]
    constructor
    · rintro ⟨body', hb, he⟩
      obtain rfl := Except.ok.inj he
      exact ⟨by simp [Stmt.shell, hb.1], hb.2⟩
    · rintro ⟨hs, hf⟩
      cases t <;> simp only [Stmt.shell, Stmt.class_.injEq, reduceCtorEq] at hs
      obtain ⟨rfl, hb⟩ := hs
      exact ⟨_, ⟨hb, hf⟩, rfl⟩
  | compound clauses =>
    simp only [Becomes, replaceIn, bind_eq_ok, replaceInClauses_eq_ok]
    constructor
    · rintro ⟨clauses', hc, he⟩
      obtain rfl := Except.ok.inj he
      exact ⟨by simp [Stmt.shell, hc.1], hc.2⟩
    · rintro ⟨hs, hf⟩
      cases t <;> simp only [Stmt.shell, Stmt.compound.injEq, reduceCtorEq] at hs
      exact ⟨_, ⟨hs, hf⟩, rfl⟩

theorem becomes_iff_of_located {head : ClassHead} {body : Suite} {component : Component} {t : Stmt}
    (h : locate head = some component) :
    Becomes locate replace (.class_ head body) t ↔ replace component head body = .ok t := by
  simp [Becomes, replaceIn, h]

/-- Wherever nothing above is located, the walk puts what becomes of the statement there. -/
theorem becomes_at {old new : List Stmt} (h : List.Forall₂ (Becomes locate replace) old new)
    {p : List Nat} {s : Stmt} (hs : stmtAt old p = some s) (hc : ClearAbove locate old p) :
    ∃ t, stmtAt new p = some t ∧ Becomes locate replace s t := by
  induction p generalizing old new with
  | nil => exact absurd rfl (ne_nil_of_stmtAt hs)
  | cons i p ih =>
    by_cases hp : p = []
    · subst p
      exact forall₂_getElem? h hs
    · obtain ⟨a, ha, hs⟩ := exists_above_of_stmtAt hp hs
      obtain ⟨b, hb, hab⟩ := forall₂_getElem? h ha
      have hcc := (clearAbove_below ha hp).mp hc
      obtain ⟨t, ht, hst⟩ := ih ((becomes_iff_of_unlocated hcc.1).mp hab).2 hs hcc.2
      exact ⟨t, (stmtAt_below hb hp).trans ht, hst⟩

theorem Rewritten.below {old new : List Stmt} (h : Rewritten locate replace old new) {i : Nat}
    {s t : Stmt} (hs : old[i]? = some s) (ht : new[i]? = some t)
    (hn : locatedStmt locate s = none) (hst : t.shell = s.shell) :
    Rewritten locate replace s.children t.children := by
  constructor
  · exact Stmt.length_of_shell_eq hst
  · intro p head body component hp hl hc
    have hpn := ne_nil_of_stmtAt hp
    obtain ⟨u, hu, hnew⟩ := h.replaced (i :: p) head body component
      ((stmtAt_below hs hpn).trans hp) hl ((clearAbove_below hs hpn).mpr ⟨hn, hc⟩)
    exact ⟨u, hu, (stmtAt_below ht hpn).symm.trans hnew⟩
  · intro p u hp hl hc
    have hpn := ne_nil_of_stmtAt hp
    obtain ⟨v, hv, hvu⟩ := h.kept (i :: p) u ((stmtAt_below hs hpn).trans hp) hl
      ((clearAbove_below hs hpn).mpr ⟨hn, hc⟩)
    exact ⟨v, (stmtAt_below ht hpn).symm.trans hv, hvu⟩

theorem Rewritten.forall₂ {old new : List Stmt} (h : Rewritten locate replace old new) :
    List.Forall₂ (Becomes locate replace) old new := by
  -- By levels: a statement that is kept hands the property down to its children.
  induction old using body_induction generalizing new with
  | h old ih =>
    rw [List.forall₂_iff_get]
    refine ⟨h.length_eq.symm, ?_⟩
    intro i hi hi'
    have hs : old[i]? = some (old.get ⟨i, hi⟩) := List.getElem?_eq_getElem hi
    have ht : new[i]? = some (new.get ⟨i, hi'⟩) := List.getElem?_eq_getElem hi'
    have hc := clearAbove_singleton locate old i
    cases hl : locatedStmt locate (old.get ⟨i, hi⟩) with
    | none =>
      obtain ⟨t, hnew, hst⟩ := h.kept [i] _ hs hl hc
      obtain rfl : new.get ⟨i, hi'⟩ = t := Option.some.inj (ht.symm.trans hnew)
      have hb := h.below hs ht hl hst
      exact (becomes_iff_of_unlocated hl).mpr ⟨hst, ih _ (List.get_mem ..) hb⟩
    | some component =>
      generalize old.get ⟨i, hi⟩ = s at hs hl
      cases s with
      | class_ head body =>
        obtain ⟨t, hr, hnew⟩ := h.replaced [i] head body component hs hl hc
        obtain rfl : new.get ⟨i, hi'⟩ = t := Option.some.inj (ht.symm.trans hnew)
        exact (becomes_iff_of_located hl).mpr hr
      | line => simp [locatedStmt] at hl
      | func => simp [locatedStmt] at hl
      | compound => simp [locatedStmt] at hl

/-- The walk succeeds with a body exactly if that body is the old one rewritten. -/
theorem replaceInAll_eq_ok_iff_rewritten {old new : List Stmt} :
    replaceInAll locate replace old = .ok new ↔ Rewritten locate replace old new := by
  rw [replaceInAll_eq_ok]
  constructor
  · intro h
    constructor
    · exact h.length_eq.symm
    · intro p head body component hp hl hc
      obtain ⟨t, ht, hb⟩ := becomes_at h hp hc
      exact ⟨t, (becomes_iff_of_located hl).mp hb, ht⟩
    · intro p s hp hl hc
      obtain ⟨t, ht, hb⟩ := becomes_at h hp hc
      exact ⟨t, ht, ((becomes_iff_of_unlocated hl).mp hb).1⟩
  · exact Rewritten.forall₂

end Walk

end Hydration.Transform
