import Hydration.Proofs.ClassBodies

/-! Statements without their layout. They stand one below the other, each small one on a line of its own,
and a statement that holds others has a block. -/

namespace Hydration.Syntax

/-- A small statement on a line of its own. -/
def Small.alone (small : Small) : Stmt := .line { entries := [⟨small, none⟩] }

def spreadEntries (entries : List Entry) : List Stmt := entries.map fun entry => entry.stmt.alone

mutual

/-- The statements that a statement holds, each on lines of its own. Comments, empty lines and what
stands around the statements are left out, and every suite is a block. -/
def Stmt.spread : Stmt → List Stmt
  | .line line => spreadEntries line.entries
  | .func head body => [.func { head with leading := [] } body.spread]
  | .class_ head body => [.class_ { head with leading := [] } body.spread]
  | .compound clauses => [.compound (spreadClauses clauses)]

def Suite.spread : Suite → Suite
  | .block _ _ body _ => .block {} none (spreadAll body) []
  | .inline _ entries _ => .block {} none (spreadEntries entries) []

def spreadClauses : List Clause → List Clause
  | [] => []
  | .mk _ head beforeColon body :: rest => .mk [] head beforeColon body.spread :: spreadClauses rest

def spreadAll : List Stmt → List Stmt
  | [] => []
  | s :: rest => s.spread ++ spreadAll rest

end

section Spread

variable {s t : Stmt} {body front back : List Stmt} {small : Small}

theorem spreadAll_eq_flatMap (body : List Stmt) : spreadAll body = body.flatMap Stmt.spread := by
  induction body with
  | nil => rfl
  | cons s body ih => rw [spreadAll, ih, List.flatMap_cons]

theorem spreadAll_append : spreadAll (front ++ back) = spreadAll front ++ spreadAll back := by
  simp only [spreadAll_eq_flatMap, List.flatMap_append]

theorem spreadAll_singleton : spreadAll [s] = s.spread := by
  rw [spreadAll, spreadAll, List.append_nil]

theorem spread_alone (small : Small) : small.alone.spread = [small.alone] := rfl

theorem spreadAll_spreadEntries (entries : List Entry) :
    spreadAll (spreadEntries entries) = spreadEntries entries := by
  induction entries with
  | nil => rfl
  | cons entry entries ih =>
    rw [spreadEntries, List.map_cons, spreadAll, spread_alone, ← spreadEntries, ih]
    rfl

mutual

/-- Once the layout is left out, nothing more is. -/
theorem spreadAll_spread (s : Stmt) : spreadAll s.spread = s.spread := by
  cases s with
  | line line => exact spreadAll_spreadEntries line.entries
  | func head body =>
    rw [Stmt.spread, spreadAll_singleton, Stmt.spread, spread_spread body]
  | class_ head body =>
    rw [Stmt.spread, spreadAll_singleton, Stmt.spread, spread_spread body]
  | compound clauses =>
    rw [Stmt.spread, spreadAll_singleton, Stmt.spread, spreadClauses_spreadClauses clauses]

theorem spread_spread (body : Suite) : body.spread.spread = body.spread := by
  cases body with
  | block header indent body footer =>
    rw [Suite.spread, Suite.spread, spreadAll_spreadAll body]
  | inline gap entries tail =>
    rw [Suite.spread, Suite.spread, spreadAll_spreadEntries]

theorem spreadClauses_spreadClauses (clauses : List Clause) :
    spreadClauses (spreadClauses clauses) = spreadClauses clauses := by
  match clauses with
  | [] => rfl
  | .mk leading head beforeColon body :: rest =>
    rw [spreadClauses, spreadClauses, spread_spread body, spreadClauses_spreadClauses rest]

theorem spreadAll_spreadAll (body : List Stmt) : spreadAll (spreadAll body) = spreadAll body := by
  match body with
  | [] => rfl
  | s :: rest =>
    rw [spreadAll, spreadAll_append, spreadAll_spread s, spreadAll_spreadAll rest]

end

theorem spread_of_mem_spread (h : t ∈ s.spread) : t.spread = [t] := by
  have hs := spreadAll_spread s
  cases s with
  | line line =>
    obtain ⟨entry, -, rfl⟩ := List.mem_map.mp h
    rfl
  | _ =>
    rw [List.mem_singleton.mp h]
    rwa [Stmt.spread, spreadAll_singleton] at hs

theorem spread_of_mem_spreadAll (h : t ∈ spreadAll body) : t.spread = [t] := by
  rw [spreadAll_eq_flatMap] at h
  obtain ⟨s, -, hs⟩ := List.mem_flatMap.mp h
  exact spread_of_mem_spread hs

theorem spread_withLeading (s : Stmt) (leading : List EmptyLine) :
    (s.withLeading leading).spread = s.spread := by
  cases s with
  | compound clauses =>
    cases clauses with
    | nil => rfl
    | cons clause clauses =>
      obtain ⟨lines, head, beforeColon, inner⟩ := clause
      rfl
  | _ => rfl

theorem blockStatements_spread (body : Suite) :
    Transform.blockStatements body.spread = spreadAll (Transform.blockStatements body) := by
  cases body with
  | block => rw [Suite.spread]; rfl
  | inline gap entries tail => exact (List.append_nil _).symm

theorem spread_withStatements (body : List Stmt) (old : Suite) :
    (Transform.withStatements body old).spread = .block {} none (spreadAll body) [] := by
  cases old <;> rfl

theorem spread_withBlank (s : Stmt) : (Transform.withBlank s).spread = s.spread := by
  unfold Transform.withBlank
  split
  · exact spread_withLeading s _
  · rfl

theorem exists_line_of_isLine (h : Transform.isLine s = true) : ∃ line, s = .line line := by
  cases s with
  | line line => exact ⟨line, rfl⟩
  | _ => cases h

/-- Lines become lines. -/
theorem isLine_of_mem_spread {line : Line} (h : t ∈ (Stmt.line line).spread) :
    Transform.isLine t = true := by
  obtain ⟨entry, -, rfl⟩ := List.mem_map.mp h
  rfl

/-- A statement that holds others becomes one such statement. -/
theorem exists_spread_eq (h : Transform.isLine s = false) :
    ∃ t, s.spread = [t] ∧ Transform.isLine t = false := by
  cases s with
  | line line => cases h
  | _ => exact ⟨_, rfl, rfl⟩

theorem takeWhile_spreadAll (body : List Stmt) :
    (spreadAll body).takeWhile Transform.isLine = spreadAll (body.takeWhile Transform.isLine) ∧
      (spreadAll body).dropWhile Transform.isLine = spreadAll (body.dropWhile Transform.isLine) := by
  induction body with
  | nil => exact ⟨rfl, rfl⟩
  | cons s body ih =>
    cases hs : Transform.isLine s with
    | true =>
      obtain ⟨line, rfl⟩ := exists_line_of_isLine hs
      have hlines : ∀ t ∈ (Stmt.line line).spread, Transform.isLine t = true :=
        fun t ht => isLine_of_mem_spread ht
      rw [spreadAll, List.takeWhile_append_of_pos hlines, List.dropWhile_append_of_pos hlines,
        List.takeWhile_cons_of_pos hs, List.dropWhile_cons_of_pos hs, ih.1, ih.2]
      exact ⟨rfl, rfl⟩
    | false =>
      obtain ⟨t, ht, hline⟩ := exists_spread_eq hs
      have hcons : spreadAll (s :: body) = t :: spreadAll body := by
        rw [spreadAll, ht, List.singleton_append]
      rw [List.takeWhile_cons_of_neg (by simp [hs]), List.dropWhile_cons_of_neg (by simp [hs]), hcons,
        List.takeWhile_cons_of_neg (by simp [hline]), List.dropWhile_cons_of_neg (by simp [hline])]
      exact ⟨rfl, rfl⟩

end Spread

end Hydration.Syntax
