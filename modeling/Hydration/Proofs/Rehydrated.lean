import Hydration.Proofs.Facts
import Hydration.Proofs.Outermost

/-! What a hydrated module says at its top level. Replacing classes keeps their names and touches
nothing else that the scan looks at, so the facts of the module stay the same. -/

namespace Hydration.Imports

open Syntax Transform

theorem isScanned_shell (clauses : List Clause) :
    isScanned (clauses.map Clause.shell) = isScanned clauses := by
  have hs (clause : Clause) : isStarHandler clause.shell = isStarHandler clause := by
    obtain ⟨leading, head, gap, body⟩ := clause
    cases head <;> rfl
  cases clauses with
  | nil => rfl
  | cons clause rest =>
    obtain ⟨leading, head, gap, body⟩ := clause
    cases head with
    | try_ =>
      change (!(rest.map Clause.shell).any isStarHandler) = !rest.any isStarHandler
      simp [List.any_map, Function.comp_def, hs]
    | _ => rfl

theorem name_dropBases (names : List String) (head : ClassHead) :
    (dropBases names head).name = head.name := by
  simp only [dropBases]
  split
  · rfl
  · split
    · split <;> rfl
    · rfl

/-- A hydrated class is a class of the same name. -/
theorem class_of_hydrateClass {plan : Plan} {head : ClassHead} {body : Suite} {t : Stmt}
    (h : hydrateClass plan head body = .ok t) :
    ∃ head' body', t = .class_ head' body' ∧ head'.name = head.name := by
  simp only [hydrateClass, bind_eq_ok] at h
  obtain ⟨members, -, he⟩ := h
  exact ⟨_, _, (Except.ok.inj he).symm, name_dropBases plan.clientBases head⟩

theorem factsOfStmt_hydrateClass {plan : Plan} {head : ClassHead} {body : Suite} {t : Stmt}
    (h : hydrateClass plan head body = .ok t) : factsOfStmt t = [.defines [head.name]] := by
  obtain ⟨head', body', rfl, hn⟩ := class_of_hydrateClass h
  simp [factsOfStmt, hn]

/-- What stands in the place of a class says only that its name is defined. -/
def KeepsName (replace : Replace) : Prop :=
  ∀ component head body t, replace component head body = .ok t →
    factsOfStmt t = [.defines [head.name]]

section Walk

variable {locate : Locate} {replace : Replace}

mutual

theorem factsOfStmt_replaceIn (hr : KeepsName replace) :
    (s t : Stmt) → replaceIn locate replace s = .ok t → factsOfStmt t = factsOfStmt s
  | .line line, t, h => by
    obtain rfl := Except.ok.inj h
    rfl
  | .func head body, t, h => by
    simp only [replaceIn, bind_eq_ok] at h
    obtain ⟨body', -, he⟩ := h
    obtain rfl := Except.ok.inj he
    rfl
  | .class_ head body, t, h => by
    cases hl : locate head with
    | some component =>
      simp only [replaceIn, hl] at h
      exact hr component head body t h
    | none =>
      simp only [replaceIn, hl, bind_eq_ok] at h
      obtain ⟨body', -, he⟩ := h
      obtain rfl := Except.ok.inj he
      rfl
  | .compound clauses, t, h => by
    simp only [replaceIn, bind_eq_ok] at h
    obtain ⟨clauses', hc, he⟩ := h
    obtain rfl := Except.ok.inj he
    have hs := congrArg isScanned (replaceInClauses_eq_ok.mp hc).1
    rw [isScanned_shell, isScanned_shell] at hs
    simp only [factsOfStmt, hs, factsOfClauses_replaceInClauses hr clauses clauses' hc]

theorem factsOfSuite_replaceInSuite (hr : KeepsName replace) :
    (a b : Suite) → replaceInSuite locate replace a = .ok b → factsOfSuite b = factsOfSuite a
  | .block header indent body footer, b, h => by
    simp only [replaceInSuite, bind_eq_ok] at h
    obtain ⟨body', hb, he⟩ := h
    obtain rfl := Except.ok.inj he
    exact factsOfBody_replaceInAll hr body body' hb
  | .inline gap entries tail, b, h => by
    obtain rfl := Except.ok.inj h
    rfl

theorem factsOfClauses_replaceInClauses (hr : KeepsName replace) : (as bs : List Clause) →
    replaceInClauses locate replace as = .ok bs → factsOfClauses bs = factsOfClauses as
  | [], bs, h => by
    obtain rfl := Except.ok.inj h
    rfl
  | .mk leading head gap body :: rest, bs, h => by
    simp only [replaceInClauses, bind_eq_ok] at h
    obtain ⟨body', hb, rest', hc, he⟩ := h
    obtain rfl := Except.ok.inj he
    simp only [factsOfClauses, factsOfSuite_replaceInSuite hr body body' hb,
      factsOfClauses_replaceInClauses hr rest rest' hc]

theorem factsOfBody_replaceInAll (hr : KeepsName replace) : (old new : List Stmt) →
    replaceInAll locate replace old = .ok new → factsOfBody new = factsOfBody old
  | [], new, h => by
    obtain rfl := Except.ok.inj h
    rfl
  | s :: rest, new, h => by
    simp only [replaceInAll, bind_eq_ok] at h
    obtain ⟨t, ht, rest', hc, he⟩ := h
    obtain rfl := Except.ok.inj he
    simp only [factsOfBody, factsOfStmt_replaceIn hr s t ht,
      factsOfBody_replaceInAll hr rest rest' hc]

end

end Walk

/-- Replacing the located classes of a module changes no fact. -/
theorem factsOfBody_replaceClasses {index : Index} {context : Context} {helpers : Helpers}
    {m result : Module} (h : replaceClasses index context helpers m = .ok result) :
    factsOfBody result.body = factsOfBody m.body := by
  simp only [replaceClasses, bind_eq_ok, mapError_eq_ok] at h
  obtain ⟨-, -, body, hb, he⟩ := h
  obtain rfl := Except.ok.inj he
  exact factsOfBody_replaceInAll (fun _ _ _ _ ht => factsOfStmt_hydrateClass ht) m.body body hb

end Hydration.Imports
