import Hydration.Proofs.Planting

/-! Runs of several passes. Passes for components of different classes may run in either order, or as
one pass for all of them. -/

namespace Hydration.Transform

open Syntax Imports

section Runs

variable {context : Context} {m result : Module}

/-- The run of the passes succeeds with the module. -/
def Gives (context : Context) (passes : List Pass) (m result : Module) : Prop :=
  ∃ diagnostics, runPasses context passes m = .ok ⟨result, diagnostics⟩

theorem runPasses_cons (context : Context) (pass : Pass) (passes : List Pass) (m : Module) :
    runPasses context (pass :: passes) m = (do
      let next ← pass.run context m
      let rest ← runPasses context passes next.module
      return ⟨rest.module, next.diagnostics ++ rest.diagnostics⟩) := by
  have go (output : PassOutput) :
      passes.foldlM (fun result pass => do
        let next ← pass.run context result.module
        return (⟨next.module, result.diagnostics ++ next.diagnostics⟩ : PassOutput)) output = (do
      let rest ← runPasses context passes output.module
      return ⟨rest.module, output.diagnostics ++ rest.diagnostics⟩) := by
    induction passes generalizing output with
    | nil => simp [runPasses, pure, Except.pure, bind, Except.bind]
    | cons pass passes ih =>
      simp only [runPasses, List.foldlM_cons]
      cases pass.run context output.module with
      | error e => rfl
      | ok next =>
        simp only [bind, Except.bind, pure, Except.pure] at ih ⊢
        rw [ih, ih]
        cases runPasses context passes next.module with
        | error e => rfl
        | ok rest => simp
  simp only [runPasses, List.foldlM_cons]
  cases pass.run context m with
  | error e => rfl
  | ok next => exact go _

theorem gives_nil : Gives context [] m result ↔ result = m := by
  simp [Gives, runPasses, pure, Except.pure, eq_comm]

theorem gives_cons {pass : Pass} {passes : List Pass} :
    Gives context (pass :: passes) m result ↔ ∃ mid,
      (∃ diagnostics, pass.run context m = .ok ⟨mid, diagnostics⟩) ∧
        Gives context passes mid result := by
  simp only [Gives, runPasses_cons, bind_eq_ok]
  constructor
  · rintro ⟨diagnostics, next, hn, rest, hr, he⟩
    obtain rfl : rest.module = result := congrArg PassOutput.module (Except.ok.inj he)
    exact ⟨next.module, ⟨_, hn⟩, _, hr⟩
  · rintro ⟨mid, ⟨first, hm⟩, second, hr⟩
    exact ⟨_, _, hm, _, hr, rfl⟩

theorem run_hydration_iff {index : Index} :
    (∃ diagnostics, (Pass.hydration index).run context m = .ok ⟨result, diagnostics⟩) ↔
      Hydrates index context m result := by
  simp only [Pass.hydration, Hydrates]
  cases hydrateModule index context m with
  | error e => simp [Except.map]
  | ok output =>
    obtain ⟨module, diagnostics⟩ := output
    simp [Except.map]

end Runs

/-- Passes for components of different classes commute, and a single pass for all of them does what
they do one after the other: if one of the three runs succeeds with a module, so do the other two
with the same one. No located class may lie inside another one or be planted there, and no empty
name may clash. In a module that was read, it takes a name that is no identifier to plant one. -/
theorem passes_commute {front back : List Component} {context : Context} {m result : Module}
    (hm : Admissible m)
    (hkeys : ∀ a ∈ front, ∀ b ∈ back, Index.keyOf a ≠ Index.keyOf b)
    (hc : ¬ EmptyNameClash context.options.format (helperSpecifiers context.options) m)
    (ho : Apart (locateIn (.ofComponents (front ++ back)) context.file) m.body) :
    (¬ Plants (.ofComponents (front ++ back)) context m →
      (Gives context [.hydration (.ofComponents front), .hydration (.ofComponents back)] m result ↔
        Gives context [.hydration (.ofComponents (front ++ back))] m result) ∧
      (Gives context [.hydration (.ofComponents back), .hydration (.ofComponents front)] m result ↔
        Gives context [.hydration (.ofComponents (front ++ back))] m result)) ∧
    (∀ text, Module.parse text = .ok m → Plants (.ofComponents (front ++ back)) context m →
      ∃ x ∈ locatedClasses (.ofComponents (front ++ back)) context.file m,
        ∃ name ∈ replacedNames x.component, Text.isIdentifier name = false) := by
  constructor
  · intro hp
    have hs := locateIn_splits hkeys context.file
    simp only [gives_cons, gives_nil, run_hydration_iff, exists_eq_right']
    exact ⟨hydrates_whole_iff hm.wellNamed hs hc ho hp,
      hydrates_whole_iff hm.wellNamed hs.symm hc ho hp⟩
  · exact fun text ht => exists_of_plants ht ho

def firstComponent : Component := { tag := "a-a", className := "A", sourcePath := "a.py" }

def secondComponent : Component := { tag := "b-b", className := "B", sourcePath := "./a.py" }

/-- The classes `A` and `B`. -/
def twoClasses : Module :=
  { body := [.class_ { name := "A" } (.inline .space [{ stmt := .pass }] {}),
      .class_ { name := "B" } (.inline .space [{ stmt := .pass }] {})] }

theorem exists_gives_twoClasses :
    ∃ result, Gives { file := "a.py" }
      [.hydration (.ofComponents ([firstComponent] ++ [secondComponent]))] twoClasses result := by
  have hd : ((runPasses { file := "a.py" }
      [.hydration (.ofComponents ([firstComponent] ++ [secondComponent]))] twoClasses).toOption.map
        fun _ => true) = some true := by
    decide +kernel
  obtain ⟨⟨result, diagnostics⟩, hr, -⟩ := Option.map_eq_some_iff.mp hd
  exact ⟨result, diagnostics, toOption_eq_some.mp hr⟩

theorem not_plants_twoClasses :
    ¬ Plants (.ofComponents ([firstComponent] ++ [secondComponent])) { file := "a.py" }
      twoClasses := by
  have hd : ((supply .named (helperSpecifiers {}) twoClasses).toOption.map fun supplied =>
      decide (PlantsNothing
        (locateIn (.ofComponents ([firstComponent] ++ [secondComponent])) "a.py")
        (replaceWith { file := "a.py" } twoClasses.style supplied) twoClasses.body)) =
      some true := by
    decide +kernel
  rintro ⟨-, supplied, hs, hn⟩
  rw [toOption_eq_some.mpr hs] at hd
  exact hn (of_decide_eq_true (Option.some.inj hd))

theorem passes_commute_of_twoClasses :
    ∃ result,
      Apart (locateIn (.ofComponents ([firstComponent] ++ [secondComponent])) "a.py")
        twoClasses.body ∧
      ¬ Plants (.ofComponents ([firstComponent] ++ [secondComponent])) { file := "a.py" }
        twoClasses ∧
      Gives { file := "a.py" } [.hydration (.ofComponents [firstComponent]),
        .hydration (.ofComponents [secondComponent])] twoClasses result ∧
      Gives { file := "a.py" } [.hydration (.ofComponents [secondComponent]),
        .hydration (.ofComponents [firstComponent])] twoClasses result := by
  obtain ⟨result, hr⟩ := exists_gives_twoClasses
  have hm : WellNamed twoClasses := by
    intro f hf
    simp only [twoClasses, factsOfBody, factsOfStmt, List.append_nil, List.cons_append,
      List.nil_append, List.mem_cons, List.not_mem_nil, or_false] at hf
    rcases hf with rfl | rfl <;> trivial
  have hkeys : ∀ a ∈ [firstComponent], ∀ b ∈ [secondComponent],
      Index.keyOf a ≠ Index.keyOf b := by decide
  have hc : ¬ EmptyNameClash ImportStyle.named (helperSpecifiers {}) twoClasses := by
    rintro ⟨s, hs⟩
    exact absurd hs.qualified (by decide)
  have ho : Apart (locateIn (.ofComponents ([firstComponent] ++ [secondComponent])) "a.py")
      twoClasses.body := by decide
  have hcommute := @passes_commute [firstComponent] [secondComponent] { file := "a.py" } twoClasses
    result (.inr hm) hkeys hc ho
  obtain ⟨hfirst, hsecond⟩ := hcommute.1 not_plants_twoClasses
  exact ⟨result, ho, not_plants_twoClasses, hfirst.mpr hr, hsecond.mpr hr⟩

end Hydration.Transform
