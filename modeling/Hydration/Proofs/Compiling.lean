import Hydration.Proofs.Reporting

/-! The standard compiler: it reads a module, hydrates it and writes it. It fails where one of the
first two steps does, and all that it reports when it succeeds are warnings. -/

namespace Hydration

open Transform

theorem compile_eq (request : Request) :
    (Compiler.standard request).outcome = (do
      let m ← readModule request.options request.text
      let result ← hydrateModule request.index (contextOf request.options request.file) m
      return { text := some result.1.render, diagnostics := result.2 }) := by
  simp only [Compiler.standard, runStages, checkStages, runPasses, List.foldlM_cons,
    List.foldlM_nil, Pass.hydration, bind, Except.bind, pure, Except.pure]
  cases readModule request.options request.text with
  | error e => rfl
  | ok m =>
    cases hr : hydrateModule request.index (contextOf request.options request.file) m with
    | error e => simp only [hr, Except.map]
    | ok result => simp only [hr, Except.map, List.nil_append]

theorem compile_eq_ok {request : Request} {output : Output}
    (h : (Compiler.standard request).outcome = .ok output) :
    ∃ m result, readModule request.options request.text = .ok m ∧
      hydrateModule request.index (contextOf request.options request.file) m =
        .ok (result, output.diagnostics) ∧ output.text = some result.render := by
  simp only [compile_eq, bind_eq_ok, Prod.exists] at h
  obtain ⟨m, hm, result, diagnostics, hr, h⟩ := h
  obtain rfl := Except.ok.inj h
  exact ⟨m, result, hm, hr, rfl⟩

theorem warning_of_hydrateModule {index : Index} {context : Context} {m result : Syntax.Module}
    {diagnostics : List Diagnostic} (h : hydrateModule index context m = .ok (result, diagnostics)) :
    ∀ d ∈ diagnostics, d.severity = .warning := by
  obtain ⟨warnings, rfl, -, -⟩ := diagnostics_of_pass h
  intro d hd
  rcases List.mem_append.mp hd with hd | hd
  · have hn := unusedComponents_not_error hd
    cases hs : d.severity with
    | warning => rfl
    | error => simp [Diagnostic.isError, hs] at hn
  · obtain ⟨text, -, rfl⟩ := List.mem_map.mp hd
    rfl

/-- A successful compilation brings no error into a sink. -/
theorem warning_of_compile {request : Request} {output : Output}
    (h : (Compiler.standard request).outcome = .ok output) :
    ∀ d ∈ output.diagnostics, d.severity = .warning := by
  obtain ⟨m, result, -, hr, -⟩ := compile_eq_ok h
  exact warning_of_hydrateModule hr

/-- A text comes out only of a module that was read and hydrated, and the sink then grows by what
was reported on the way. -/
theorem Build.transform_eq_some {build : Build} {text written : String}
    {components : List Component} {options : Options}
    (h : (build.transform text components options).2 = some written) :
    ∃ m result diagnostics, readModule options text = .ok m ∧
      hydrateModule (.ofComponents components) (contextOf options (fileOf options components)) m =
        .ok (result, diagnostics) ∧ written = result.render ∧
      (build.transform text components options).1.sink = build.sink.extend diagnostics := by
  rw [Build.transform_eq] at h ⊢
  by_cases ha : build.abort = true
  · simp [ha] at h
  · rw [if_neg ha] at h ⊢
    obtain ⟨-, -, ht⟩ := Build.settle_text_iff.mp h
    rw [Build.settle_sink]
    cases ho : (Compiler.standard (requestOf text components options)).outcome with
    | error failure => simp [Reply.text, ho] at ht
    | ok output =>
      obtain ⟨m, result, hm, hr, hw⟩ := compile_eq_ok ho
      refine ⟨m, result, _, hm, hr, ?_, by rw [Reply.reported, ho]⟩
      rw [Reply.text, ho, named?_eq_some_iff, hw] at ht
      exact (Option.some.inj ht.1).symm

end Hydration
