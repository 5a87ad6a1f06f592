import Hydration.Proofs.Batch
import Hydration.Proofs.Compiling
import Hydration.Proofs.StageOrder

/-! Modules that are hydrated on their own. The text is that of a transformation in a fresh build, and
a failure names the errors of this build: the one of a module that could not be read or hydrated, or
none where nothing was written. -/

namespace Hydration

open Syntax Transform

/-- What keeps a module from being hydrated: an indentation that its members cannot follow, or a text
or tree of theirs that is not well formed. -/
theorem hydrateModule_eq_error {index : Index} {context : Context} {m : Module} {failure : Failure}
    (h : hydrateModule index context m = .error failure) :
    (∃ indent, failure = .badIndent indent) ∨ ∃ e, failure = .read e := by
  unfold hydrateModule at h
  dsimp only at h
  split at h
  · cases h
  · simp only [bind_eq_error, mapError_eq_error, replaceClasses] at h
    rcases h with ⟨e, -, he⟩ | ⟨supplied, -, h | ⟨hydrated, -, h⟩⟩
    · exact .inr ⟨_, he.symm⟩
    · rcases h with h | ⟨-, -, ⟨e, -, he⟩ | ⟨body, -, h⟩⟩
      · unfold checkIndent at h
        split at h
        · cases h
        · exact .inl ⟨_, (Except.error.inj h).symm⟩
      · exact .inr ⟨e, he.symm⟩
      · cases h
    · cases h

section Outcomes

variable {text written : String} {components : List Component} {options : Options} {failure : Failure}

/-- The module cannot be read, or it cannot be hydrated. -/
def Fails (text : String) (components : List Component) (options : Options) (failure : Failure) : Prop :=
  readModule options text = .error failure ∨ ∃ m, readModule options text = .ok m ∧
    hydrateModule (.ofComponents components) (contextOf options (fileOf options components)) m =
      .error failure

/-- The module is read, hydrated and written. -/
def Emits (text : String) (components : List Component) (options : Options) (written : String) : Prop :=
  ∃ m result diagnostics, readModule options text = .ok m ∧
    hydrateModule (.ofComponents components) (contextOf options (fileOf options components)) m =
      .ok (result, diagnostics) ∧ result.render = written

theorem fails_iff :
    Fails text components options failure ↔
      (Compiler.standard (requestOf text components options)).outcome = .error failure := by
  simp only [compile_eq, bind_eq_error, Fails, requestOf]
  refine or_congr_right (exists_congr fun m => and_congr_right fun _ => (or_iff_left ?_).symm)
  rintro ⟨output, -, h⟩
  cases h

theorem emits_iff :
    Emits text components options written ↔ ∃ output,
      (Compiler.standard (requestOf text components options)).outcome = .ok output ∧
        output.text = some written := by
  simp only [compile_eq, bind_eq_ok, Emits, requestOf, Prod.exists]
  constructor
  · rintro ⟨m, result, diagnostics, hm, hr, hw⟩
    exact ⟨_, ⟨m, hm, result, diagnostics, hr, rfl⟩, congrArg some hw⟩
  · rintro ⟨output, ⟨m, hm, result, diagnostics, hr, ho⟩, hw⟩
    obtain rfl := Except.ok.inj ho
    exact ⟨m, result, diagnostics, hm, hr, Option.some.inj hw⟩

theorem Emits.unique {own : String} (h : Emits text components options written)
    (h' : Emits text components options own) : own = written := by
  obtain ⟨output, ho, hw⟩ := emits_iff.mp h
  obtain ⟨other, ho', hw'⟩ := emits_iff.mp h'
  obtain rfl := Except.ok.inj (ho.symm.trans ho')
  exact Option.some.inj (hw'.symm.trans hw)

theorem Fails.not_emits (h : Fails text components options failure) :
    ¬ Emits text components options written := by
  intro he
  obtain ⟨output, ho, -⟩ := emits_iff.mp he
  cases (fails_iff.mp h).symm.trans ho

/-- Either the module fails or it is written. -/
theorem fails_or_emits (text : String) (components : List Component) (options : Options) :
    (∃ failure, Fails text components options failure) ∨
      ∃ written, Emits text components options written := by
  cases h : (Compiler.standard (requestOf text components options)).outcome with
  | error failure => exact .inl ⟨failure, fails_iff.mpr h⟩
  | ok output =>
    obtain ⟨m, result, -, -, hw⟩ := compile_eq_ok h
    exact .inr ⟨result.render, emits_iff.mpr ⟨output, h, hw⟩⟩

theorem Fails.own (h : Fails text components options failure) :
    failure = .unknownVersion ∨ (∃ indent, failure = .badIndent indent) ∨ ∃ e, failure = .read e := by
  rcases h with h | ⟨m, -, h⟩
  · rcases readModule_eq_error.mp h with h | ⟨-, e, -, rfl⟩
    · exact .inl (checkVersion_eq_error h)
    · exact .inr (.inr ⟨e, rfl⟩)
  · exact .inr (hydrateModule_eq_error h)

/-- A module that fails leaves one error behind. -/
theorem Fails.transform (h : Fails text components options failure) :
    (({} : Build).transform text components options).2 = none ∧
      (({} : Build).transform text components options).1.sink.errors =
        [failure.diagnostic (fileOf options components)] := by
  have herror := failure.isError_diagnostic (fileOf options components)
  rw [Build.transform_eq, if_neg (by simp), Build.settle_of_error (fails_iff.mp h)]
  refine ⟨rfl, ?_⟩
  rw [Build.catchFailure_sink]
  simp [Build.hear, Sink.extend, Sink.errors, requestOf, herror]

/-- A module that is written leaves no error behind, and its text comes back unless it is empty. -/
theorem Emits.transform (h : Emits text components options written) :
    (({} : Build).transform text components options).2 = named? (some written) ∧
      (({} : Build).transform text components options).1.sink.errors = [] := by
  obtain ⟨output, ho, hw⟩ := emits_iff.mp h
  have hwarn : ∀ d ∈ output.diagnostics, d.isError = false := by
    intro d hd
    simp [Diagnostic.isError, warning_of_compile ho d hd]
  have hclean : (({} : Sink).extend output.diagnostics).hasErrors = false :=
    hasErrors_extend_of_warnings (warning_of_compile ho) {}
  rw [Build.transform_eq, if_neg (by simp)]
  constructor
  · refine Option.ext fun own => ?_
    rw [Build.settle_text_iff]
    simp only [Reply.reported, Reply.text, ho, hw, hclean, true_and]
    exact and_iff_right rfl
  · rw [Build.settle_sink, Reply.reported, ho]
    simpa [Sink.errors, Sink.extend] using hwarn

/-- The errors of a build, each on a line of its own. -/
def errorReport (errors : List Diagnostic) : String :=
  if errors = [] then "no output produced" else "\n".intercalate (errors.map Diagnostic.summary)

theorem errorReport_singleton (d : Diagnostic) : errorReport [d] = d.summary := by
  rw [errorReport, if_neg (by simp), List.map_singleton, String.intercalate_singleton]

theorem Diagnostic.head_summary {d : Diagnostic} (h : d.isError = true) :
    d.summary.toList.head? = some 'e' := by
  have hs : d.severity = .error := by simpa [Diagnostic.isError] using h
  simp [Diagnostic.summary, hs, Severity.label, toString]

/-- A failure that names an error does not tell of none. -/
theorem summary_ne {d : Diagnostic} (h : d.isError = true) :
    "Hydration failed:\n" ++ d.summary ≠ "Hydration failed:\nno output produced" := by
  intro he
  have hs : d.summary = "no output produced" :=
    (String.append_right_inj "Hydration failed:\n").mp he
  have hhead := Diagnostic.head_summary h
  rw [hs] at hhead
  cases hhead

theorem Fails.hydrateText (h : Fails text components options failure) :
    hydrateText text components options =
      .error ("Hydration failed:\n" ++
        (failure.diagnostic (fileOf options components)).summary) := by
  obtain ⟨hnone, herrors⟩ := h.transform
  have hfull : (failure.diagnostic (fileOf options components)).summary.isEmpty = false := by
    refine Bool.eq_false_iff.mpr fun he => ?_
    have hhead := Diagnostic.head_summary (failure.isError_diagnostic (fileOf options components))
    rw [String.isEmpty_iff.mp he] at hhead
    cases hhead
  rw [Hydration.hydrateText]
  dsimp only
  rw [hnone, herrors]
  simp [hfull]

theorem Emits.hydrateText (h : Emits text components options written) :
    hydrateText text components options =
      if written = "" then .error "Hydration failed:\nno output produced" else .ok written := by
  obtain ⟨htext, herrors⟩ := h.transform
  rw [Hydration.hydrateText]
  dsimp only
  rw [htext, herrors]
  by_cases he : written = ""
  · subst he
    rfl
  · rw [named?_eq_some_iff.mpr ⟨rfl, he⟩, if_neg he]

/-- The text of a fresh build, or a failure that tells of its errors. -/
theorem hydrateText_eq (text : String) (components : List Component) (options : Options) :
    hydrateText text components options =
      match (({} : Build).transform text components options).2 with
      | some written => .ok written
      | none => .error ("Hydration failed:\n" ++
          errorReport (({} : Build).transform text components options).1.sink.errors) := by
  rcases fails_or_emits text components options with ⟨failure, h⟩ | ⟨written, h⟩
  · rw [h.hydrateText, h.transform.1, h.transform.2, errorReport_singleton]
  · rw [h.hydrateText, h.transform.1, h.transform.2]
    by_cases he : written = ""
    · subst he
      rfl
    · rw [if_neg he, named?_eq_some_iff.mpr ⟨rfl, he⟩]

theorem transform_eq_none_iff :
    (({} : Build).transform text components options).2 = none ↔
      (∃ failure, Fails text components options failure) ∨ Emits text components options "" := by
  rcases fails_or_emits text components options with ⟨failure, h⟩ | ⟨written, h⟩
  · exact iff_of_true h.transform.1 (.inl ⟨failure, h⟩)
  · rw [h.transform.1]
    constructor
    · intro hn
      by_cases he : written = ""
      · exact .inr (he ▸ h)
      · rw [named?_eq_some_iff.mpr ⟨rfl, he⟩] at hn
        cases hn
    · rintro (⟨failure, hf⟩ | he)
      · exact absurd h hf.not_emits
      · obtain rfl := h.unique he
        rfl

theorem hydrateText_eq_nothing_iff :
    hydrateText text components options = .error "Hydration failed:\nno output produced" ↔
      Emits text components options "" := by
  rcases fails_or_emits text components options with ⟨failure, h⟩ | ⟨written, h⟩
  · refine iff_of_false ?_ h.not_emits
    rw [h.hydrateText]
    exact fun he => summary_ne (failure.isError_diagnostic _) (Except.error.inj he)
  · rw [h.hydrateText]
    constructor
    · intro ht
      by_cases he : written = ""
      · exact he ▸ h
      · rw [if_neg he] at ht
        cases ht
    · intro he
      rw [if_pos (h.unique he).symm]

end Outcomes

/-- A module on its own gives the text that it gives in a fresh build, and otherwise a failure that
names the errors of this build. There is exactly one if the module could not be read or hydrated, for a
version or a text that is refused or for an indentation; the failure tells of none exactly if the text
that was written is empty. -/
theorem hydrateText_agrees (text : String) (components : List Component) (options : Options) :
    let fresh := ({} : Build).transform text components options
    (∀ written, hydrateText text components options = .ok written ↔ fresh.2 = some written) ∧
    (∀ message, hydrateText text components options = .error message ↔
      fresh.2 = none ∧ message = "Hydration failed:\n" ++ errorReport fresh.1.sink.errors) ∧
    (∀ failure, Fails text components options failure →
      fresh.2 = none ∧ fresh.1.sink.errors = [failure.diagnostic (fileOf options components)] ∧
        (failure = .unknownVersion ∨ (∃ indent, failure = .badIndent indent) ∨
          ∃ e, failure = .read e)) ∧
    (fresh.2 = none ↔
      (∃ failure, Fails text components options failure) ∨ Emits text components options "") ∧
    (hydrateText text components options = .error "Hydration failed:\nno output produced" ↔
      Emits text components options "") := by
  intro fresh
  refine ⟨fun written => ?_, fun message => ?_, fun failure h => ⟨h.transform.1, h.transform.2, h.own⟩,
    transform_eq_none_iff, hydrateText_eq_nothing_iff⟩
  · rw [hydrateText_eq]
    cases fresh.2 <;> simp
  · rw [hydrateText_eq]
    cases fresh.2 <;> simp [fresh, eq_comm]

/-- A version of the grammar that is not known, and a text without anything in it. -/
theorem hydrateText_agrees_of_version :
    Fails "x = 1\n" [] { targetVersion := some "2.1" } .unknownVersion ∧
    (({} : Build).transform "x = 1\n" [] { targetVersion := some "2.1" }).1.sink.errors =
      [Failure.unknownVersion.diagnostic none] ∧
    hydrateText "" [] {} = .error "Hydration failed:\nno output produced" := by
  have hversion : checkVersion { targetVersion := some "2.1" } = .error .unknownVersion :=
    checkVersion_of_toOption (by decide +kernel)
  have hfails : Fails "x = 1\n" [] { targetVersion := some "2.1" } .unknownVersion :=
    .inl (readModule_eq_error.mpr (.inl hversion))
  have hempty : ((readModule {} "").toOption.bind fun m =>
      (hydrateModule (.ofComponents []) (contextOf {} (fileOf {} [])) m).toOption.map fun output =>
        output.1.render) = some "" := by
    decide +kernel
  obtain ⟨m, hm, hr⟩ := Option.bind_eq_some_iff.mp hempty
  obtain ⟨⟨result, diagnostics⟩, hr, hw⟩ := Option.map_eq_some_iff.mp hr
  refine ⟨hfails, ?_, ?_⟩
  · exact ((hydrateText_agrees _ [] _).2.2.1 _ hfails).2.1
  · exact (hydrateText_agrees "" [] {}).2.2.2.2.mpr
      ⟨m, result, diagnostics, toOption_eq_some.mp hm, toOption_eq_some.mp hr, hw⟩

end Hydration
