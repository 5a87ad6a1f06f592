import Hydration.Proofs.Indexing
import Hydration.Proofs.Selective

/-! What a pass reports. Each component of the file is either put to use on a class or reported as
missing, once, and nothing that a successful pass reports is an error. -/

namespace Hydration.Transform

open Syntax Imports

section Find

variable {locate : Locate}

theorem locatedIn_of_located {head : ClassHead} {body : Suite} {component : Component}
    (h : locate head = some component) :
    locatedIn locate (.class_ head body) = [⟨head, body, component⟩] := by
  simp [locatedIn, h]

theorem mem_locatedInAll_iff_exists {body : List Stmt} {x : Located} :
    x ∈ locatedInAll locate body ↔ ∃ s ∈ body, x ∈ locatedIn locate s := by
  induction body with
  | nil => simp [locatedInAll]
  | cons s body ih => simp [locatedInAll, ih]

/-- The search finds the located classes above which no other one stands. -/
theorem mem_locatedInAll_iff {body : List Stmt} {x : Located} :
    x ∈ locatedInAll locate body ↔
      ∃ p, stmtAt body p = some (.class_ x.head x.body) ∧ locate x.head = some x.component ∧
        ClearAbove locate body p := by
  -- By levels: the search goes below a statement exactly if it is not located itself.
  induction body using body_induction with
  | h body ih =>
    rw [mem_locatedInAll_iff_exists]
    constructor
    · rintro ⟨s, hs, hx⟩
      obtain ⟨i, hi⟩ := List.mem_iff_getElem?.mp hs
      cases hl : locatedStmt locate s with
      | none =>
        rw [locatedIn_of_unlocated hl, ih s hs] at hx
        obtain ⟨p, hp, hc, ha⟩ := hx
        have hpn := ne_nil_of_stmtAt hp
        exact ⟨i :: p, (stmtAt_below hi hpn).trans hp, hc, (clearAbove_below hi hpn).mpr ⟨hl, ha⟩⟩
      | some component =>
        cases s with
        | class_ head suite =>
          rw [locatedIn_of_located hl, List.mem_singleton] at hx
          subst hx
          exact ⟨[i], hi, hl, clearAbove_singleton locate body i⟩
        | line => simp [locatedStmt] at hl
        | func => simp [locatedStmt] at hl
        | compound => simp [locatedStmt] at hl
    · rintro ⟨p, hp, hc, ha⟩
      cases p with
      | nil => exact absurd rfl (ne_nil_of_stmtAt hp)
      | cons i p =>
        by_cases hpn : p = []
        · subst hpn
          refine ⟨_, List.mem_of_getElem? hp, ?_⟩
          rw [locatedIn_of_located hc]
          exact List.mem_singleton.mpr rfl
        · obtain ⟨s, hs, hp⟩ := exists_above_of_stmtAt hpn hp
          obtain ⟨hl, ha⟩ := (clearAbove_below hs hpn).mp ha
          have hm := List.mem_of_getElem? hs
          refine ⟨s, hm, ?_⟩
          rw [locatedIn_of_unlocated hl, ih s hm]
          exact ⟨p, hp, hc, ha⟩

end Find

/-- A class of the module that the pass locates, with nothing located above it, stands in the result
as it is hydrated with the component. -/
def Uses (index : Index) (context : Context) (m result : Module) (component : Component) : Prop :=
  ∃ p head body supplied t q,
    stmtAt m.body p = some (.class_ head body) ∧
    ClearAbove (locateIn index context.file) m.body p ∧
    locateIn index context.file head = some component ∧
    supply context.options.format (helperSpecifiers context.options) m = .ok supplied ∧
    replaceClass context.options (helpersOf context.options supplied.references) m.style
      component head body = .ok t ∧
    stmtAt result.body q = some t

theorem getElem?_insertAt {body : List Stmt} {j : Nat} {s : Stmt} (i : Nat)
    (statements : List Stmt) (h : body[j]? = some s) :
    ∃ k : Nat, (insertAt body i statements)[k]? = some s := by
  have hs : s ∈ insertAt body i statements := by
    have hm := List.mem_of_getElem? h
    rw [← List.take_append_drop i body] at hm
    simp only [insertAt, List.mem_append] at hm ⊢
    tauto
  exact List.mem_iff_getElem?.mp hs

theorem stmtAt_insertAt {body : List Stmt} {p : List Nat} {s : Stmt} (i : Nat)
    (statements : List Stmt) (h : stmtAt body p = some s) :
    ∃ q, stmtAt (insertAt body i statements) q = some s := by
  cases p with
  | nil => exact absurd rfl (ne_nil_of_stmtAt h)
  | cons j p =>
    by_cases hp : p = []
    · subst hp
      obtain ⟨k, hk⟩ := getElem?_insertAt i statements h
      exact ⟨[k], hk⟩
    · obtain ⟨a, ha, hs⟩ := exists_above_of_stmtAt hp h
      obtain ⟨k, hk⟩ := getElem?_insertAt i statements ha
      exact ⟨k :: p, (stmtAt_below hk hp).trans hs⟩

section Pass

variable {index : Index} {context : Context} {m result : Module} {diagnostics : List Diagnostic}

/-- The components put to use are those of the located classes. -/
theorem uses_iff (h : hydrateModule index context m = .ok (result, diagnostics))
    {component : Component} :
    Uses index context m result component ↔
      component ∈ (locatedClasses index context.file m).map (·.component) := by
  constructor
  · rintro ⟨p, head, body, -, -, -, hp, ha, hc, -⟩
    exact List.mem_map.mpr ⟨⟨head, body, component⟩, mem_locatedInAll_iff.mpr ⟨p, hp, hc, ha⟩, rfl⟩
  · intro hm
    obtain ⟨⟨head, body, c⟩, hx, rfl⟩ := List.mem_map.mp hm
    obtain ⟨p, hp, hc, ha⟩ := mem_locatedInAll_iff.mp hx
    cases (selective_iff h result).mpr rfl with
    | untouched hu => exact absurd (hu p _ hp) (by simp [locatedStmt, hc])
    | @hydrated supplied statements new hn hs hm hr =>
      obtain ⟨t, ht, hnew⟩ := hr.replaced p head body c hp hc ha
      obtain ⟨q, hq⟩ := stmtAt_insertAt (headerIndex m.body) statements hnew
      exact ⟨p, head, body, supplied, t, q, hp, ha, hc, hs, ht, hq⟩

theorem diagnostics_of_pass (h : hydrateModule index context m = .ok (result, diagnostics)) :
    ∃ warnings, diagnostics =
        unusedComponents context index
          ((locatedClasses index context.file m).map (·.component.className)) ++
        importWarnings context warnings ∧
      (locatedClasses index context.file m = [] → warnings = []) ∧
      (locatedClasses index context.file m ≠ [] → ∃ supplied,
        supply context.options.format (helperSpecifiers context.options) m = .ok supplied ∧
          warnings = supplied.warnings) := by
  unfold hydrateModule at h
  by_cases he : locatedClasses index context.file m = []
  · simp only [he, List.isEmpty_nil, if_true] at h
    obtain ⟨-, rfl⟩ := Prod.mk.inj (Except.ok.inj h)
    exact ⟨[], by simp [he, importWarnings], by simp [he]⟩
  · have hn : (locatedClasses index context.file m).isEmpty = false := by simpa using he
    simp only [hn, Bool.false_eq_true, if_false, bind_eq_ok, mapError_eq_ok] at h
    obtain ⟨supplied, hs, hydrated, -, h⟩ := h
    obtain ⟨-, rfl⟩ := Prod.mk.inj (Except.ok.inj h)
    exact ⟨supplied.warnings, rfl, by simp [he], fun _ => ⟨supplied, hs, rfl⟩⟩

/-- A component of the file is put to use exactly if its class name is among those found. -/
theorem uses_iff_found (hi : index.Keyed)
    (h : hydrateModule index context m = .ok (result, diagnostics)) {component : Component}
    (hc : component ∈ index.ofFile context.file) :
    Uses index context m result component ↔ component.className ∈
      (locatedClasses index context.file m).map (·.component.className) := by
  rw [uses_iff h]
  constructor
  · intro hm
    obtain ⟨x, hx, rfl⟩ := List.mem_map.mp hm
    exact List.mem_map.mpr ⟨x, hx, rfl⟩
  · intro hm
    obtain ⟨x, hx, hname⟩ := List.mem_map.mp hm
    obtain ⟨-, -, hl, -⟩ := mem_locatedInAll_iff.mp hx
    -- Both are found under the name of the class, and only one component is.
    have hx' := hi.get?_eq_some_iff.mp hl
    have hfound := hi.get?_eq_some_iff.mpr ⟨hc, hname.symm⟩
    have hown := hi.get?_eq_some_iff.mpr ⟨hx'.1, rfl⟩
    exact List.mem_map.mpr ⟨x, hx, Option.some.inj (hown.symm.trans hfound)⟩

end Pass

/-- The diagnostic is a warning about a file as a whole. -/
structure Warns (file : String) (category : Category) (header message : String)
    (d : Diagnostic) : Prop where
  severity_eq : d.severity = .warning
  category_eq : d.category = category
  header_eq : d.header = header
  message_eq : d.message = message
  file_eq : d.file = some file
  unplaced : d.line = none ∧ d.column = none

/-- The class of a component is missing from the file. -/
def ReportsMissing (file : String) (component : Component) : Diagnostic → Prop :=
  Warns file .hydrate "Hydrate"
    ("Component '" ++ component.tag ++ "' expects class '" ++ component.className ++
      "', which is not declared in this module")

/-- A component belongs to another file. -/
def ReportsElsewhere (file : String) (component : Component) : Diagnostic → Prop :=
  Warns file .hydrate "Hydrate"
    ("Component '" ++ component.tag ++ "' is registered for '" ++ component.sourcePath ++
      "', not '" ++ file ++ "'; class '" ++ component.className ++ "' was not hydrated")

/-- What the imports gave rise to is passed on as it is. -/
def ReportsImport (file warning : String) : Diagnostic → Prop :=
  Warns file .imports "Imports" warning

theorem reportsMissing_missingClass (context : Context) (component : Component) :
    ReportsMissing context.file component (missingClass context component) := by
  constructor <;> simp [missingClass, Context.warning, toString, String.append_assoc]

theorem reportsElsewhere_otherFile (context : Context) (component : Component) :
    ReportsElsewhere context.file component (otherFile context component) := by
  have hquote : "'; class '" = "'; " ++ "class '" := rfl
  constructor <;>
    simp only [otherFile, Context.warning, toString, String.append_assoc, hquote, and_self]

theorem reportsImport_warning (context : Context) (warning : String) :
    ReportsImport context.file warning (context.warning .imports "Imports" warning) := by
  constructor <;> simp [Context.warning]

theorem forall₂_map_right {α β : Type} {R : α → β → Prop} {f : α → β} (h : ∀ a, R a (f a))
    (as : List α) : List.Forall₂ R as (as.map f) :=
  List.forall₂_map_right_iff.mpr (List.forall₂_same.mpr fun a _ => h a)

/-- Every diagnostic of the three blocks is a warning. -/
theorem warning_of_blocks {file : String} {missing others : List Component}
    {warnings : List String} {first second third : List Diagnostic}
    (h₁ : List.Forall₂ (ReportsMissing file) missing first)
    (h₂ : List.Forall₂ (ReportsElsewhere file) others second)
    (h₃ : List.Forall₂ (ReportsImport file) warnings third) :
    ∀ d ∈ first ++ second ++ third, d.severity = .warning := by
  intro d hd
  rcases List.mem_append.mp hd with hd | hd
  · rcases List.mem_append.mp hd with hd | hd
    · obtain ⟨_, -, hr⟩ := forall₂_exists h₁ hd
      exact hr.severity_eq
    · obtain ⟨_, -, hr⟩ := forall₂_exists h₂ hd
      exact hr.severity_eq
  · obtain ⟨_, -, hr⟩ := forall₂_exists h₃ hd
    exact hr.severity_eq

theorem hasErrors_extend_of_warnings {batch : List Diagnostic}
    (h : ∀ d ∈ batch, d.severity = .warning) (sink : Sink) :
    (sink.extend batch).hasErrors = sink.hasErrors := by
  have hn : batch.filter Diagnostic.isError = [] := by
    refine List.filter_eq_nil_iff.mpr fun d hd => ?_
    simp [Diagnostic.isError, h d hd]
  simp [Sink.hasErrors, Sink.extend, hn]

/-- The diagnostics of a successful pass. First come the missing classes, in the order of the
file's components; then, when the file has no component, all components of the index, as those of
other files; then, when some class was hydrated, what the imports gave rise to. A component of the
file either is put to use or is reported as missing, once. All of them are warnings, so the pass
brings no error into any sink. -/
theorem hydrated_or_reported {components : List Component} {context : Context} {m result : Module}
    {diagnostics : List Diagnostic}
    (h : hydrateModule (.ofComponents components) context m = .ok (result, diagnostics)) :
    let index := Index.ofComponents components
    ∃ (missing others : List Component) (warnings : List String)
      (first second third : List Diagnostic),
      diagnostics = first ++ second ++ third ∧
      List.Forall₂ (ReportsMissing context.file) missing first ∧
      List.Forall₂ (ReportsElsewhere context.file) others second ∧
      List.Forall₂ (ReportsImport context.file) warnings third ∧
      missing.Sublist (index.ofFile context.file) ∧
      (∀ component ∈ index.ofFile context.file,
        Uses index context m result component ∧ missing.count component = 0 ∨
          ¬ Uses index context m result component ∧ missing.count component = 1) ∧
      (others = if index.ofFile context.file = [] then index.toList else []) ∧
      ((∀ component, ¬ Uses index context m result component) → warnings = []) ∧
      ((∃ component, Uses index context m result component) → ∃ supplied,
        supply context.options.format (helperSpecifiers context.options) m = .ok supplied ∧
          warnings = supplied.warnings) ∧
      (∀ d ∈ diagnostics, d.severity = .warning) ∧
      ∀ sink : Sink, (sink.extend diagnostics).hasErrors = sink.hasErrors := by
  intro index
  have hi : index.Keyed := Index.keyed_ofComponents components
  obtain ⟨warnings, hd, hnone, hsome⟩ := diagnostics_of_pass h
  have hothers : (if (index.ofFile context.file).isEmpty then index.toList.map (otherFile context)
      else []) = (if index.ofFile context.file = [] then index.toList else []).map
        (otherFile context) := by
    by_cases he : index.ofFile context.file = [] <;> simp [he]
  rw [unusedComponents, hothers] at hd
  have h₁ := forall₂_map_right (reportsMissing_missingClass context)
    ((index.ofFile context.file).filter fun component =>
      !((locatedClasses index context.file m).map (·.component.className)).contains
        component.className)
  have h₂ := forall₂_map_right (reportsElsewhere_otherFile context)
    (if index.ofFile context.file = [] then index.toList else [])
  have h₃ := forall₂_map_right (reportsImport_warning context) warnings
  have hwarning : ∀ d ∈ diagnostics, d.severity = .warning := hd ▸ warning_of_blocks h₁ h₂ h₃
  refine ⟨_, _, warnings, _, _, _, hd, h₁, h₂, h₃, List.filter_sublist, ?_, rfl, ?_, ?_, hwarning,
    hasErrors_extend_of_warnings hwarning⟩
  · intro component hc
    rw [uses_iff_found hi h hc]
    by_cases hf : component.className ∈
        (locatedClasses index context.file m).map (·.component.className)
    · refine .inl ⟨hf, List.count_eq_zero.mpr fun hm => ?_⟩
      have hno := (List.mem_filter.mp hm).2
      rw [List.contains_iff_mem.mpr hf] at hno
      exact absurd hno (by decide)
    · refine .inr ⟨hf, List.count_eq_one_of_mem ((hi.nodup_ofFile _).filter _) ?_⟩
      exact List.mem_filter.mpr ⟨hc, by simpa using hf⟩
  · intro hu
    refine hnone (List.eq_nil_iff_forall_not_mem.mpr fun x hx => ?_)
    exact hu x.component ((uses_iff h).mpr (List.mem_map.mpr ⟨x, hx, rfl⟩))
  · rintro ⟨component, hu⟩
    refine hsome fun hn => ?_
    have hm := (uses_iff h).mp hu
    rw [hn] at hm
    simp at hm

def missingComponent : Component := { tag := "b-b", className := "B", sourcePath := "./a.py" }

/-- The class `A`, behind one that has the name of a helper. -/
def classModule : Module :=
  { body := [.class_ { name := "get_element" } (.inline .space [{ stmt := .pass }] {}),
      .class_ { name := "A" } (.inline .space [{ stmt := .pass }] {})] }

/-- One warning for the class that is missing and one for the helper that is renamed. -/
def classReports : List Diagnostic :=
  [{ severity := .warning, category := .hydrate, header := "Hydrate"
     message := "Component 'b-b' expects class 'B', which is not declared in this module"
     file := some "a.py" },
   { severity := .warning, category := .imports, header := "Imports"
     message := "'get_element' is already defined in this module; " ++
       "importing hydrate_runtime:get_element as '_hydrate_get_element'"
     file := some "a.py" }]

theorem reports_of_classModule :
    ∃ result, hydrateModule (Index.ofComponents [usedComponent, missingComponent])
      { file := "a.py" } classModule = .ok (result, classReports) := by
  have hd : (hydrateModule (Index.ofComponents [usedComponent, missingComponent])
      { file := "a.py" } classModule).toOption.map Prod.snd = some classReports := by
    decide +kernel
  obtain ⟨⟨result, diagnostics⟩, hr, rfl⟩ := Option.map_eq_some_iff.mp hd
  exact ⟨result, toOption_eq_some.mp hr⟩

theorem hydrated_or_reported_of_missing :
    ∃ result,
      hydrateModule (Index.ofComponents [usedComponent, missingComponent]) { file := "a.py" }
        classModule = .ok (result, classReports) ∧
      Uses (Index.ofComponents [usedComponent, missingComponent]) { file := "a.py" } classModule
        result usedComponent := by
  obtain ⟨result, h⟩ := reports_of_classModule
  refine ⟨result, h, ?_⟩
  obtain ⟨missing, others, warnings, first, second, third, hall, hmissing, -, -, -, huse, -⟩ :=
    hydrated_or_reported h
  rcases huse usedComponent (by decide) with ⟨hu, -⟩ | ⟨-, hcount⟩
  · exact hu
  · have hm : usedComponent ∈ missing := List.count_pos_iff.mp (by omega)
    obtain ⟨d, hd, hr⟩ := forall₂_exists hmissing.flip hm
    have hin : d ∈ classReports := by
      rw [hall]
      exact List.mem_append_left _ (List.mem_append_left _ hd)
    have hmessages : ∀ d ∈ classReports, d.message ≠
        "Component 'a-a' expects class 'A', which is not declared in this module" := by decide
    exact absurd hr.message_eq (hmessages d hin)

end Hydration.Transform
