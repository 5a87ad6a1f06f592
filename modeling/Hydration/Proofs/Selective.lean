import Hydration.Proofs.Supplied
import Hydration.Proofs.Outermost
import Hydration.Proofs.Settling

/-! What the hydration pass makes of a module. It replaces the outermost located classes and adds
the imports that they need; a module without a located class comes back as it was, as a tree and,
if it is written as it was read, as a text. -/

namespace Hydration.Transform

open Syntax Imports

section Find

variable {locate : Locate}

theorem locatedInSuite_eq (s : Suite) : locatedInSuite locate s = locatedInAll locate s.stmts := by
  cases s <;> rfl

theorem locatedInAll_append (front back : List Stmt) :
    locatedInAll locate (front ++ back) = locatedInAll locate front ++ locatedInAll locate back := by
  induction front with
  | nil => rfl
  | cons s front ih => simp [locatedInAll, ih]

theorem locatedInClauses_eq (clauses : List Clause) :
    locatedInClauses locate clauses = locatedInAll locate (stmtsOfClauses clauses) := by
  induction clauses with
  | nil => rfl
  | cons clause clauses ih =>
    obtain ⟨leading, head, gap, body⟩ := clause
    rw [locatedInClauses, ih, locatedInSuite_eq, ← locatedInAll_append]
    rfl

theorem locatedIn_of_unlocated {s : Stmt} (h : locatedStmt locate s = none) :
    locatedIn locate s = locatedInAll locate s.children := by
  cases s with
  | line l => rfl
  | func head body => exact locatedInSuite_eq body
  | class_ head body =>
    have hn : locate head = none := h
    simp only [locatedIn, hn]
    exact locatedInSuite_eq body
  | compound clauses => exact locatedInClauses_eq clauses

theorem locatedIn_ne_nil_of_located {s : Stmt} {component : Component}
    (h : locatedStmt locate s = some component) : locatedIn locate s ≠ [] := by
  cases s with
  | class_ head body =>
    have hs : locate head = some component := h
    simp [locatedIn, hs]
  | _ => simp [locatedStmt] at h

theorem unlocated_iff {body : List Stmt} :
    Unlocated locate body ↔
      ∀ s ∈ body, locatedStmt locate s = none ∧ Unlocated locate s.children :=
  everywhere_iff

/-- The search for located classes finds nothing exactly where none stands at any address. -/
theorem locatedInAll_eq_nil_iff {body : List Stmt} :
    locatedInAll locate body = [] ↔ Unlocated locate body := by
  induction body using body_induction with
  | h body ih =>
    have hall : locatedInAll locate body = [] ↔ ∀ s ∈ body, locatedIn locate s = [] := by
      clear ih
      induction body with
      | nil => simp [locatedInAll]
      | cons s body ih => simp [locatedInAll, ih]
    rw [hall, unlocated_iff]
    refine forall₂_congr fun s hs => ?_
    cases hl : locatedStmt locate s with
    | none => simp [locatedIn_of_unlocated hl, ih s hs]
    | some component => simp [locatedIn_ne_nil_of_located hl]

end Find

theorem becomes_importLine {locate : Locate} {replace : Replace} {s t : Stmt}
    (h : IsImportLine s) : Becomes locate replace s t ↔ t = s := by
  obtain ⟨small, -, rfl⟩ := h
  simp [Becomes, plainLine, replaceIn, eq_comm]

theorem forall₂_becomes_importLines {locate : Locate} {replace : Replace}
    {statements new : List Stmt} (h : ∀ s ∈ statements, IsImportLine s) :
    List.Forall₂ (Becomes locate replace) statements new ↔ new = statements := by
  induction statements generalizing new with
  | nil => simp
  | cons s statements ih =>
    have hs := List.forall_mem_cons.mp h
    simp [List.forall₂_cons_left_iff, becomes_importLine hs.1, ih hs.2]

theorem replaceInAll_insertAt {locate : Locate} {replace : Replace} {body statements new : List Stmt}
    {i : Nat} (h : ∀ s ∈ statements, IsImportLine s) :
    replaceInAll locate replace (insertAt body i statements) = .ok new ↔
      ∃ body', replaceInAll locate replace body = .ok body' ∧ new = insertAt body' i statements := by
  simp only [replaceInAll_eq_ok]
  constructor
  · intro hf
    obtain ⟨front, back, rfl, hfront, hback⟩ := forall₂_append_left_iff.mp hf
    obtain ⟨start, lines, rfl, hstart, hlines⟩ := forall₂_append_left_iff.mp hfront
    rw [forall₂_becomes_importLines h] at hlines
    have hl := hstart.length_eq
    have hr := hback.length_eq
    rw [List.length_take] at hl
    rw [List.length_drop] at hr
    refine ⟨start ++ back, ?_, ?_⟩
    · have hh := forall₂_append_left_iff.mpr ⟨start, back, rfl, hstart, hback⟩
      rwa [List.take_append_drop] at hh
    · by_cases hi : i ≤ body.length
      · have hlen : start.length = i := by omega
        simp [insertAt, hlines, ← hlen]
      · have hnil : back = [] := List.length_eq_zero_iff.mp (by omega)
        have htake : start.take i = start := List.take_of_length_le (by omega)
        have hdrop : start.drop i = [] := List.drop_of_length_le (by omega)
        simp [insertAt, hlines, hnil, htake, hdrop]
  · rintro ⟨body', hb, rfl⟩
    have hlines : List.Forall₂ (Becomes locate replace) statements statements :=
      (forall₂_becomes_importLines h).mpr rfl
    have hfront := forall₂_append_left_iff.mpr ⟨_, _, rfl, List.forall₂_take i hb, hlines⟩
    exact forall₂_append_left_iff.mpr ⟨_, _, rfl, hfront, List.forall₂_drop i hb⟩

/-- What the pass may make of a module. Where no class is located it is the module itself. Otherwise
the lines that supply the helpers stand behind the header, and the rest is the old body with its
outermost located classes replaced. -/
inductive Selective (index : Index) (context : Context) (m : Module) : Module → Prop where
  | untouched (h : Unlocated (locateIn index context.file) m.body) : Selective index context m m
  | hydrated {supplied : Supplied} {statements body : List Stmt}
      (h : ¬ Unlocated (locateIn index context.file) m.body)
      (hs : supply context.options.format (helperSpecifiers context.options) m = .ok supplied)
      (hm : supplied.module = { m with body := insertAt m.body (headerIndex m.body) statements })
      (hr : Rewritten (locateIn index context.file)
        (replaceClass context.options (helpersOf context.options supplied.references) m.style)
        m.body body) :
      Selective index context m { m with body := insertAt body (headerIndex m.body) statements }

theorem hydrateModule_of_unlocated {index : Index} {context : Context} {m : Module}
    (h : Unlocated (locateIn index context.file) m.body) :
    hydrateModule index context m = .ok (m, unusedComponents context index []) := by
  have hn : locatedClasses index context.file m = [] := locatedInAll_eq_nil_iff.mpr h
  simp only [hydrateModule, hn]
  rfl

theorem hydrateModule_of_located {index : Index} {context : Context} {m result : Module}
    {diagnostics : List Diagnostic} (h : ¬ Unlocated (locateIn index context.file) m.body)
    (hr : hydrateModule index context m = .ok (result, diagnostics)) :
    ∃ supplied, supply context.options.format (helperSpecifiers context.options) m = .ok supplied ∧
      replaceClasses index context (helpersOf context.options supplied.references)
        supplied.module = .ok result := by
  have hn : (locatedClasses index context.file m).isEmpty = false := by
    rw [List.isEmpty_eq_false_iff]
    exact fun hh => h (locatedInAll_eq_nil_iff.mp hh)
  simp only [hydrateModule, hn, Bool.false_eq_true, if_false, bind_eq_ok, mapError_eq_ok] at hr
  obtain ⟨supplied, hs, hydrated, hc, he⟩ := hr
  simp only [pure, Except.pure, Except.ok.injEq, Prod.mk.injEq] at he
  exact ⟨supplied, hs, he.1 ▸ hc⟩

theorem replaceClasses_eq_ok {index : Index} {context : Context} {helpers : Helpers}
    {m result : Module} (h : replaceClasses index context helpers m = .ok result) :
    ∃ body, replaceInAll (locateIn index context.file)
      (replaceClass context.options helpers m.style) m.body = .ok body ∧
      result = { m with body } := by
  simp only [replaceClasses, bind_eq_ok, mapError_eq_ok] at h
  obtain ⟨-, -, body, hb, he⟩ := h
  exact ⟨body, hb, (Except.ok.inj he).symm⟩

theorem selective_iff {index : Index} {context : Context} {m result : Module}
    {diagnostics : List Diagnostic}
    (h : hydrateModule index context m = .ok (result, diagnostics)) (other : Module) :
    Selective index context m other ↔ other = result := by
  by_cases hu : Unlocated (locateIn index context.file) m.body
  · rw [hydrateModule_of_unlocated hu] at h
    simp only [Except.ok.injEq, Prod.mk.injEq] at h
    obtain ⟨rfl, -⟩ := h
    constructor
    · intro hs
      cases hs with
      | untouched => rfl
      | hydrated hn => exact absurd hu hn
    · rintro rfl
      exact .untouched hu
  · obtain ⟨supplied, hs, hc⟩ := hydrateModule_of_located hu h
    obtain ⟨-, statements, hi, hm⟩ := supply_eq_ok hs
    obtain ⟨new, hb, rfl⟩ := replaceClasses_eq_ok hc
    rw [hm] at hb
    obtain ⟨body, hbody, rfl⟩ := (replaceInAll_insertAt hi.lines).mp hb
    have hr := replaceInAll_eq_ok_iff_rewritten.mp hbody
    constructor
    · intro hsel
      cases hsel with
      | untouched hn => exact absurd hn hu
      | hydrated hn hs' hm' hr' =>
        rw [hs] at hs'
        obtain rfl := Except.ok.inj hs'
        rw [hm] at hm'
        obtain rfl := insertAt_left_cancel (congrArg Module.body hm')
        have hnew := hbody.symm.trans (replaceInAll_eq_ok_iff_rewritten.mpr hr')
        obtain rfl := Except.ok.inj hnew
        rw [hm]
        rfl
    · rintro rfl
      rw [hm]
      exact .hydrated hu hs hm hr

theorem unusedComponents_not_error {context : Context} {index : Index} {found : List String}
    {d : Diagnostic} (h : d ∈ unusedComponents context index found) : d.isError = false := by
  unfold unusedComponents at h
  rcases List.mem_append.mp h with h | h
  · obtain ⟨cmp, -, rfl⟩ := List.mem_map.mp h
    rfl
  · split at h
    · obtain ⟨cmp, -, rfl⟩ := List.mem_map.mp h
      rfl
    · simp at h

theorem hasErrors_extend {sink : Sink} {batch : List Diagnostic} (hs : sink.hasErrors = false)
    (hb : ∀ d ∈ batch, d.isError = false) : (sink.extend batch).hasErrors = false := by
  have hn : batch.filter Diagnostic.isError = [] := by simpa using hb
  simpa [Sink.hasErrors, Sink.extend, hn] using hs

theorem runStages_of_unlocated {text : String} {options : Options} {index : Index}
    {file : Option String} {m : Module} (hm : readModule options text = .ok m)
    (hu : Unlocated (locateIn index (contextOf options file).file) m.body) :
    runStages text options [.pass (Pass.hydration index)] file =
      .ok { text := some m.render
            diagnostics := unusedComponents (contextOf options file) index [] } := by
  have hp : (Pass.hydration index).run (contextOf options file) m =
      .ok ⟨m, unusedComponents (contextOf options file) index []⟩ := by
    simp [Pass.hydration, hydrateModule_of_unlocated hu, Except.map]
  have hr : runPasses (contextOf options file) [Pass.hydration index] m =
      .ok ⟨m, unusedComponents (contextOf options file) index []⟩ := by
    simp only [runPasses, List.foldlM_cons, List.foldlM_nil, hp]
    rfl
  simp only [runStages, checkStages, hm, bind, Except.bind, pure, Except.pure, hr]

theorem transform_of_unlocated {build : Build} {text : String} {components : List Component}
    {options : Options} {m : Module} (hm : readModule options text = .ok m)
    (hu : Unlocated (locateIn (Index.ofComponents components)
      (contextOf options (fileOf options components)).file) m.body)
    (hw : m.render = text) (ht : text ≠ "") (ha : build.abort = false)
    (hs : build.hasErrors = false) :
    (build.transform text components options).2 = some text := by
  have hr := runStages_of_unlocated hm hu
  rw [Build.transform_eq, if_neg (by simp [ha])]
  simp only [Build.settle, Compiler.standard, requestOf, hr]
  rw [Build.accept_text_iff]
  refine ⟨hasErrors_extend hs fun d hd => unusedComponents_not_error hd, by simp [ha], ?_⟩
  exact named?_eq_some_iff.mpr ⟨by rw [hw], ht⟩

/-- A successful pass gives the one module that is rewritten selectively. A module without a located
class is never refused and comes back as it was; and when it is written as it was read, a clean
build that was not asked to abort gives back the text itself. -/
theorem hydration_selective (index : Index) (context : Context) (m : Module) :
    (∀ result diagnostics, hydrateModule index context m = .ok (result, diagnostics) →
      ∀ other, Selective index context m other ↔ other = result) ∧
    (Unlocated (locateIn index context.file) m.body →
      ∃ diagnostics, hydrateModule index context m = .ok (m, diagnostics)) ∧
    (∀ (build : Build) (text : String) (components : List Component) (options : Options),
      index = Index.ofComponents components →
      context = contextOf options (fileOf options components) →
      Unlocated (locateIn index context.file) m.body →
      readModule options text = .ok m → m.render = text → text ≠ "" →
      build.abort = false → build.hasErrors = false →
      (build.transform text components options).2 = some text) := by
  refine ⟨?_, ?_, ?_⟩
  · intro result diagnostics h other
    exact selective_iff h other
  · intro hu
    exact ⟨_, hydrateModule_of_unlocated hu⟩
  · rintro build text components options rfl rfl hu hm hw ht ha hs
    exact transform_of_unlocated hm hu hw ht ha hs

def usedComponent : Component := { tag := "a-a", className := "A", sourcePath := "a.py" }

theorem exists_read_unlocated : ∃ m, readModule {} "class B: 0  # b\n" = .ok m ∧
    m.render = "class B: 0  # b\n" ∧
    Unlocated (locateIn (Index.ofComponents [usedComponent]) "a.py") m.body := by
  have hread : (readModule {} "class B: 0  # b\n").toOption.map (fun m => (m.render,
      (locatedClasses (Index.ofComponents [usedComponent]) "a.py" m).isEmpty)) =
      some ("class B: 0  # b\n", true) := by decide +kernel
  obtain ⟨m, hm, he⟩ := Option.map_eq_some_iff.mp hread
  obtain ⟨hrender, hempty⟩ := Prod.mk.inj he
  exact ⟨m, toOption_eq_some.mp hm, hrender, locatedInAll_eq_nil_iff.mp (List.isEmpty_iff.mp hempty)⟩

def selectedModule : Module :=
  { body := [.class_ { name := "A" } (.inline .space [{ stmt := .pass }] {}),
      .class_ { name := "B" } (.inline .space [{ stmt := .pass }] {})] }

theorem exists_hydrated_selected : ∃ result diagnostics, hydrateModule
    (Index.ofComponents [usedComponent]) { file := "a.py" } selectedModule =
      .ok (result, diagnostics) := by
  have hok : (hydrateModule (Index.ofComponents [usedComponent]) { file := "a.py" }
      selectedModule).toOption.isSome = true := by decide +kernel
  obtain ⟨⟨result, diagnostics⟩, hr⟩ := Option.isSome_iff_exists.mp hok
  exact ⟨result, diagnostics, toOption_eq_some.mp hr⟩

/-- Of two classes the one of the component is replaced, and a text without it comes back. -/
theorem hydration_selective_of_component :
    (∃ result diagnostics, hydrateModule (Index.ofComponents [usedComponent]) { file := "a.py" }
        selectedModule = .ok (result, diagnostics) ∧
      Selective (Index.ofComponents [usedComponent]) { file := "a.py" } selectedModule result ∧
      ¬ Unlocated (locateIn (Index.ofComponents [usedComponent]) "a.py") selectedModule.body) ∧
    (({} : Build).transform "class B: 0  # b\n" [usedComponent] {}).2 =
      some "class B: 0  # b\n" := by
  constructor
  · obtain ⟨result, diagnostics, hr⟩ := exists_hydrated_selected
    refine ⟨result, diagnostics, hr, ((hydration_selective _ _ _).1 _ _ hr result).mpr rfl, ?_⟩
    exact fun hu => absurd (hu [0] _ rfl) (by decide)
  · obtain ⟨m, hm, hw, hu⟩ := exists_read_unlocated
    exact (hydration_selective (Index.ofComponents [usedComponent])
      (contextOf {} (fileOf {} [usedComponent])) m).2.2 {} _ [usedComponent] {} rfl rfl hu hm
      hw (by decide) rfl rfl

end Hydration.Transform
