import Hydration.Proofs.Reporting
import Hydration.Proofs.Resupply

/-! Two walks over a module in a row. Replacing some of the located classes and then the others is
replacing all of them at once, as long as no located class lies inside another one or is planted
there. -/

namespace Hydration.Transform

open Syntax Imports

/-- No located class lies inside another one. -/
def Apart (locate : Locate) (body : List Stmt) : Prop :=
  ∀ p s, stmtAt body p = some s → (locatedStmt locate s).isSome = true →
    Unlocated locate s.children

section Apart

variable {locate : Locate}

theorem apart_iff {body : List Stmt} :
    Apart locate body ↔ ∀ s ∈ body,
      ((locatedStmt locate s).isSome = true → Unlocated locate s.children) ∧
        Apart locate s.children :=
  everywhere_iff

theorem apart_of_unlocated {body : List Stmt} (h : Unlocated locate body) : Apart locate body := by
  intro p s hs hl
  simp [h p s hs] at hl

theorem forall_mem_locatedInAll {P : Located → Prop} {body : List Stmt} :
    (∀ x ∈ locatedInAll locate body, P x) ↔ ∀ s ∈ body, ∀ x ∈ locatedIn locate s, P x := by
  simp only [mem_locatedInAll_iff_exists]
  constructor
  · exact fun h s hs x hx => h x ⟨s, hs, hx⟩
  · rintro h x ⟨s, hs, hx⟩
    exact h s hs x hx

/-- It is enough to look into the outermost located classes. -/
theorem apart_iff_outermost {body : List Stmt} :
    Apart locate body ↔ ∀ x ∈ locatedInAll locate body, Unlocated locate x.body.stmts := by
  induction body using body_induction with
  | h body ih =>
    rw [forall_mem_locatedInAll, apart_iff]
    refine forall₂_congr fun s hs => ?_
    cases hl : locatedStmt locate s with
    | none => simp [locatedIn_of_unlocated hl, ih s hs]
    | some component =>
      cases s with
      | class_ head suite =>
        simpa [locatedIn_of_located hl, Stmt.children] using apart_of_unlocated
      | line => simp [locatedStmt] at hl
      | func => simp [locatedStmt] at hl
      | compound => simp [locatedStmt] at hl

instance (locate : Locate) (body : List Stmt) : Decidable (Unlocated locate body) :=
  decidable_of_iff ((locatedInAll locate body).isEmpty = true)
    (List.isEmpty_iff.trans locatedInAll_eq_nil_iff)

instance (locate : Locate) (body : List Stmt) : Decidable (Apart locate body) :=
  decidable_of_iff _ apart_iff_outermost.symm

theorem forall_mem_insertAt {P : Stmt → Prop} {body statements : List Stmt} {i : Nat} :
    (∀ s ∈ insertAt body i statements, P s) ↔ (∀ s ∈ body, P s) ∧ ∀ s ∈ statements, P s := by
  have hall : (∀ s ∈ body, P s) ↔ (∀ s ∈ body.take i, P s) ∧ ∀ s ∈ body.drop i, P s := by
    rw [← List.forall_mem_append, List.take_append_drop]
  rw [insertAt, List.forall_mem_append, List.forall_mem_append, hall]
  tauto

theorem leaf_of_importLine (locate : Locate) {s : Stmt} (h : IsImportLine s) :
    locatedStmt locate s = none ∧ s.children = [] := by
  obtain ⟨small, -, rfl⟩ := h
  exact ⟨rfl, rfl⟩

theorem unlocated_insertAt {body statements : List Stmt} {i : Nat} (h : Unlocated locate body)
    (hl : ∀ s ∈ statements, IsImportLine s) : Unlocated locate (insertAt body i statements) := by
  rw [unlocated_iff] at h ⊢
  refine forall_mem_insertAt.mpr ⟨h, fun s hs => ?_⟩
  obtain ⟨hn, hc⟩ := leaf_of_importLine locate (hl s hs)
  refine ⟨hn, ?_⟩
  rw [hc, unlocated_iff]
  exact fun t ht => absurd ht List.not_mem_nil

theorem apart_insertAt {body statements : List Stmt} {i : Nat} (h : Apart locate body)
    (hl : ∀ s ∈ statements, IsImportLine s) : Apart locate (insertAt body i statements) := by
  rw [apart_iff] at h ⊢
  refine forall_mem_insertAt.mpr ⟨h, fun s hs => ?_⟩
  obtain ⟨hn, hc⟩ := leaf_of_importLine locate (hl s hs)
  refine ⟨fun hloc => absurd hloc (by simp [hn]), ?_⟩
  rw [hc, apart_iff]
  exact fun t ht => absurd ht List.not_mem_nil

end Apart

section Walk

variable {locate : Locate} {replace : Replace}

theorem locatedStmt_eq_of_shell {s t : Stmt} (h : t.shell = s.shell) :
    locatedStmt locate t = locatedStmt locate s := by
  cases s <;> cases t <;>
    simp only [Stmt.shell, Stmt.class_.injEq, reduceCtorEq] at h
  · rfl
  · rfl
  · simp [locatedStmt, h.1]
  · rfl

theorem Becomes.unique {s t u : Stmt} (ht : Becomes locate replace s t)
    (hu : Becomes locate replace s u) : t = u :=
  Except.ok.inj (ht.symm.trans hu)

theorem forall₂_becomes_self {body : List Stmt} (h : Unlocated locate body) :
    List.Forall₂ (Becomes locate replace) body body := by
  induction body using body_induction with
  | h body ih =>
    rw [List.forall₂_same]
    intro s hs
    obtain ⟨hn, hc⟩ := unlocated_iff.mp h s hs
    exact (becomes_iff_of_unlocated hn).mpr ⟨rfl, ih s hs hc⟩

theorem forall₂_becomes_iff_of_unlocated {body new : List Stmt} (h : Unlocated locate body) :
    List.Forall₂ (Becomes locate replace) body new ↔ new = body := by
  constructor
  · intro hn
    have hself : List.Forall₂ (Becomes locate replace) body body := forall₂_becomes_self h
    exact Except.ok.inj ((replaceInAll_eq_ok.mpr hn).symm.trans (replaceInAll_eq_ok.mpr hself))
  · rintro rfl
    exact forall₂_becomes_self h

/-- A class is located before it is replaced as afterwards. -/
def Stable (locate : Locate) (replace : Replace) : Prop :=
  ∀ component head body t, replace component head body = .ok t →
    locatedStmt locate t = locate head

/-- No class is replaced by one with a located class inside it. -/
def PlantsNothing (locate : Locate) (replace : Replace) (body : List Stmt) : Prop :=
  ∀ x ∈ locatedInAll locate body, ∀ t, replace x.component x.head x.body = .ok t →
    Unlocated locate t.children

instance (locate : Locate) (replace : Replace) (body : List Stmt) :
    Decidable (PlantsNothing locate replace body) :=
  decidable_of_iff (∀ x ∈ locatedInAll locate body,
    ∀ t ∈ (replace x.component x.head x.body).toOption, Unlocated locate t.children) <| by
      simp only [PlantsNothing, Option.mem_def, toOption_eq_some]

theorem plantsNothing_iff {body : List Stmt} :
    PlantsNothing locate replace body ↔ ∀ s ∈ body, ∀ x ∈ locatedIn locate s, ∀ t,
      replace x.component x.head x.body = .ok t → Unlocated locate t.children :=
  forall_mem_locatedInAll

theorem plantsNothing_insertAt {body statements : List Stmt} {i : Nat}
    (h : PlantsNothing locate replace body) (hl : ∀ s ∈ statements, IsImportLine s) :
    PlantsNothing locate replace (insertAt body i statements) := by
  rw [plantsNothing_iff] at h ⊢
  refine forall_mem_insertAt.mpr ⟨h, fun s hs => ?_⟩
  obtain ⟨hn, hc⟩ := leaf_of_importLine locate (hl s hs)
  simp [locatedIn_of_unlocated hn, hc, locatedInAll]

end Walk

/-- `whole` locates what `first` and `second` locate, and no class is located by both. -/
structure Splits (first second whole : Locate) : Prop where
  whole_eq : ∀ head, whole head = (first head).or (second head)
  disjoint : ∀ head, first head = none ∨ second head = none

namespace Splits

variable {first second whole : Locate} {replace : Replace}

theorem symm (h : Splits first second whole) : Splits second first whole := by
  constructor
  · intro head
    rw [h.whole_eq]
    rcases h.disjoint head with hn | hn <;> simp [hn]
  · exact fun head => (h.disjoint head).symm

theorem locatedStmt_eq (h : Splits first second whole) (s : Stmt) :
    locatedStmt whole s = (locatedStmt first s).or (locatedStmt second s) := by
  cases s with
  | class_ head body => exact h.whole_eq head
  | _ => rfl

theorem unlocated_iff_and (h : Splits first second whole) {body : List Stmt} :
    Unlocated whole body ↔ Unlocated first body ∧ Unlocated second body := by
  simp only [Unlocated, h.locatedStmt_eq, Option.or_eq_none_iff]
  constructor
  · intro hu
    exact ⟨fun p s hs => (hu p s hs).1, fun p s hs => (hu p s hs).2⟩
  · intro hu p s hs
    exact ⟨hu.1 p s hs, hu.2 p s hs⟩

/-- A statement that is not located: both walks keep its shell and go on with its children. -/
theorem becomes_iff_comp_of_unlocated (h : Splits first second whole) {s t : Stmt}
    (hs : locatedStmt whole s = none)
    (hc : List.Forall₂ (Becomes whole replace) s.children t.children ↔
      ∃ mid, List.Forall₂ (Becomes first replace) s.children mid ∧
        List.Forall₂ (Becomes second replace) mid t.children) :
    Becomes whole replace s t ↔
      ∃ u, Becomes first replace s u ∧ Becomes second replace u t := by
  obtain ⟨hfirst, hsecond⟩ := Option.or_eq_none_iff.mp ((h.locatedStmt_eq s).symm.trans hs)
  rw [becomes_iff_of_unlocated hs, hc]
  constructor
  · rintro ⟨ht, mid, hm, hn⟩
    obtain ⟨u, hu, rfl⟩ := s.exists_of_shell hm.length_eq.symm
    refine ⟨u, (becomes_iff_of_unlocated hfirst).mpr ⟨hu, hm⟩, ?_⟩
    rw [← locatedStmt_eq_of_shell hu] at hsecond
    exact (becomes_iff_of_unlocated hsecond).mpr ⟨ht.trans hu.symm, hn⟩
  · rintro ⟨u, hsu, hut⟩
    obtain ⟨hu, hm⟩ := (becomes_iff_of_unlocated hfirst).mp hsu
    rw [← locatedStmt_eq_of_shell hu] at hsecond
    obtain ⟨ht, hn⟩ := (becomes_iff_of_unlocated hsecond).mp hut
    exact ⟨ht.trans hu, u.children, hm, hn⟩

/-- A class of the first walk: the second one leaves alone what it was replaced by. -/
theorem becomes_iff_comp_of_first (h : Splits first second whole) (hr : Stable second replace)
    {head : ClassHead} {body : Suite} {component : Component} {t : Stmt}
    (hl : first head = some component)
    (hp : ∀ u, replace component head body = .ok u → Unlocated whole u.children) :
    Becomes whole replace (.class_ head body) t ↔
      ∃ u, Becomes first replace (.class_ head body) u ∧ Becomes second replace u t := by
  have hwhole : whole head = some component := by simp [h.whole_eq, hl]
  have hnone : second head = none := (h.disjoint head).resolve_left (by simp [hl])
  have hself {u : Stmt} (hu : replace component head body = .ok u) : Becomes second replace u u := by
    have hn := (hr component head body u hu).trans hnone
    have hc := (h.unlocated_iff_and.mp (hp u hu)).2
    exact (becomes_iff_of_unlocated hn).mpr ⟨rfl, forall₂_becomes_self hc⟩
  simp only [becomes_iff_of_located hwhole, becomes_iff_of_located hl]
  constructor
  · exact fun hb => ⟨t, hb, hself hb⟩
  · rintro ⟨u, hb, hut⟩
    rw [hut.unique (hself hb)]
    exact hb

/-- A class of the second walk: the first one leaves it alone. -/
theorem becomes_iff_comp_of_second (h : Splits first second whole) {head : ClassHead} {body : Suite}
    {component : Component} {t : Stmt} (hl : second head = some component)
    (hs : Unlocated whole body.stmts) :
    Becomes whole replace (.class_ head body) t ↔
      ∃ u, Becomes first replace (.class_ head body) u ∧ Becomes second replace u t := by
  have hnone : first head = none := (h.disjoint head).resolve_right (by simp [hl])
  have hwhole : whole head = some component := by simp [h.whole_eq, hnone, hl]
  have hfirst : locatedStmt first (.class_ head body) = none := hnone
  have hself : Becomes first replace (.class_ head body) (.class_ head body) :=
    (becomes_iff_of_unlocated hfirst).mpr
      ⟨rfl, forall₂_becomes_self (h.unlocated_iff_and.mp hs).1⟩
  rw [becomes_iff_of_located hwhole]
  constructor
  · intro hb
    exact ⟨_, hself, (becomes_iff_of_located hl).mpr hb⟩
  · rintro ⟨u, hu, hut⟩
    rw [hu.unique hself] at hut
    exact (becomes_iff_of_located hl).mp hut

/-- One walk for all classes is a walk for some of them and then one for the others, as long as no
located class lies inside another one or comes to lie there. -/
theorem forall₂_becomes_iff_comp (h : Splits first second whole) (hr : Stable second replace)
    {old new : List Stmt} (ho : Apart whole old) (hp : PlantsNothing whole replace old) :
    List.Forall₂ (Becomes whole replace) old new ↔
      ∃ mid, List.Forall₂ (Becomes first replace) old mid ∧
        List.Forall₂ (Becomes second replace) mid new := by
  -- By levels: a statement that no walk locates hands all three down to its children.
  induction old using body_induction generalizing new with
  | h old ih =>
    rw [← forall₂_comp_iff]
    refine forall₂_congr_of_mem fun s hs t _ => ?_
    obtain ⟨hso, hsc⟩ := apart_iff.mp ho s hs
    have hsp := plantsNothing_iff.mp hp s hs
    cases hl : locatedStmt whole s with
    | none =>
      rw [locatedIn_of_unlocated hl] at hsp
      exact h.becomes_iff_comp_of_unlocated hl (ih s hs hsc hsp)
    | some component =>
      have hu := hso (by simp [hl])
      cases s with
      | class_ head body =>
        have hx : ⟨head, body, component⟩ ∈ locatedIn whole (.class_ head body) := by
          rw [locatedIn_of_located hl]
          exact List.mem_singleton_self _
        have hor : (first head).or (second head) = some component :=
          (h.whole_eq head).symm.trans hl
        rcases Option.or_eq_some_iff.mp hor with hf | ⟨-, hf⟩
        · exact h.becomes_iff_comp_of_first hr hf (hsp _ hx)
        · exact h.becomes_iff_comp_of_second hf hu
      | line => simp [locatedStmt] at hl
      | func => simp [locatedStmt] at hl
      | compound => simp [locatedStmt] at hl

end Splits

theorem locateIn_splits {front back : List Component}
    (h : ∀ a ∈ front, ∀ b ∈ back, Index.keyOf a ≠ Index.keyOf b) (file : String) :
    Splits (locateIn (.ofComponents front) file) (locateIn (.ofComponents back) file)
      (locateIn (.ofComponents (front ++ back)) file) := by
  have hd (head : ClassHead) : locateIn (.ofComponents front) file head = none ∨
      locateIn (.ofComponents back) file head = none := by
    cases ha : locateIn (.ofComponents front) file head with
    | none => exact .inl rfl
    | some a =>
      cases hb : locateIn (.ofComponents back) file head with
      | none => exact .inr rfl
      | some b =>
        obtain ⟨hma, hka⟩ := Index.exists_mem_of_get? ha
        obtain ⟨hmb, hkb⟩ := Index.exists_mem_of_get? hb
        exact absurd (hka.trans hkb.symm) (h a hma b hmb)
  refine ⟨fun head => ?_, hd⟩
  have hwhole : locateIn (.ofComponents (front ++ back)) file head =
      (locateIn (.ofComponents back) file head).or (locateIn (.ofComponents front) file head) :=
    Index.get?_append front back file head.name
  rw [hwhole]
  rcases hd head with hn | hn <;> simp [hn]

theorem stable_replaceClass {index : Index} {file : String} {options : Options} {helpers : Helpers}
    {style : Style} : Stable (locateIn index file) (replaceClass options helpers style) := by
  intro component head body t h
  obtain ⟨head', body', rfl, hn⟩ := class_of_hydrateClass h
  change index.get? file head'.name = index.get? file head.name
  rw [hn]

section Pass

variable {index : Index} {context : Context} {m result : Module}

/-- The pass succeeds with the module. -/
def Hydrates (index : Index) (context : Context) (m result : Module) : Prop :=
  ∃ diagnostics, hydrateModule index context m = .ok (result, diagnostics)

/-- How a supplied module has its classes replaced. -/
def replaceWith (context : Context) (style : Style) (supplied : Supplied) : Replace :=
  replaceClass context.options (helpersOf context.options supplied.references) style

/-- Hydration puts a located class into one of the classes. -/
def Plants (index : Index) (context : Context) (m : Module) : Prop :=
  isPlainIndent m.style.indent = true ∧
  ∃ supplied, supply context.options.format (helperSpecifiers context.options) m = .ok supplied ∧
    ¬ PlantsNothing (locateIn index context.file) (replaceWith context m.style supplied) m.body

theorem plantsNothing_of_not_plants (h : ¬ Plants index context m)
    (hi : isPlainIndent m.style.indent = true) {supplied : Supplied}
    (hs : supply context.options.format (helperSpecifiers context.options) m = .ok supplied) :
    PlantsNothing (locateIn index context.file) (replaceWith context m.style supplied) m.body := by
  by_contra hn
  exact h ⟨hi, supplied, hs, hn⟩

/-- The module is supplied with the helpers, and then the walk leads to the body of the result. -/
def HydratedBy (walk : Replace → List Stmt → List Stmt → Prop) (context : Context)
    (m result : Module) : Prop :=
  ∃ supplied,
    supply context.options.format (helperSpecifiers context.options) m = .ok supplied ∧
    isPlainIndent m.style.indent = true ∧
    walk (replaceWith context m.style supplied) supplied.module.body result.body ∧
    result = { supplied.module with body := result.body }

theorem hydratedBy_congr {walk walk' : Replace → List Stmt → List Stmt → Prop}
    (h : ∀ supplied,
      supply context.options.format (helperSpecifiers context.options) m = .ok supplied →
      isPlainIndent m.style.indent = true →
      (walk (replaceWith context m.style supplied) supplied.module.body result.body ↔
        walk' (replaceWith context m.style supplied) supplied.module.body result.body)) :
    HydratedBy walk context m result ↔ HydratedBy walk' context m result := by
  refine exists_congr fun supplied => and_congr_right fun hs => and_congr_right fun hi => ?_
  rw [h supplied hs hi]

theorem style_supplied {style : ImportStyle} {specifiers : List Specifier} {supplied : Supplied}
    (h : supply style specifiers m = .ok supplied) : supplied.module.style = m.style := by
  obtain ⟨-, statements, -, hm⟩ := supply_eq_ok h
  rw [hm]
  rfl

theorem hydrates_iff_of_unlocated (h : Unlocated (locateIn index context.file) m.body) :
    Hydrates index context m result ↔ result = m := by
  simp only [Hydrates, hydrateModule_of_unlocated h, Except.ok.injEq, Prod.mk.injEq]
  constructor
  · rintro ⟨diagnostics, rfl, -⟩
    rfl
  · rintro rfl
    exact ⟨_, rfl, rfl⟩

theorem replaceClasses_iff {helpers : Helpers} :
    replaceClasses index context helpers m = .ok result ↔
      isPlainIndent m.style.indent = true ∧
        List.Forall₂ (Becomes (locateIn index context.file)
          (replaceClass context.options helpers m.style)) m.body result.body ∧
        result = { m with body := result.body } := by
  constructor
  · intro h
    have hi : isPlainIndent m.style.indent = true := by
      simp only [replaceClasses, bind_eq_ok] at h
      obtain ⟨checked, hc, -⟩ := h
      simpa only [checkIndent, ite_eq_left_iff, reduceCtorEq, imp_false, Decidable.not_not] using hc
    obtain ⟨body, hb, rfl⟩ := replaceClasses_eq_ok h
    exact ⟨hi, replaceInAll_eq_ok.mp hb, rfl⟩
  · rintro ⟨hi, hb, he⟩
    rw [he, replaceClasses, checkIndent, if_pos hi]
    have hall := replaceInAll_eq_ok.mpr hb
    exact bind_eq_ok.mpr ⟨(), rfl, bind_eq_ok.mpr ⟨_, mapError_eq_ok.mpr hall, rfl⟩⟩

theorem hydrates_iff_of_located (h : ¬ Unlocated (locateIn index context.file) m.body) :
    Hydrates index context m result ↔
      HydratedBy (fun replace => List.Forall₂ (Becomes (locateIn index context.file) replace))
        context m result := by
  constructor
  · rintro ⟨diagnostics, hr⟩
    obtain ⟨supplied, hs, hc⟩ := hydrateModule_of_located h hr
    obtain ⟨hi, hb, he⟩ := replaceClasses_iff.mp hc
    rw [style_supplied hs] at hi hb
    exact ⟨supplied, hs, hi, hb, he⟩
  · rintro ⟨supplied, hs, hi, hb, he⟩
    have hn : (locatedClasses index context.file m).isEmpty = false := by
      rw [List.isEmpty_eq_false_iff]
      exact fun hh => h (locatedInAll_eq_nil_iff.mp hh)
    rw [← style_supplied hs] at hi hb
    have hr : replaceClasses index context (helpersOf context.options supplied.references)
        supplied.module = .ok result := replaceClasses_iff.mpr ⟨hi, hb, he⟩
    simp only [Hydrates, hydrateModule, hn, Bool.false_eq_true, if_false, hs, Except.mapError,
      bind, Except.bind, hr]
    exact ⟨_, rfl⟩

end Pass

section Second

variable {first second : Index} {context : Context} {m mid result : Module} {supplied : Supplied}

theorem helpersOf_congr (options : Options) {references references' : List (String × String)}
    (h : ∀ key, references.lookup key = references'.lookup key) :
    helpersOf options references = helpersOf options references' := by
  simp [helpersOf, referenceTo, h]

/-- A pass over a hydrated module only has the walk left to do: it finds the helpers, under the
names that the first pass gave them. -/
theorem hydrates_hydrated_iff (hm : WellNamed m)
    (hc : ¬ EmptyNameClash context.options.format (helperSpecifiers context.options) m)
    (hs : supply context.options.format (helperSpecifiers context.options) m = .ok supplied)
    (hi : isPlainIndent m.style.indent = true)
    (hw : List.Forall₂ (Becomes (locateIn first context.file) (replaceWith context m.style supplied))
      supplied.module.body mid.body)
    (hmid : mid = { supplied.module with body := mid.body }) :
    Hydrates second context mid result ↔
      List.Forall₂ (Becomes (locateIn second context.file) (replaceWith context m.style supplied))
        mid.body result.body ∧ result = { supplied.module with body := result.body } := by
  have hstyle : mid.style = m.style := by
    rw [hmid]
    exact style_supplied hs
  have hresult : { mid with body := result.body } = { supplied.module with body := result.body } := by
    rw [hmid]
  by_cases hu : Unlocated (locateIn second context.file) mid.body
  · rw [hydrates_iff_of_unlocated hu, forall₂_becomes_iff_of_unlocated hu, ← hresult]
    constructor
    · rintro rfl
      exact ⟨rfl, rfl⟩
    · rintro ⟨hb, hr⟩
      rw [hr, hb]
  · have hscan : scanScope mid = scanScope supplied.module := by
      rw [scanScope_eq_foldl, scanScope_eq_foldl]
      rw [factsOfBody_replaceInAll (fun _ _ _ _ ht => factsOfStmt_hydrateClass ht)
        supplied.module.body mid.body (replaceInAll_eq_ok.mpr hw)]
    obtain ⟨references, hagain, hkeys⟩ :=
      supply_again hm (nodup_helperSpecifiers _) hs hscan context.options.format
    have hreplace : replaceWith context mid.style { module := mid, references } =
        replaceWith context m.style supplied := by
      simp only [replaceWith, hstyle, helpersOf_congr context.options (hkeys.mpr hc)]
    rw [hydrates_iff_of_located hu]
    constructor
    · rintro ⟨supplied', hs', -, hb, hr⟩
      obtain rfl := Except.ok.inj (hagain.symm.trans hs')
      rw [hreplace] at hb
      exact ⟨hb, hr.trans hresult⟩
    · rintro ⟨hb, hr⟩
      refine ⟨_, hagain, hstyle ▸ hi, ?_, hr.trans hresult.symm⟩
      rw [hreplace]
      exact hb

/-- Two passes in a row supply the module once and then walk over it twice. -/
theorem exists_hydrates_iff {whole : Index} (hm : WellNamed m)
    (hsplits : Splits (locateIn first context.file) (locateIn second context.file)
      (locateIn whole context.file))
    (hl : ¬ Unlocated (locateIn whole context.file) m.body)
    (hc : ¬ EmptyNameClash context.options.format (helperSpecifiers context.options) m) :
    (∃ mid, Hydrates first context m mid ∧ Hydrates second context mid result) ↔
      HydratedBy (fun replace old new =>
        ∃ mid, List.Forall₂ (Becomes (locateIn first context.file) replace) old mid ∧
          List.Forall₂ (Becomes (locateIn second context.file) replace) mid new)
        context m result := by
  by_cases hu : Unlocated (locateIn first context.file) m.body
  · have hsecond : ¬ Unlocated (locateIn second context.file) m.body :=
      fun h => hl (hsplits.unlocated_iff_and.mpr ⟨hu, h⟩)
    simp only [hydrates_iff_of_unlocated hu, exists_eq_left, hydrates_iff_of_located hsecond]
    refine hydratedBy_congr fun supplied hs _ => ?_
    have hus : Unlocated (locateIn first context.file) supplied.module.body := by
      obtain ⟨-, statements, hi, hmodule⟩ := supply_eq_ok hs
      rw [hmodule]
      exact unlocated_insertAt hu hi.lines
    simp only [forall₂_becomes_iff_of_unlocated hus, exists_eq_left]
  · simp only [hydrates_iff_of_located hu]
    constructor
    · rintro ⟨mid, ⟨supplied, hs, hi, hw, hmid⟩, hr⟩
      obtain ⟨hb, he⟩ := (hydrates_hydrated_iff hm hc hs hi hw hmid).mp hr
      exact ⟨supplied, hs, hi, ⟨mid.body, hw, hb⟩, he⟩
    · rintro ⟨supplied, hs, hi, ⟨body, hw, hb⟩, he⟩
      refine ⟨{ supplied.module with body }, ⟨supplied, hs, hi, hw, rfl⟩, ?_⟩
      exact (hydrates_hydrated_iff hm hc hs hi hw rfl).mpr ⟨hb, he⟩

/-- A pass for the classes of two passes gives what these give one after the other. -/
theorem hydrates_whole_iff {whole : Index} (hm : WellNamed m)
    (hsplits : Splits (locateIn first context.file) (locateIn second context.file)
      (locateIn whole context.file))
    (hc : ¬ EmptyNameClash context.options.format (helperSpecifiers context.options) m)
    (ho : Apart (locateIn whole context.file) m.body) (hp : ¬ Plants whole context m) :
    (∃ mid, Hydrates first context m mid ∧ Hydrates second context mid result) ↔
      Hydrates whole context m result := by
  by_cases hl : Unlocated (locateIn whole context.file) m.body
  · obtain ⟨hfirst, hsecond⟩ := hsplits.unlocated_iff_and.mp hl
    simp only [hydrates_iff_of_unlocated hfirst, exists_eq_left,
      hydrates_iff_of_unlocated hsecond, hydrates_iff_of_unlocated hl]
  · rw [exists_hydrates_iff hm hsplits hl hc, hydrates_iff_of_located hl]
    refine hydratedBy_congr fun supplied hs hindent => ?_
    obtain ⟨-, statements, hi, hmodule⟩ := supply_eq_ok hs
    have hos : Apart (locateIn whole context.file) supplied.module.body := by
      rw [hmodule]
      exact apart_insertAt ho hi.lines
    have hps : PlantsNothing (locateIn whole context.file) (replaceWith context m.style supplied)
        supplied.module.body := by
      rw [hmodule]
      exact plantsNothing_insertAt (plantsNothing_of_not_plants hp hindent hs) hi.lines
    exact (hsplits.forall₂_becomes_iff_comp stable_replaceClass hos hps).symm

end Second

end Hydration.Transform
