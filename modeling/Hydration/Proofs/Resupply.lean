import Hydration.Proofs.Reading
import Hydration.Proofs.Rehydrated
import Hydration.Proofs.Selective

/-! Supplying a module twice. A second supply finds every name and leaves the module alone; it finds
each under the text that was recorded the first time, unless an empty name stands in the way. -/

namespace Hydration.Imports

open Syntax

theorem findSome?_eq_some_of_forall {facts : List Fact} {g : Fact → Option String} {text : String}
    {f : Fact} (hf : f ∈ facts) (hg : g f = some text)
    (h : ∀ f ∈ facts, ∀ other, g f = some other → other = text) :
    facts.findSome? g = some text := by
  cases hs : facts.findSome? g with
  | none =>
    rw [List.findSome?_eq_none_iff.mp hs f hf] at hg
    exact absurd hg (by simp)
  | some other =>
    obtain ⟨f', hf', ht⟩ := List.exists_of_findSome?_eq_some hs
    rw [h f' hf' other ht]

theorem findSome?_around_of_none {front injected back : List Fact} {g : Fact → Option String}
    (h : injected.findSome? g = none) :
    (front ++ injected ++ back).findSome? g = (front ++ back).findSome? g := by
  simp [List.findSome?_append, h]

theorem findSome?_around_of_only {front injected back : List Fact} {g : Fact → Option String}
    (h : (front ++ back).findSome? g = none) :
    (front ++ injected ++ back).findSome? g = injected.findSome? g := by
  rw [List.findSome?_append, Option.or_eq_none_iff] at h
  simp [List.findSome?_append, h]

theorem resolveIn_around {front injected back : List Fact} {module name : String}
    (hmember : injected.findSome? (Fact.memberText module name) = none)
    (hstar : .star module ∉ injected)
    (h : (front ++ back).findSome? (Fact.memberText module name) = none →
      injected.findSome? (Fact.moduleText module) = none) :
    resolveIn (front ++ injected ++ back) module name = resolveIn (front ++ back) module name := by
  have hs : (.star module ∈ front ++ injected ++ back) = (.star module ∈ front ++ back) := by
    simp [hstar]
  simp only [resolveIn, hs, findSome?_around_of_none hmember]
  cases hf : (front ++ back).findSome? (Fact.memberText module name) with
  | some text => rfl
  | none => rw [findSome?_around_of_none (h hf)]

section Answers

variable {style : ImportStyle} {b : Scope} {missing : List Specifier} {statements : List Stmt}

theorem Injection.memberText_eq_none (hi : Injection style b missing statements)
    {module name : String} (h : style = .named → ⟨module, name⟩ ∉ missing) :
    (factsOfBody statements).findSome? (Fact.memberText module name) = none := by
  rw [List.findSome?_eq_none_iff]
  intro f hf
  rw [hi.facts] at hf
  cases style with
  | named =>
    obtain ⟨⟨s, a⟩, hp, rfl⟩ := List.mem_map.mp hf
    have hs : s ∈ missing := map_fst_named b.boundNames missing ▸ List.mem_map_of_mem hp
    simp only [memberFact, Fact.memberText, ite_eq_right_iff, reduceCtorEq, imp_false]
    rintro ⟨rfl, rfl⟩
    exact h rfl hs
  | qualified =>
    obtain ⟨s, -, rfl⟩ := List.mem_map.mp hf
    rfl

theorem Injection.memberText_eq_some (hi : Injection .named b missing statements)
    (hn : missing.Nodup) {s : Specifier} {a : Option String}
    (hs : (s, a) ∈ named b.boundNames missing) :
    (factsOfBody statements).findSome? (Fact.memberText s.module s.name) =
      some (a.getD s.name) := by
  have hf : memberFact (s, a) ∈ factsOfBody statements :=
    (hi.facts _).mpr (List.mem_map_of_mem hs)
  apply findSome?_eq_some_of_forall hf (by simp [memberFact, Fact.memberText])
  intro f hf' other ho
  obtain ⟨⟨s', a'⟩, hp, rfl⟩ := List.mem_map.mp ((hi.facts f).mp hf')
  simp only [memberFact, Fact.memberText, Option.ite_none_right_eq_some, Option.some.injEq] at ho
  obtain ⟨⟨hmodule, hname⟩, rfl⟩ := ho
  obtain rfl : s' = s := by
    cases s
    cases s'
    simp_all
  rw [named_unique hn hp hs]

theorem Injection.moduleText_eq_none (hi : Injection style b missing statements) {module : String}
    (h : style = .qualified → ∀ s ∈ missing, s.module ≠ module) :
    (factsOfBody statements).findSome? (Fact.moduleText module) = none := by
  rw [List.findSome?_eq_none_iff]
  intro f hf
  rw [hi.facts] at hf
  cases style with
  | named =>
    obtain ⟨p, -, rfl⟩ := List.mem_map.mp hf
    rfl
  | qualified =>
    obtain ⟨s, hs, rfl⟩ := List.mem_map.mp hf
    simp [moduleFact, Fact.moduleText, h rfl s hs]

theorem Injection.moduleText_eq_some (hi : Injection .qualified b missing statements)
    {s : Specifier} (hs : s ∈ missing) :
    (factsOfBody statements).findSome? (Fact.moduleText s.module) =
      some (modulePrefix b s.module) := by
  have hf : moduleFact b s.module ∈ factsOfBody statements :=
    (hi.facts _).mpr (List.mem_map_of_mem hs)
  apply findSome?_eq_some_of_forall hf (by simp [moduleFact, Fact.moduleText, modulePrefix])
  intro f hf' other ho
  obtain ⟨s', -, rfl⟩ := List.mem_map.mp ((hi.facts f).mp hf')
  simp only [moduleFact, Fact.moduleText, Option.ite_none_right_eq_some, Option.some.injEq] at ho
  obtain ⟨he, rfl⟩ := ho
  rw [he]
  rfl

theorem Injection.star_not_mem (hi : Injection style b missing statements) (module : String) :
    .star module ∉ factsOfBody statements := by
  rw [hi.facts]
  cases style with
  | named =>
    intro h
    obtain ⟨p, -, he⟩ := List.mem_map.mp h
    simp [memberFact] at he
  | qualified =>
    intro h
    obtain ⟨s, -, he⟩ := List.mem_map.mp h
    simp [moduleFact] at he

end Answers

/-- A name that only a star import gives, while an empty name of its module is asked for too and
modules are imported as a whole. -/
structure Clashes (style : ImportStyle) (specifiers : List Specifier) (m : Module)
    (s : Specifier) : Prop where
  qualified : style = .qualified
  mem : s ∈ specifiers
  empty_mem : ⟨s.module, ""⟩ ∈ specifiers
  ne_empty : s.name ≠ ""
  star : s.module ∈ (scanScope m).starModules
  no_module : (scanScope m).namespaces.lookup s.module = none
  no_member : (scanScope m).fromNames.lookup (s.module, s.name) = none

def EmptyNameClash (style : ImportStyle) (specifiers : List Specifier) (m : Module) : Prop :=
  ∃ s, Clashes style specifiers m s

section Missing

variable {specifiers : List Specifier} {m : Module} {s : Specifier}

theorem member_ne_empty {facts : List Fact} (hf : ∀ f ∈ facts, f.WellNamed)
    {module name text : String} (h : facts.findSome? (Fact.memberText module name) = some text) :
    name ≠ "" ∧ text ≠ "" := by
  obtain ⟨f, hm, ht⟩ := List.exists_of_findSome?_eq_some h
  obtain ⟨-, hn, hi⟩ := (hf f hm).of_memberText ht
  exact ⟨identifier_ne_empty hn, identifier_ne_empty hi⟩

theorem qualified_ne_empty (module name : String) : module ++ "." ++ name ≠ "" := by
  intro h
  have hh := congrArg String.length h
  simp at hh

/-- What is missing is imported neither by name nor through its module. -/
theorem no_import_of_missing (hm : WellNamed m)
    (h : s ∈ missingSpecifiers (scanScope m) specifiers) :
    (factsOfBody m.body).findSome? (Fact.memberText s.module s.name) = none ∧
      (factsOfBody m.body).findSome? (Fact.moduleText s.module) = none ∧
      (.star s.module ∈ factsOfBody m.body → s.name = "") := by
  have hr := (mem_missingSpecifiers.mp h).2
  have hno (text : String) (ht : resolveIn (factsOfBody m.body) s.module s.name = some text) :
      text = "" := by
    rw [← resolve_scanScope] at ht
    by_contra hne
    rw [reference?_eq_some.mpr ⟨ht, hne⟩] at hr
    exact absurd hr (by simp)
  have hmember : (factsOfBody m.body).findSome? (Fact.memberText s.module s.name) = none := by
    cases hf : (factsOfBody m.body).findSome? (Fact.memberText s.module s.name) with
    | none => rfl
    | some text => exact absurd (hno text (by simp [resolveIn, hf])) (member_ne_empty hm hf).2
  have hmodule : (factsOfBody m.body).findSome? (Fact.moduleText s.module) = none := by
    cases hf : (factsOfBody m.body).findSome? (Fact.moduleText s.module) with
    | none => rfl
    | some text =>
      exact absurd (hno _ (by simp [resolveIn, hmember, hf])) (qualified_ne_empty text s.name)
  refine ⟨hmember, hmodule, ?_⟩
  intro hstar
  exact hno s.name (by simp [resolveIn, hmember, hmodule, hstar])

theorem missing_empty_name (hm : WellNamed m) {module : String} (hs : ⟨module, ""⟩ ∈ specifiers)
    (hn : (factsOfBody m.body).findSome? (Fact.moduleText module) = none) :
    ⟨module, ""⟩ ∈ missingSpecifiers (scanScope m) specifiers := by
  refine mem_missingSpecifiers.mpr ⟨hs, ?_⟩
  have hmember : (factsOfBody m.body).findSome? (Fact.memberText module "") = none := by
    cases hf : (factsOfBody m.body).findSome? (Fact.memberText module "") with
    | none => rfl
    | some text => exact absurd rfl (member_ne_empty hm hf).1
  cases hr : reference? (scanScope m) ⟨module, ""⟩ with
  | none => rfl
  | some text =>
    obtain ⟨ht, hne⟩ := reference?_eq_some.mp hr
    rw [resolve_scanScope] at ht
    simp only [resolveIn, hmember, hn, Option.map_none, Option.or_none, Option.none_or,
      Option.ite_none_right_eq_some, Option.some.injEq] at ht
    exact absurd ht.2.symm hne

end Missing

section Second

variable {style : ImportStyle} {specifiers : List Specifier} {m : Module} {statements : List Stmt}

theorem resolve_injected_of_missing (hm : WellNamed m) (hn : specifiers.Nodup)
    (hi : Supplies style specifiers m statements)
    {s : Specifier} {text : String}
    (ht : (s, text) ∈ injectedTexts style (scanScope m) (missingSpecifiers (scanScope m) specifiers)) :
    (scanScope (injected m statements)).resolve s.module s.name = some text := by
  have hs := mem_of_injectedText ht
  obtain ⟨hmember, hmodule, -⟩ := no_import_of_missing hm hs
  rw [factsOfBody_split m.body (headerIndex m.body)] at hmember hmodule
  rw [resolve_scanScope, injected, factsOfBody_insertAt, resolveIn,
    findSome?_around_of_only hmember, findSome?_around_of_only hmodule]
  cases style with
  | named =>
    obtain ⟨⟨s', a⟩, hp, he⟩ := List.mem_map.mp ht
    simp only [namedText, Prod.mk.injEq] at he
    obtain ⟨rfl, rfl⟩ := he
    simp [hi.memberText_eq_some (hn.filter _) hp]
  | qualified =>
    obtain ⟨s', hs', he⟩ := List.mem_map.mp ht
    simp only [qualifiedText, Prod.mk.injEq] at he
    obtain ⟨rfl, rfl⟩ := he
    simp [hi.memberText_eq_none (by simp), hi.moduleText_eq_some hs']

theorem resolve_injected_of_reused (hm : WellNamed m)
    (hi : Supplies style specifiers m statements)
    {s : Specifier} {text : String} (hs : s ∈ specifiers)
    (ht : reference? (scanScope m) s = some text)
    (hc : ¬ Clashes style specifiers m s) :
    (scanScope (injected m statements)).resolve s.module s.name = some text := by
  obtain ⟨hr, hne⟩ := reference?_eq_some.mp ht
  have hnot : s ∉ missingSpecifiers (scanScope m) specifiers := by
    intro hmiss
    rw [(mem_missingSpecifiers.mp hmiss).2] at ht
    exact absurd ht (by simp)
  have hall := factsOfBody_split m.body (headerIndex m.body)
  rw [resolve_scanScope] at hr ⊢
  rw [injected, factsOfBody_insertAt, resolveIn_around (hi.memberText_eq_none fun _ => hnot)
    (hi.star_not_mem _), ← hall]
  · exact hr
  · rw [← hall]
    intro hmember
    -- A new import of the module would be asked before the star.
    apply hi.moduleText_eq_none
    intro hq s' hs' he
    obtain ⟨-, hmodule, hstar⟩ := no_import_of_missing hm hs'
    rw [he] at hmodule hstar
    simp only [resolveIn, hmember, hmodule, Option.map_none, Option.or_none, Option.none_or,
      Option.ite_none_right_eq_some, Option.some.injEq] at hr
    obtain ⟨hmem, rfl⟩ := hr
    have hempty : s' = ⟨s.module, ""⟩ := by
      cases s'
      simp_all
    exact hc {
      qualified := hq
      mem := hs
      empty_mem := hempty ▸ (mem_missingSpecifiers.mp hs').1
      ne_empty := hne
      star := mem_starModules_scanScope.mpr hmem
      no_module := (namespaces_scanScope m s.module).trans hmodule
      no_member := (fromNames_scanScope m s.module s.name).trans hmember }

theorem resolve_injected_of_clashes (hm : WellNamed m)
    (hi : Supplies style specifiers m statements)
    {s : Specifier} (hc : Clashes style specifiers m s) :
    (scanScope (injected m statements)).resolve s.module s.name =
        some (modulePrefix (scanScope m) s.module ++ "." ++ s.name) ∧
      reference? (scanScope m) s = some s.name := by
  obtain ⟨rfl, hs, he, hne, hstar, hmodule, hmember⟩ := hc
  rw [namespaces_scanScope] at hmodule
  rw [fromNames_scanScope] at hmember
  rw [mem_starModules_scanScope] at hstar
  have hmiss := missing_empty_name hm he hmodule
  have hr : reference? (scanScope m) s = some s.name := by
    refine reference?_eq_some.mpr ⟨?_, hne⟩
    rw [resolve_scanScope]
    simp [resolveIn, hmember, hmodule, hstar]
  refine ⟨?_, hr⟩
  rw [factsOfBody_split m.body (headerIndex m.body)] at hmember hmodule
  rw [resolve_scanScope, injected, factsOfBody_insertAt, resolveIn,
    findSome?_around_of_only hmember, findSome?_around_of_only hmodule,
    hi.memberText_eq_none (by simp), hi.moduleText_eq_some hmiss]
  simp

theorem wellNamed_injected (hm : WellNamed m)
    (hi : Supplies style specifiers m statements) :
    WellNamed (injected m statements) := by
  intro f hf
  rw [injected, factsOfBody_insertAt] at hf
  have hall := factsOfBody_split m.body (headerIndex m.body)
  rcases List.mem_append.mp hf with hf | hf
  · rcases List.mem_append.mp hf with hf | hf
    · exact hm f (hall ▸ List.mem_append_left _ hf)
    · exact hi.wellNamed f ((hi.facts f).mp hf)
  · exact hm f (hall ▸ List.mem_append_right _ hf)

theorem suppliedText_ne_empty
    (hi : Supplies style specifiers m statements)
    {s : Specifier} {text : String} (ht : (s, text) ∈ suppliedTexts style (scanScope m) specifiers) :
    text ≠ "" := by
  rcases List.mem_append.mp ht with ht | ht
  · exact (reference?_eq_some.mp (mem_reusedTexts.mp ht).2).2
  · cases style with
    | named =>
      obtain ⟨⟨s', a⟩, hp, he⟩ := List.mem_map.mp ht
      simp only [namedText, Prod.mk.injEq] at he
      obtain ⟨rfl, rfl⟩ := he
      have hw := hi.wellNamed (memberFact (s', a)) (List.mem_map_of_mem hp)
      have hm : (memberFact (s', a)).memberText s'.module s'.name = some (a.getD s'.name) := by
        simp [memberFact, Fact.memberText]
      exact identifier_ne_empty (hw.of_memberText hm).2.2
    | qualified =>
      obtain ⟨s', -, he⟩ := List.mem_map.mp ht
      simp only [qualifiedText, Prod.mk.injEq] at he
      obtain ⟨rfl, rfl⟩ := he
      exact qualified_ne_empty _ _

/-- The second scan resolves a name to its recorded text, except where it clashes. -/
theorem resolve_injected_iff (hm : WellNamed m) (hn : specifiers.Nodup)
    (hi : Supplies style specifiers m statements)
    {s : Specifier} {text : String} (ht : (s, text) ∈ suppliedTexts style (scanScope m) specifiers) :
    (scanScope (injected m statements)).resolve s.module s.name = some text ↔
      ¬ Clashes style specifiers m s := by
  constructor
  · intro h hc
    obtain ⟨hq, hr⟩ := resolve_injected_of_clashes hm hi hc
    rcases List.mem_append.mp ht with ht | ht
    · rw [(mem_reusedTexts.mp ht).2] at hr
      obtain rfl := Option.some.inj hr
      have hl := congrArg String.length (Option.some.inj (h.symm.trans hq))
      simp at hl
    · rw [(mem_missingSpecifiers.mp (mem_of_injectedText ht)).2] at hr
      exact absurd hr (by simp)
  · intro hc
    rcases List.mem_append.mp ht with ht | ht
    · obtain ⟨hs, hr⟩ := mem_reusedTexts.mp ht
      exact resolve_injected_of_reused hm hi hs hr hc
    · exact resolve_injected_of_missing hm hn hi ht

theorem reference?_injected_isSome (hm : WellNamed m) (hn : specifiers.Nodup)
    (hi : Supplies style specifiers m statements)
    {s : Specifier} (hs : s ∈ specifiers) :
    (reference? (scanScope (injected m statements)) s).isSome = true := by
  rw [Option.isSome_iff_exists]
  by_cases hc : Clashes style specifiers m s
  · have hq := (resolve_injected_of_clashes hm hi hc).1
    exact ⟨_, reference?_eq_some.mpr ⟨hq, qualified_ne_empty _ _⟩⟩
  · obtain ⟨text, ht⟩ := exists_suppliedText style (scanScope m) hs
    have hr := (resolve_injected_iff hm hn hi ht).mpr hc
    exact ⟨text, reference?_eq_some.mpr ⟨hr, suppliedText_ne_empty hi ht⟩⟩

end Second

section Twice

variable {style : ImportStyle} {specifiers : List Specifier} {m : Module} {supplied : Supplied}

theorem lookup_supplied_of_not_mem (h : supply style specifiers m = .ok supplied) {key : String}
    (hk : ∀ s ∈ specifiers, s.key ≠ key) : supplied.references.lookup key = none := by
  obtain ⟨hr, -⟩ := supply_eq_ok h
  rw [hr, lookup_record_of_not_mem]
  · rfl
  · intro e he
    exact hk e.1 (mem_of_suppliedText he)

/-- The new scan resolves every name to its recorded text exactly if no name clashes. -/
theorem resolve_supplied_iff (hm : WellNamed m) (hn : specifiers.Nodup)
    (h : supply style specifiers m = .ok supplied) :
    (∀ s ∈ specifiers, (scanScope supplied.module).resolve s.module s.name =
      supplied.references.lookup s.key) ↔ ¬ EmptyNameClash style specifiers m := by
  obtain ⟨-, statements, hi, hmodule⟩ := supply_eq_ok h
  have hone {s : Specifier} (hs : s ∈ specifiers) :
      (scanScope supplied.module).resolve s.module s.name = supplied.references.lookup s.key ↔
        ¬ Clashes style specifiers m s := by
    obtain ⟨text, ht⟩ := exists_suppliedText style (scanScope m) hs
    rw [lookup_supplied hm hn h ht, hmodule]
    exact resolve_injected_iff hm hn hi ht
  constructor
  · rintro hall ⟨s, hc⟩
    exact (hone hc.mem).mp (hall s hc.mem) hc
  · intro hno s hs
    exact (hone hs).mpr fun hc => hno ⟨s, hc⟩

/-- A supply of a module with the scan of the supplied one finds every name and leaves that module
alone. Its references are those of the first supply exactly if no name clashes. -/
theorem supply_again (hm : WellNamed m) (hn : specifiers.Nodup)
    (h : supply style specifiers m = .ok supplied) {other : Module}
    (hscan : scanScope other = scanScope supplied.module) (again : ImportStyle) :
    ∃ references, supply again specifiers other = .ok { module := other, references } ∧
      ((∀ key, references.lookup key = supplied.references.lookup key) ↔
        ¬ EmptyNameClash style specifiers m) := by
  obtain ⟨-, statements, hi, hmodule⟩ := supply_eq_ok h
  have hsome {s : Specifier} (hs : s ∈ specifiers) :
      (reference? (scanScope supplied.module) s).isSome = true := by
    rw [hmodule]
    exact reference?_injected_isSome hm hn hi hs
  have hw : WellNamed supplied.module := by
    rw [hmodule]
    exact wellNamed_injected hm hi
  have hother := supply_of_resolved again fun s hs => hscan.symm ▸ hsome hs
  have hsecond := supply_of_resolved again fun s hs => hsome hs
  refine ⟨_, hother, ?_⟩
  have hlookup {s : Specifier} (hs : s ∈ specifiers) :
      (record [] (reusedTexts (scanScope other) specifiers)).lookup s.key =
        (scanScope supplied.module).resolve s.module s.name := by
    obtain ⟨text, ht⟩ := Option.isSome_iff_exists.mp (hsome hs)
    have hmem : (s, text) ∈ suppliedTexts again (scanScope supplied.module) specifiers :=
      List.mem_append_left _ (mem_reusedTexts.mpr ⟨hs, ht⟩)
    rw [(reference?_eq_some.mp ht).1, hscan]
    exact lookup_supplied hw hn hsecond hmem
  rw [← resolve_supplied_iff hm hn h]
  constructor
  · intro hall s hs
    rw [← hlookup hs]
    exact hall s.key
  · intro hall key
    by_cases hk : ∃ s ∈ specifiers, s.key = key
    · obtain ⟨s, hs, rfl⟩ := hk
      rw [hlookup hs]
      exact hall s hs
    · push Not at hk
      rw [lookup_supplied_of_not_mem h hk]
      exact lookup_supplied_of_not_mem hother hk

/-- A second supply leaves the module alone. Its references are those of the first exactly if no
name clashes. -/
theorem supply_supplied (hm : WellNamed m) (hn : specifiers.Nodup)
    (h : supply style specifiers m = .ok supplied) (again : ImportStyle) :
    ∃ references, supply again specifiers supplied.module =
        .ok { module := supplied.module, references } ∧
      ((∀ key, references.lookup key = supplied.references.lookup key) ↔
        ¬ EmptyNameClash style specifiers m) :=
  supply_again hm hn h rfl again

end Twice

section Hydrated

open Transform

theorem nodup_foldl_distinct (names seen : List String) (h : seen.Nodup) :
    (names.foldl (fun names name => if names.contains name then names else names ++ [name])
      seen).Nodup := by
  induction names generalizing seen with
  | nil => exact h
  | cons name names ih =>
    rw [List.foldl_cons]
    apply ih
    split
    · exact h
    · rename_i hc
      rw [List.contains_iff_mem] at hc
      rw [List.nodup_append]
      refine ⟨h, by simp, ?_⟩
      rintro x hx y hy rfl
      exact hc (List.mem_singleton.mp hy ▸ hx)

theorem nodup_helperSpecifiers (options : Options) : (helperSpecifiers options).Nodup := by
  have hn : (helperNames options).Nodup := nodup_foldl_distinct _ [] .nil
  refine hn.map ?_
  intro x y h
  exact congrArg Specifier.name h

/-- A pass over a hydrated module finds all helpers there, whatever its style and its components. -/
theorem supply_hydrated {index : Index} {context : Context} {m result : Module}
    {diagnostics : List Diagnostic} (hm : WellNamed m)
    (hl : ¬ Unlocated (locateIn index context.file) m.body)
    (h : hydrateModule index context m = .ok (result, diagnostics)) {options : Options}
    (hr : options.runtimeModule = context.options.runtimeModule)
    (hh : options.runtimeHelpers = context.options.runtimeHelpers) :
    ∃ references, supply options.format (helperSpecifiers options) result =
      .ok { module := result, references } := by
  have hspec : helperSpecifiers options = helperSpecifiers context.options := by
    simp only [helperSpecifiers, helperNames, hr, hh]
  obtain ⟨supplied, hs, hc⟩ := hydrateModule_of_located hl h
  have hscan : scanScope result = scanScope supplied.module := by
    rw [scanScope_eq_foldl, scanScope_eq_foldl, factsOfBody_replaceClasses hc]
  obtain ⟨references, hr', -⟩ :=
    supply_again hm (nodup_helperSpecifiers context.options) hs hscan options.format
  rw [hspec]
  exact ⟨references, hr'⟩

end Hydrated

/-- Supplying a module a second time, in whatever style. Every name is found and the module stays
as it is, without warnings; so does a hydrated module in a further pass with the same helpers. Each
name is found under the text recorded the first time exactly if no name clashes. -/
theorem supply_twice {style : ImportStyle} {specifiers : List Specifier} {m : Module}
    {supplied : Supplied} (hm : Admissible m) (hn : specifiers.Nodup)
    (h : supply style specifiers m = .ok supplied) :
    ((∀ s ∈ specifiers, (scanScope supplied.module).resolve s.module s.name =
      supplied.references.lookup s.key) ↔ ¬ EmptyNameClash style specifiers m) ∧
    (∀ again, ∃ references, supply again specifiers supplied.module =
        .ok { module := supplied.module, references } ∧
      ((∀ key, references.lookup key = supplied.references.lookup key) ↔
        ¬ EmptyNameClash style specifiers m)) ∧
    (∀ (index : Index) (context : Transform.Context) (options : Options) (result : Module)
      (diagnostics : List Diagnostic),
      ¬ Transform.Unlocated (Transform.locateIn index context.file) m.body →
      Transform.hydrateModule index context m = .ok (result, diagnostics) →
      options.runtimeModule = context.options.runtimeModule →
      options.runtimeHelpers = context.options.runtimeHelpers →
      ∃ references, supply options.format (Transform.helperSpecifiers options) result =
        .ok { module := result, references }) := by
  have hw := hm.wellNamed
  refine ⟨resolve_supplied_iff hw hn h, supply_supplied hw hn h, ?_⟩
  intro index context options result diagnostics hl hr hmodule hhelpers
  exact supply_hydrated hw hl hr hmodule hhelpers

/-- A module that holds nothing but a star import. -/
def starModule : Module :=
  { body := [plainLine (.importFrom .space [] (some (.name "m")) .space .space .star)] }

/-- Asked for `x` and for an empty name of `m`, the first supply refers to `x` by the star; it adds
`import m` for the empty name, and so the second scan refers to `m.x`. -/
theorem supply_twice_of_star :
    ∃ supplied, supply .qualified [⟨"m", "x"⟩, ⟨"m", ""⟩] starModule = .ok supplied ∧
      ¬ ∀ s ∈ [Specifier.mk "m" "x", ⟨"m", ""⟩],
        (scanScope supplied.module).resolve s.module s.name =
          supplied.references.lookup s.key := by
  have hw : WellNamed starModule := by
    intro f hf
    obtain rfl : f = .star "m" := by
      simpa [starModule, factsOfBody, factsOfStmt_plainLine, factsOfSmall, Expr.fullName,
        Expr.segments] using hf
    change ∀ x ∈ splitDots "m", Text.isIdentifier x = true
    decide
  have hc : Clashes .qualified [⟨"m", "x"⟩, ⟨"m", ""⟩] starModule ⟨"m", "x"⟩ := by
    constructor <;> decide
  refine ⟨_, rfl, ?_⟩
  intro hall
  exact (supply_twice (.inr hw) (by decide) rfl).1.mp hall ⟨_, hc⟩

end Hydration.Imports
