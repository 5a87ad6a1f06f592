import Hydration.Proofs.Execution
import Hydration.Proofs.Resupply

/-! Whether the texts that a supply records mean what they should when the module runs. Each text
hangs on one binding; the texts are sound exactly if the new imports disturb none of those
bindings and nothing behind them disturbs the new imports. -/

namespace Hydration.Imports

open Syntax

namespace Fact

/-- The binding that an import makes. -/
def binding? : Fact → Option Binding
  | .imports full (some a) => some (a, .package (splitDots full))
  | .imports full none => some (rootOf full, .package [rootOf full])
  | .member module name a => some (a.getD name, .member module name)
  | _ => none

/-- The text by which a fact refers to a name of a module, itself or through the module. -/
def text (module name : String) (f : Fact) : Option String :=
  (f.memberText module name).or ((f.moduleText module).map fun start => start ++ "." ++ name)

/-- An import refers to a name of a module by a text. A star does so by the name. -/
def Answers (module name text : String) (f : Fact) : Prop :=
  f.text module name = some text ∨ f = .star module ∧ text = name

end Fact

/-- The text that an import gives hangs on the binding that it makes. -/
theorem hangsOn_of_text {f : Fact} (hf : f.WellNamed) {module name text : String}
    (h : f.text module name = some text) :
    ∃ b, f.binding? = some b ∧ HangsOn text module name b ∧ b.1 = rootOf text := by
  cases f with
  | imports full a =>
    simp only [Fact.text, Fact.memberText, Fact.moduleText, Option.none_or, Option.map_eq_some_iff,
      Option.ite_none_right_eq_some, Option.some.injEq] at h
    obtain ⟨start, ⟨rfl, rfl⟩, rfl⟩ := h
    cases a with
    | none =>
      refine ⟨_, rfl, hangsOn_root full name, ?_⟩
      simp [rootOf_append]
    | some a =>
      have ha := hf.2 a rfl
      refine ⟨_, rfl, hangsOn_alias (splitDots_identifier ha) full name, ?_⟩
      simp [rootOf_append, rootOf_identifier ha]
  | member m n a =>
    simp only [Fact.text, Fact.memberText, Fact.moduleText, Option.map_none, Option.or_none,
      Option.ite_none_right_eq_some, Option.some.injEq] at h
    obtain ⟨⟨rfl, rfl⟩, rfl⟩ := h
    have ht : Text.isIdentifier (a.getD n) = true := by
      cases a with
      | none => exact hf.2.1
      | some a => exact hf.2.2 a rfl
    exact ⟨_, rfl, hangsOn_plain (splitDots_identifier ht) m n, (rootOf_identifier ht).symm⟩
  | star module => simp [Fact.text, Fact.memberText, Fact.moduleText] at h
  | defines names => simp [Fact.text, Fact.memberText, Fact.moduleText] at h

theorem exists_answer_of_resolveIn {facts : List Fact} {module name text : String}
    (h : resolveIn facts module name = some text) :
    ∃ f ∈ facts, f.Answers module name text := by
  unfold resolveIn at h
  rcases Option.or_eq_some_iff.mp h with h | ⟨-, h⟩
  · rcases Option.or_eq_some_iff.mp h with h | ⟨hn, h⟩
    · obtain ⟨f, hf, ht⟩ := List.exists_of_findSome?_eq_some h
      exact ⟨f, hf, .inl (by simp [Fact.text, ht])⟩
    · obtain ⟨start, hs, rfl⟩ := Option.map_eq_some_iff.mp h
      obtain ⟨f, hf, ht⟩ := List.exists_of_findSome?_eq_some hs
      have hm := List.findSome?_eq_none_iff.mp hn f hf
      exact ⟨f, hf, .inl (by simp [Fact.text, hm, ht])⟩
  · obtain ⟨hf, he⟩ := Option.ite_none_right_eq_some.mp h
    exact ⟨_, hf, .inr ⟨rfl, (Option.some.inj he).symm⟩⟩

theorem resolveIn_ne_none_of_answer {facts : List Fact} {module name text : String} {f : Fact}
    (hf : f ∈ facts) (ha : f.Answers module name text) : resolveIn facts module name ≠ none := by
  intro h
  simp only [resolveIn, Option.or_eq_none_iff, Option.map_eq_none_iff, ite_eq_right_iff,
    reduceCtorEq, imp_false, List.findSome?_eq_none_iff] at h
  obtain ⟨⟨hmember, hmodule⟩, hstar⟩ := h
  rcases ha with ha | ⟨rfl, -⟩
  · simp [Fact.text, hmember f hf, hmodule f hf] at ha
  · exact hstar hf

theorem exists_text_of_resolveIn {facts : List Fact} {module name text : String}
    (hs : .star module ∉ facts) (h : resolveIn facts module name = some text) :
    ∃ f ∈ facts, f.text module name = some text := by
  obtain ⟨f, hf, ht | ⟨rfl, -⟩⟩ := exists_answer_of_resolveIn h
  · exact ⟨f, hf, ht⟩
  · exact absurd hf hs

theorem bindingOfImport_eq (item : ImportName) :
    (Fact.imports item.name.fullName (aliasOf item)).binding? = some (bindingOfImport item) := by
  cases h : item.asName <;> simp [Fact.binding?, bindingOfImport, aliasOf, h]

theorem mem_bindingsOfSmall {small : Small} {f : Fact} {b : Binding} (hf : f ∈ factsOfSmall small)
    (hb : f.binding? = some b) : b ∈ bindingsOfSmall small := by
  cases small with
  | import_ gap names =>
    obtain ⟨item, hi, rfl⟩ := List.mem_map.mp hf
    rw [bindingOfImport_eq] at hb
    exact List.mem_map.mpr ⟨item, hi, Option.some.inj hb⟩
  | importFrom afterFrom dots path before after names =>
    cases dots with
    | cons dot dots => simp [factsOfSmall] at hf
    | nil =>
      cases path with
      | none => simp [factsOfSmall] at hf
      | some path =>
        cases names with
        | star =>
          obtain rfl := List.mem_singleton.mp hf
          simp [Fact.binding?] at hb
        | names parens names =>
          obtain ⟨item, hi, rfl⟩ := List.mem_map.mp hf
          exact List.mem_map.mpr ⟨item, hi, Option.some.inj hb⟩
  | assign targets value =>
    obtain rfl := List.mem_singleton.mp hf
    simp [Fact.binding?] at hb
  | annAssign target colon typing value =>
    obtain rfl := List.mem_singleton.mp hf
    simp [Fact.binding?] at hb
  | augAssign target around op value =>
    obtain rfl := List.mem_singleton.mp hf
    simp [Fact.binding?] at hb
  | _ => simp [factsOfSmall] at hf

theorem mem_bindingsOf {body : List Stmt} (hp : ∀ stmt ∈ body, IsPlainStmt stmt) {f : Fact}
    {b : Binding} (hf : f ∈ factsOfBody body) (hb : f.binding? = some b) : b ∈ bindingsOf body := by
  induction body with
  | nil => simp [factsOfBody] at hf
  | cons stmt body ih =>
    have hs := List.forall_mem_cons.mp hp
    simp only [bindingsOf, List.flatMap_cons, List.mem_append]
    rcases List.mem_append.mp hf with hf | hf
    · left
      cases stmt with
      | line line =>
        obtain ⟨entry, he, hf⟩ := List.mem_flatMap.mp hf
        exact List.mem_flatMap.mpr ⟨entry, he, mem_bindingsOfSmall hf hb⟩
      | func head body =>
        obtain rfl := List.mem_singleton.mp hf
        simp [Fact.binding?] at hb
      | class_ head body =>
        obtain rfl := List.mem_singleton.mp hf
        simp [Fact.binding?] at hb
      | compound clauses => exact hs.1.elim
    · exact .inr (ih hs.2 hf)

theorem star_not_mem {body : List Stmt} (hp : ∀ stmt ∈ body, IsPlainStmt stmt) (module : String) :
    .star module ∉ factsOfBody body := by
  induction body with
  | nil => simp [factsOfBody]
  | cons stmt body ih =>
    have hs := List.forall_mem_cons.mp hp
    intro hf
    rcases List.mem_append.mp hf with hf | hf
    · cases stmt with
      | line line =>
        obtain ⟨entry, he, hf⟩ := List.mem_flatMap.mp hf
        have hplain := hs.1 entry he
        revert hf hplain
        generalize entry.stmt = small
        intro hf hplain
        unfold factsOfSmall at hf
        split at hf <;> simp [IsPlainSmall] at hf hplain
      | func head body => simp [factsOfStmt] at hf
      | class_ head body => simp [factsOfStmt] at hf
      | compound clauses => exact hs.1
    · exact ih hs.2 hf

theorem exists_fact_of_importLines {statements : List Stmt}
    (h : ∀ stmt ∈ statements, IsImportLine stmt) {b : Binding} (hb : b ∈ bindingsOf statements) :
    ∃ f ∈ factsOfBody statements, f.binding? = some b := by
  induction statements with
  | nil => simp [bindingsOf] at hb
  | cons stmt statements ih =>
    have hs := List.forall_mem_cons.mp h
    simp only [bindingsOf, List.flatMap_cons, List.mem_append] at hb
    simp only [factsOfBody, List.mem_append]
    rcases hb with hb | hb
    · obtain ⟨small, hplain, rfl⟩ := hs.1
      rw [factsOfStmt_plainLine]
      simp only [plainLine, bindingsOfStmt, List.flatMap_cons, List.flatMap_nil,
        List.append_nil] at hb
      unfold IsPlainImport at hplain
      split at hplain
      · obtain ⟨item, hi, rfl⟩ := List.mem_map.mp hb
        exact ⟨_, .inl (List.mem_map_of_mem hi), bindingOfImport_eq item⟩
      · obtain ⟨item, hi, rfl⟩ := List.mem_map.mp hb
        exact ⟨_, .inl (List.mem_map_of_mem hi), rfl⟩
      · exact hplain.elim
    · obtain ⟨f, hf, he⟩ := ih hs.2 hb
      exact ⟨f, .inr hf, he⟩

theorem isPlainStmt_of_importLine {stmt : Stmt} (h : IsImportLine stmt) : IsPlainStmt stmt := by
  obtain ⟨small, hs, rfl⟩ := h
  intro entry he
  obtain rfl := List.mem_singleton.mp he
  change IsPlainSmall small
  unfold IsPlainImport at hs
  split at hs
  · trivial
  · trivial
  · exact hs.elim

section Texts

variable {style : ImportStyle} {b : Scope} {missing : List Specifier}

theorem exists_fact_of_injectedText {s : Specifier} {text : String}
    (h : (s, text) ∈ injectedTexts style b missing) :
    ∃ f ∈ injectedFacts style b missing, f.text s.module s.name = some text := by
  cases style with
  | named =>
    obtain ⟨⟨t, a⟩, hp, he⟩ := List.mem_map.mp h
    simp only [namedText, Prod.mk.injEq] at he
    obtain ⟨rfl, rfl⟩ := he
    refine ⟨_, List.mem_map_of_mem hp, ?_⟩
    simp [memberFact, Fact.text, Fact.memberText]
  | qualified =>
    obtain ⟨t, ht, he⟩ := List.mem_map.mp h
    simp only [qualifiedText, Prod.mk.injEq] at he
    obtain ⟨rfl, rfl⟩ := he
    refine ⟨moduleFact b t.module, List.mem_map.mpr ⟨t, ht, rfl⟩, ?_⟩
    simp [moduleFact, modulePrefix, Fact.text, Fact.memberText, Fact.moduleText]

theorem exists_injectedText_of_fact {f : Fact} (h : f ∈ injectedFacts style b missing) :
    ∃ s text, (s, text) ∈ injectedTexts style b missing ∧ f.text s.module s.name = some text := by
  cases style with
  | named =>
    obtain ⟨⟨s, a⟩, hp, rfl⟩ := List.mem_map.mp h
    refine ⟨s, a.getD s.name, List.mem_map_of_mem hp, ?_⟩
    simp [memberFact, Fact.text, Fact.memberText]
  | qualified =>
    obtain ⟨s, hs, rfl⟩ := List.mem_map.mp h
    refine ⟨s, modulePrefix b s.module ++ "." ++ s.name, List.mem_map.mpr ⟨s, hs, rfl⟩, ?_⟩
    simp [moduleFact, modulePrefix, Fact.text, Fact.memberText, Fact.moduleText]

variable {statements : List Stmt}

theorem mem_bindingsOf_injection (hi : Injection style b missing statements) {e : Binding} :
    e ∈ bindingsOf statements ↔ e ∈ (injectedFacts style b missing).filterMap Fact.binding? := by
  rw [List.mem_filterMap]
  constructor
  · intro h
    obtain ⟨f, hf, he⟩ := exists_fact_of_importLines hi.lines h
    exact ⟨f, (hi.facts f).mp hf, he⟩
  · rintro ⟨f, hf, he⟩
    have hp : ∀ stmt ∈ statements, IsPlainStmt stmt :=
      fun stmt hs => isPlainStmt_of_importLine (hi.lines stmt hs)
    exact mem_bindingsOf hp ((hi.facts f).mpr hf) he

theorem exists_binding_of_injectedText (hi : Injection style b missing statements) {s : Specifier}
    {text : String} (h : (s, text) ∈ injectedTexts style b missing) :
    ∃ e ∈ bindingsOf statements, HangsOn text s.module s.name e := by
  obtain ⟨f, hf, ht⟩ := exists_fact_of_injectedText h
  obtain ⟨e, he, hh, -⟩ := hangsOn_of_text (hi.wellNamed f hf) ht
  exact ⟨e, (mem_bindingsOf_injection hi).mpr (List.mem_filterMap.mpr ⟨f, hf, he⟩), hh⟩

theorem exists_injectedText_of_binding (hi : Injection style b missing statements) {e : Binding}
    (h : e ∈ bindingsOf statements) :
    ∃ s text, (s, text) ∈ injectedTexts style b missing ∧ HangsOn text s.module s.name e := by
  obtain ⟨f, hf, he⟩ := List.mem_filterMap.mp ((mem_bindingsOf_injection hi).mp h)
  obtain ⟨s, text, hs, ht⟩ := exists_injectedText_of_fact hf
  obtain ⟨e', he', hh, -⟩ := hangsOn_of_text (hi.wellNamed f hf) ht
  obtain rfl : e' = e := Option.some.inj (he'.symm.trans he)
  exact ⟨s, text, hs, hh⟩

theorem exists_binding_of_reusedText {m : Module} {specifiers : List Specifier} (hm : WellNamed m)
    (hp : ∀ stmt ∈ m.body, IsPlainStmt stmt) {s : Specifier} {text : String}
    (h : (s, text) ∈ reusedTexts (scanScope m) specifiers) :
    ∃ e ∈ bindingsOf m.body, HangsOn text s.module s.name e ∧ e.1 = rootOf text := by
  have hr := (reference?_eq_some.mp (mem_reusedTexts.mp h).2).1
  rw [resolve_scanScope] at hr
  obtain ⟨f, hf, ht⟩ := exists_text_of_resolveIn (star_not_mem hp s.module) hr
  obtain ⟨e, he, hh, hroot⟩ := hangsOn_of_text (hm f hf) ht
  exact ⟨e, mem_bindingsOf hp hf he, hh, hroot⟩

end Texts

section Sound

variable {style : ImportStyle} {specifiers : List Specifier} {m : Module} {statements : List Stmt}
  {supplied : Supplied}

def frontBindings (m : Module) : List Binding := bindingsOf (m.body.take (headerIndex m.body))

def backBindings (m : Module) : List Binding := bindingsOf (m.body.drop (headerIndex m.body))

/-- The roots of the texts that the module's own imports give. -/
def reusedRoots (m : Module) (specifiers : List Specifier) : List String :=
  (reusedTexts (scanScope m) specifiers).map fun e => rootOf e.2

/-- The bindings that the supply adds. -/
def newBindings (style : ImportStyle) (m : Module) (specifiers : List Specifier) : List Binding :=
  (injectedFacts style (scanScope m) (missingSpecifiers (scanScope m) specifiers)).filterMap
    Fact.binding?

theorem bindingsOf_split (m : Module) : bindingsOf m.body = frontBindings m ++ backBindings m := by
  rw [frontBindings, backBindings, bindingsOf, bindingsOf, bindingsOf, ← List.flatMap_append,
    List.take_append_drop]

theorem execute_injected (m : Module) (statements : List Stmt) :
    execute (injected m statements) =
      run (frontBindings m ++ bindingsOf statements ++ backBindings m) := by
  simp only [execute, injected, insertAt, bindingsOf, frontBindings, backBindings,
    List.flatMap_append]

/-- Every name is recorded under a text that denotes it once the module has run. -/
def Sound (specifiers : List Specifier) (supplied : Supplied) : Prop :=
  ∀ s ∈ specifiers, ∃ text, supplied.references.lookup s.key = some text ∧
    Denotes (execute supplied.module) text s.module s.name

theorem undisturbed_newBindings_iff {front back : List Binding} {used : List String}
    (hi : Supplies style specifiers m statements) :
    Undisturbed front (newBindings style m specifiers) back used ↔
      Undisturbed front (bindingsOf statements) back used := by
  constructor
  · exact fun hu => hu.of_subset fun e he => (mem_bindingsOf_injection hi).mp he
  · exact fun hu => hu.of_subset fun e he => (mem_bindingsOf_injection hi).mpr he

theorem sound_iff (hm : WellNamed m) (hp : ∀ stmt ∈ m.body, IsPlainStmt stmt)
    (hc : Consistent (bindingsOf m.body)) (hn : specifiers.Nodup)
    (h : supply style specifiers m = .ok supplied)
    (hi : Supplies style specifiers m statements)
    (hs : supplied.module = injected m statements) :
    Sound specifiers supplied ↔ Undisturbed (frontBindings m) (newBindings style m specifiers)
      (backBindings m) (reusedRoots m specifiers) := by
  rw [bindingsOf_split] at hc
  rw [undisturbed_newBindings_iff hi, ← run_around_iff hc, ← execute_injected, ← hs]
  constructor
  · intro hsound
    have hdenotes {s : Specifier} {text : String}
        (ht : (s, text) ∈ suppliedTexts style (scanScope m) specifiers) :
        Denotes (execute supplied.module) text s.module s.name := by
      obtain ⟨text', hl, hd⟩ := hsound s (mem_of_suppliedText ht)
      obtain rfl := Option.some.inj ((lookup_supplied hm hn h ht).symm.trans hl)
      exact hd
    refine ⟨?_, ?_⟩
    · intro x v hx hv
      obtain ⟨⟨s, text⟩, ht, rfl⟩ := List.mem_map.mp hx
      obtain ⟨⟨root, w⟩, hmem, hh, rfl⟩ := exists_binding_of_reusedText hm hp ht
      rw [bindingsOf_split] at hmem
      rw [hc _ v w hv hmem]
      exact (hh _).mp (hdenotes (List.mem_append_left _ ht))
    · intro x v hv
      obtain ⟨s, text, ht, hh⟩ := exists_injectedText_of_binding hi hv
      exact (hh _).mp (hdenotes (List.mem_append_right _ ht))
  · rintro ⟨hused, hnew⟩ s hmem
    obtain ⟨text, ht⟩ := exists_suppliedText style (scanScope m) hmem
    refine ⟨text, lookup_supplied hm hn h ht, ?_⟩
    rcases List.mem_append.mp ht with ht | ht
    · obtain ⟨⟨root, v⟩, he, hh, hroot⟩ := exists_binding_of_reusedText hm hp ht
      rw [bindingsOf_split] at he
      have hx : root ∈ reusedRoots m specifiers := List.mem_map.mpr ⟨_, ht, hroot.symm⟩
      exact (hh _).mpr (hused root v hx he)
    · obtain ⟨⟨x, v⟩, he, hh⟩ := exists_binding_of_injectedText hi ht
      exact (hh _).mpr (hnew x v he)

/-- A name of the kind that the aliases of injected imports have. -/
def IsReserved (name : String) : Prop := ∃ rest, name = aliasPrefix ++ rest

theorem importsRoot_of_no_alias {b : Scope} {module : String} (h : moduleAlias b module = none)
    (hb : rootOf module ∈ b.boundNames) : b.importsRoot (rootOf module) = true := by
  by_contra hno
  rw [Bool.not_eq_true] at hno
  have hc : (b.boundNames.contains (rootOf module) && !b.importsRoot (rootOf module)) = true := by
    rw [hno]
    simpa using hb
  have ha : moduleAlias b module = some (aliasPrefix ++ underscored module) := if_pos hc
  rw [h] at ha
  simp at ha

theorem imports_of_lookup {root : String} (h : (scanScope m).namespaces.lookup root = some root) :
    .imports root none ∈ factsOfBody m.body ∨ .imports root (some root) ∈ factsOfBody m.body := by
  rw [namespaces_scanScope] at h
  obtain ⟨f, hf, ht⟩ := List.exists_of_findSome?_eq_some h
  cases f with
  | imports full a =>
    obtain ⟨rfl, ha⟩ := Option.ite_none_right_eq_some.mp ht
    cases a with
    | none => exact .inl hf
    | some a =>
      obtain rfl : a = full := Option.some.inj ha
      exact .inr hf
  | _ => simp [Fact.moduleText] at ht

/-- A root is imported by an import without an alias, or by one of itself under its own name. -/
theorem exists_import_of_importsRoot (hm : WellNamed m) {root : String}
    (h : (scanScope m).importsRoot root = true) :
    (∃ full, .imports full none ∈ factsOfBody m.body ∧ rootOf full = root) ∨
      (scanScope m).namespaces.lookup root = some root ∧
        .imports root (some root) ∈ factsOfBody m.body ∧ Text.isIdentifier root = true := by
  obtain ⟨full, hf, hroot⟩ := importsRoot_scanScope.mp h
  rw [← namespaces_scanScope] at hf
  rcases imports_of_lookup hf with hmem | hmem
  · exact .inl ⟨full, hmem, hroot⟩
  · have hid := (hm _ hmem).2 full rfl
    obtain rfl : full = root := (rootOf_identifier hid).symm.trans hroot
    exact .inr ⟨hf, hmem, hid⟩

/-- A root that is not renamed is free, or the module itself binds it to its package. -/
theorem root_of_no_alias (hm : WellNamed m) (hp : ∀ stmt ∈ m.body, IsPlainStmt stmt)
    {module : String} (h : moduleAlias (scanScope m) module = none) :
    rootOf module ∉ (scanScope m).boundNames ∨
      (rootOf module, .package [rootOf module]) ∈ bindingsOf m.body := by
  by_cases hb : rootOf module ∈ (scanScope m).boundNames
  · right
    rcases exists_import_of_importsRoot hm (importsRoot_of_no_alias h hb) with
      ⟨full, hmem, hroot⟩ | ⟨-, hmem, hid⟩
    · rw [← hroot]
      exact mem_bindingsOf hp hmem rfl
    · apply mem_bindingsOf hp hmem
      simp [Fact.binding?, splitDots_identifier hid]
  · exact .inl hb

theorem exists_named_of_binding {x : String} {v : Value}
    (h : (x, v) ∈ newBindings .named m specifiers) :
    ∃ s a, s ∈ specifiers ∧ x = a.getD s.name ∧ v = .member s.module s.name ∧
      (a = some (aliasPrefix ++ s.name) ∨ a = none ∧ s.name ∉ (scanScope m).boundNames) := by
  obtain ⟨f, hf, hb⟩ := List.mem_filterMap.mp h
  obtain ⟨⟨s, a⟩, hs, rfl⟩ := List.mem_map.mp hf
  obtain ⟨rfl, rfl⟩ := Prod.mk.inj (Option.some.inj hb)
  have hmem := map_fst_named _ _ ▸ List.mem_map_of_mem hs
  exact ⟨s, a, (mem_missingSpecifiers.mp hmem).1, rfl, rfl, named_alias hs⟩

theorem exists_module_of_binding {e : Binding} (h : e ∈ newBindings .qualified m specifiers) :
    ∃ s ∈ specifiers, (moduleFact (scanScope m) s.module).binding? = some e := by
  obtain ⟨f, hf, hb⟩ := List.mem_filterMap.mp h
  obtain ⟨s, hs, rfl⟩ := List.mem_map.mp hf
  exact ⟨s, (mem_missingSpecifiers.mp hs).1, hb⟩

/-- The scan sees every name that the module binds, and no name is of the aliases' kind. -/
structure Ordinary (specifiers : List Specifier) (m : Module) : Prop where
  seen : ∀ x v, (x, v) ∈ bindingsOf m.body → x ∈ (scanScope m).boundNames
  free : ∀ x ∈ (scanScope m).boundNames, ¬ IsReserved x
  names_free : ∀ s ∈ specifiers, ¬ IsReserved s.name

theorem Ordinary.new_eq_old (ho : Ordinary specifiers m) (hm : WellNamed m)
    (hp : ∀ stmt ∈ m.body, IsPlainStmt stmt) (hc : Consistent (bindingsOf m.body))
    {x : String} {v w : Value} (hv : (x, v) ∈ newBindings style m specifiers)
    (hw : (x, w) ∈ bindingsOf m.body) : v = w := by
  have hx := ho.seen x w hw
  cases style with
  | named =>
    obtain ⟨s, a, -, rfl, rfl, ha | ⟨ha, hn⟩⟩ := exists_named_of_binding hv
    · exact absurd ⟨s.name, by simp [ha]⟩ (ho.free _ hx)
    · simp only [ha, Option.getD_none] at hx
      exact absurd hx hn
  | qualified =>
    obtain ⟨s, hs, hb⟩ := exists_module_of_binding hv
    unfold moduleFact at hb
    cases ha : moduleAlias (scanScope m) s.module with
    | some a =>
      rw [ha] at hb
      obtain ⟨rfl, rfl⟩ := Prod.mk.inj (Option.some.inj hb)
      unfold moduleAlias at ha
      obtain ⟨-, he⟩ := Option.ite_none_right_eq_some.mp ha
      exact absurd ⟨_, (Option.some.inj he).symm⟩ (ho.free _ hx)
    | none =>
      rw [ha] at hb
      obtain ⟨rfl, rfl⟩ := Prod.mk.inj (Option.some.inj hb)
      rcases root_of_no_alias hm hp ha with hr | hr
      · exact absurd hx hr
      · exact hc _ _ w hr hw

theorem Ordinary.new_eq_new (ho : Ordinary specifiers m)
    (hone : ∀ s ∈ specifiers, ∀ t ∈ specifiers, s.module = t.module) {x : String} {v w : Value}
    (hv : (x, v) ∈ newBindings style m specifiers) (hw : (x, w) ∈ newBindings style m specifiers) :
    v = w := by
  cases style with
  | named =>
    obtain ⟨s, a, hs, hx, rfl, ha⟩ := exists_named_of_binding hv
    obtain ⟨s', a', hs', hx', rfl, ha'⟩ := exists_named_of_binding hw
    have he := hx.symm.trans hx'
    have hname : s.name = s'.name := by
      rcases ha with ha | ⟨ha, -⟩ <;> rcases ha' with ha' | ⟨ha', -⟩
      · simpa [ha, ha'] using he
      · simp only [ha, ha', Option.getD_some, Option.getD_none] at he
        exact absurd ⟨s.name, he.symm⟩ (ho.names_free s' hs')
      · simp only [ha, ha', Option.getD_some, Option.getD_none] at he
        exact absurd ⟨s'.name, he⟩ (ho.names_free s hs)
      · simpa [ha, ha'] using he
    rw [hone s hs s' hs', hname]
  | qualified =>
    obtain ⟨s, hs, hb⟩ := exists_module_of_binding hv
    obtain ⟨s', hs', hb'⟩ := exists_module_of_binding hw
    rw [hone s hs s' hs', hb'] at hb
    exact (congrArg Prod.snd (Option.some.inj hb)).symm

theorem Ordinary.undisturbed (ho : Ordinary specifiers m) (hm : WellNamed m)
    (hone : ∀ s ∈ specifiers, ∀ t ∈ specifiers, s.module = t.module)
    (hp : ∀ stmt ∈ m.body, IsPlainStmt stmt) (hc : Consistent (bindingsOf m.body)) :
    Undisturbed (frontBindings m) (newBindings style m specifiers) (backBindings m)
      (reusedRoots m specifiers) := by
  have hsplit := bindingsOf_split m
  constructor
  · intro x v w hv hw
    exact ho.new_eq_old hm hp hc hv (hsplit ▸ List.mem_append_right _ hw)
  · intro x v w hv hw
    exact ho.new_eq_new hone hv hw
  · rintro x v w - hv hw
    exact ho.new_eq_old hm hp hc hv (hsplit ▸ List.mem_append_left _ hw)

end Sound

/-- Soundness of references, for a module whose top level binds no name to two values. The texts
recorded for the helpers denote them, once the supplied module has run, exactly if the lines that
the supply adds disturb nothing; and that they do not, whenever all names are ordinary. -/
theorem references_sound {style : ImportStyle} {module : String} {names : List String} {m : Module}
    {supplied : Supplied} (hm : Admissible m) (hp : ∀ stmt ∈ m.body, IsPlainStmt stmt)
    (hc : Consistent (bindingsOf m.body)) (hn : names.Nodup)
    (h : supply style (specifiersOf module names) m = .ok supplied) :
    (Sound (specifiersOf module names) supplied ↔
      Undisturbed (frontBindings m) (newBindings style m (specifiersOf module names))
        (backBindings m) (reusedRoots m (specifiersOf module names))) ∧
    (Ordinary (specifiersOf module names) m → Sound (specifiersOf module names) supplied) := by
  have hn' : (specifiersOf module names).Nodup :=
    hn.map fun x y hxy => congrArg Specifier.name hxy
  obtain ⟨-, statements, hi, hs⟩ := supply_eq_ok h
  have hw := hm.wellNamed
  have hiff := sound_iff hw hp hc hn' h hi hs
  refine ⟨hiff, ?_⟩
  intro ho
  have hone : ∀ s ∈ specifiersOf module names, ∀ t ∈ specifiersOf module names,
      s.module = t.module := by
    intro s hs t ht
    obtain ⟨x, -, rfl⟩ := List.mem_map.mp hs
    obtain ⟨y, -, rfl⟩ := List.mem_map.mp ht
    rfl
  exact hiff.mpr (ho.undisturbed hw hone hp hc)

/-- A module that imports the name of a helper from a module beside it. -/
def relativeModule : Module :=
  { body := [plainLine (.importFrom .space [{}] (some (.name "x")) .space .space
      (.names none [{ name := .name "register_instance" }]))] }

def helperLine : Stmt :=
  plainLine (.importFrom .space [] (some (.name "hydrate_runtime")) .space .space
    (.names none [{ name := .name "register_instance" }]))

/-- The scan passes over relative imports, so the helper is imported under its own name in front of
one that binds this name again. -/
theorem references_unsound_of_relative :
    ∃ supplied, supply .named (specifiersOf "hydrate_runtime" ["register_instance"])
        relativeModule = .ok supplied ∧
      ¬ Sound (specifiersOf "hydrate_runtime" ["register_instance"]) supplied := by
  have hw : WellNamed relativeModule := by
    intro f hf
    simp [relativeModule, factsOfBody, factsOfStmt_plainLine, factsOfSmall] at hf
  have hp : ∀ stmt ∈ relativeModule.body, IsPlainStmt stmt := by
    intro stmt hs
    obtain rfl := List.mem_singleton.mp hs
    intro entry he
    obtain rfl := List.mem_singleton.mp he
    trivial
  have hb : bindingsOf relativeModule.body = [("register_instance", .unrelated)] := rfl
  have hc : Consistent (bindingsOf relativeModule.body) := by
    intro x v w hv hw
    rw [hb, List.mem_singleton] at hv hw
    exact congrArg Prod.snd (hv.trans hw.symm)
  have hn : ["register_instance"].Nodup := by decide
  have h : supply .named (specifiersOf "hydrate_runtime" ["register_instance"]) relativeModule =
      .ok { module := injected relativeModule [helperLine]
            references := [("hydrate_runtime:register_instance", "register_instance")] } := rfl
  refine ⟨_, h, ?_⟩
  rw [(references_sound (.inr hw) hp hc hn h).1]
  intro hu
  have hh := hu.behind "register_instance" (.member "hydrate_runtime" "register_instance")
    .unrelated (List.mem_singleton.mpr rfl) (List.mem_singleton.mpr rfl)
  simp at hh
end Hydration.Imports
