import Hydration.Proofs.NewLines

/-! What a supply gives. The lines that import the missing names stand behind the header, and each
name is recorded under its own text: the one that the module gives already, or the new one. -/

namespace Hydration.Imports

open Syntax

def reusedTexts (b : Scope) (specifiers : List Specifier) : List (Specifier × String) :=
  specifiers.filterMap fun s => (reference? b s).map fun text => (s, text)

def suppliedTexts (style : ImportStyle) (b : Scope) (specifiers : List Specifier) :
    List (Specifier × String) :=
  reusedTexts b specifiers ++ injectedTexts style b (missingSpecifiers b specifiers)

theorem record_append (references : List (String × String))
    (first second : List (Specifier × String)) :
    record references (first ++ second) = record (record references first) second :=
  List.foldl_append

theorem resolvedReferences_eq_record (b : Scope) (specifiers : List Specifier) :
    resolvedReferences b specifiers = record [] (reusedTexts b specifiers) := by
  unfold resolvedReferences record reusedTexts
  generalize ([] : List (String × String)) = references
  induction specifiers generalizing references with
  | nil => rfl
  | cons s specifiers ih =>
    rw [List.foldl_cons, ih, List.filterMap_cons]
    cases reference? b s <;> rfl

/-- The module with new lines behind its header. -/
def injected (m : Module) (statements : List Stmt) : Module :=
  { m with body := insertAt m.body (headerIndex m.body) statements }

theorem insertAt_left_cancel {body first second : List Stmt} {i : Nat}
    (h : insertAt body i first = insertAt body i second) : first = second := by
  have hh := List.append_cancel_right h
  exact List.append_cancel_left hh

/-- Lines that import what a module misses. -/
abbrev Supplies (style : ImportStyle) (specifiers : List Specifier) (m : Module)
    (statements : List Stmt) : Prop :=
  Injection style (scanScope m) (missingSpecifiers (scanScope m) specifiers) statements

/-- A successful supply inserts a line for each module with a missing name behind the header, records
the texts of all names and warns of every alias. -/
theorem newLines_of_supply {style : ImportStyle} {specifiers : List Specifier} {m : Module}
    {supplied : Supplied} (h : supply style specifiers m = .ok supplied) :
    ∃ statements, supplied.module = injected m statements ∧
      NewLines style (scanScope m) (missingSpecifiers (scanScope m) specifiers) statements ∧
      (∀ f ∈ injectedFacts style (scanScope m) (missingSpecifiers (scanScope m) specifiers),
        f.WellNamed) ∧
      supplied.references = record [] (suppliedTexts style (scanScope m) specifiers) ∧
      supplied.warnings =
        newWarnings style (scanScope m) (missingSpecifiers (scanScope m) specifiers) := by
  simp only [supply, resolvedReferences_eq_record] at h
  by_cases hm : (missingSpecifiers (scanScope m) specifiers).isEmpty = true
  · simp only [hm, if_true] at h
    obtain rfl := Except.ok.inj h
    rw [List.isEmpty_iff] at hm
    refine ⟨[], by simp [injected, insertAt], ?_, ?_, ?_, ?_⟩
    · rw [hm]
      cases style <;> exact .nil
    · cases style <;> simp [hm, injectedFacts, named]
    · cases style <;> simp [suppliedTexts, hm, injectedTexts, named]
    · rw [hm]
      cases style <;> rfl
  · simp only [hm, Bool.false_eq_true, if_false, bind_eq_ok, Prod.exists] at h
    obtain ⟨statements, references, warnings, hi, hs⟩ := h
    obtain rfl := Except.ok.inj hs
    obtain ⟨hlines, hwell, hr, hw⟩ := newLines_of_injections hi
    refine ⟨statements, rfl, hlines, hwell, ?_, hw⟩
    rw [suppliedTexts, record_append]
    exact hr

theorem supply_eq_ok {style : ImportStyle} {specifiers : List Specifier} {m : Module}
    {supplied : Supplied} (h : supply style specifiers m = .ok supplied) :
    supplied.references = record [] (suppliedTexts style (scanScope m) specifiers) ∧
      ∃ statements, Supplies style specifiers m statements ∧
        supplied.module = injected m statements := by
  obtain ⟨statements, hmodule, hlines, hwell, hr, -⟩ := newLines_of_supply h
  exact ⟨hr, statements, injection_of_newLines hlines hwell, hmodule⟩

/-- Where nothing is missing, nothing changes. -/
theorem supply_of_resolved (style : ImportStyle) {specifiers : List Specifier} {m : Module}
    (h : ∀ s ∈ specifiers, (reference? (scanScope m) s).isSome = true) :
    supply style specifiers m =
      .ok { module := m, references := record [] (reusedTexts (scanScope m) specifiers) } := by
  have hm : missingSpecifiers (scanScope m) specifiers = [] := by
    simpa [missingSpecifiers, Option.isSome_iff_ne_none] using h
  simp only [supply, resolvedReferences_eq_record, hm]
  rfl

theorem reference?_eq_some {b : Scope} {s : Specifier} {text : String} :
    reference? b s = some text ↔ b.resolve s.module s.name = some text ∧ text ≠ "" := by
  simp [reference?, Option.filter_eq_some_iff]

theorem mem_reusedTexts {b : Scope} {specifiers : List Specifier} {s : Specifier} {text : String} :
    (s, text) ∈ reusedTexts b specifiers ↔ s ∈ specifiers ∧ reference? b s = some text := by
  simp only [reusedTexts, List.mem_filterMap, Option.map_eq_some_iff, Prod.mk.injEq]
  constructor
  · rintro ⟨s', hs, text', ht, rfl, rfl⟩
    exact ⟨hs, ht⟩
  · rintro ⟨hs, ht⟩
    exact ⟨s, hs, text, ht, rfl, rfl⟩

theorem mem_missingSpecifiers {b : Scope} {specifiers : List Specifier} {s : Specifier} :
    s ∈ missingSpecifiers b specifiers ↔ s ∈ specifiers ∧ reference? b s = none := by
  simp [missingSpecifiers]

section Texts

variable {style : ImportStyle} {b : Scope} {specifiers missing : List Specifier} {s : Specifier}

theorem exists_injectedText (style : ImportStyle) (b : Scope) (h : s ∈ missing) :
    ∃ text, (s, text) ∈ injectedTexts style b missing := by
  cases style with
  | named =>
    rw [← map_fst_named b.boundNames missing] at h
    obtain ⟨p, hp, rfl⟩ := List.mem_map.mp h
    exact ⟨_, List.mem_map_of_mem hp⟩
  | qualified => exact ⟨_, List.mem_map_of_mem h⟩

theorem mem_of_injectedText {text : String} (h : (s, text) ∈ injectedTexts style b missing) :
    s ∈ missing := by
  cases style with
  | named =>
    obtain ⟨p, hp, he⟩ := List.mem_map.mp h
    rw [← map_fst_named b.boundNames missing]
    exact List.mem_map.mpr ⟨p, hp, congrArg Prod.fst he⟩
  | qualified =>
    obtain ⟨s', hs, he⟩ := List.mem_map.mp h
    simp only [qualifiedText, Prod.mk.injEq] at he
    exact he.1 ▸ hs

theorem named_unique {taken : List String} (hn : missing.Nodup) {a a' : Option String}
    (h : (s, a) ∈ named taken missing) (h' : (s, a') ∈ named taken missing) : a = a' := by
  rw [← map_fst_named taken missing] at hn
  have hh := List.inj_on_of_nodup_map hn h h' rfl
  exact congrArg Prod.snd hh

theorem injectedText_unique (hn : missing.Nodup) {text text' : String}
    (h : (s, text) ∈ injectedTexts style b missing)
    (h' : (s, text') ∈ injectedTexts style b missing) : text = text' := by
  cases style with
  | named =>
    obtain ⟨⟨t, a⟩, hp, he⟩ := List.mem_map.mp h
    obtain ⟨⟨t', a'⟩, hp', he'⟩ := List.mem_map.mp h'
    simp only [namedText, Prod.mk.injEq] at he he'
    obtain ⟨rfl, rfl⟩ := he
    obtain ⟨rfl, rfl⟩ := he'
    rw [named_unique hn hp hp']
  | qualified =>
    obtain ⟨t, -, he⟩ := List.mem_map.mp h
    obtain ⟨t', -, he'⟩ := List.mem_map.mp h'
    simp only [qualifiedText, Prod.mk.injEq] at he he'
    obtain ⟨rfl, rfl⟩ := he
    obtain ⟨rfl, rfl⟩ := he'
    rfl

theorem exists_suppliedText (style : ImportStyle) (b : Scope) (h : s ∈ specifiers) :
    ∃ text, (s, text) ∈ suppliedTexts style b specifiers := by
  cases hr : reference? b s with
  | some text => exact ⟨text, List.mem_append_left _ (mem_reusedTexts.mpr ⟨h, hr⟩)⟩
  | none =>
    obtain ⟨text, ht⟩ := exists_injectedText style b
      (mem_missingSpecifiers.mpr ⟨h, hr⟩)
    exact ⟨text, List.mem_append_right _ ht⟩

theorem mem_of_suppliedText {text : String} (h : (s, text) ∈ suppliedTexts style b specifiers) :
    s ∈ specifiers := by
  rcases List.mem_append.mp h with h | h
  · exact (mem_reusedTexts.mp h).1
  · exact (mem_missingSpecifiers.mp (mem_of_injectedText h)).1

theorem suppliedText_unique (hn : specifiers.Nodup) {text text' : String}
    (h : (s, text) ∈ suppliedTexts style b specifiers)
    (h' : (s, text') ∈ suppliedTexts style b specifiers) : text = text' := by
  have apart {t t' : String} (hr : (s, t) ∈ reusedTexts b specifiers)
      (hi : (s, t') ∈ injectedTexts style b (missingSpecifiers b specifiers)) : False := by
    have hs := (mem_reusedTexts.mp hr).2
    rw [(mem_missingSpecifiers.mp (mem_of_injectedText hi)).2] at hs
    exact absurd hs (by simp)
  rcases List.mem_append.mp h with h | h <;> rcases List.mem_append.mp h' with h' | h'
  · have ht := (mem_reusedTexts.mp h).2
    rw [(mem_reusedTexts.mp h').2] at ht
    exact (Option.some.inj ht).symm
  · exact (apart h h').elim
  · exact (apart h' h).elim
  · exact injectedText_unique (hn.filter _) h h'

end Texts

theorem append_colon_inj {a b c d : List Char} (ha : ':' ∉ a) (hb : ':' ∉ b)
    (h : a ++ ':' :: c = b ++ ':' :: d) : a = b ∧ c = d := by
  induction a generalizing b with
  | nil =>
    cases b with
    | nil => simpa using h
    | cons y b =>
      simp only [List.nil_append, List.cons_append, List.cons.injEq] at h
      exact absurd (h.1 ▸ List.mem_cons_self) hb
  | cons x a ih =>
    cases b with
    | nil =>
      simp only [List.nil_append, List.cons_append, List.cons.injEq] at h
      exact absurd (h.1 ▸ List.mem_cons_self) ha
    | cons y b =>
      simp only [List.cons_append, List.cons.injEq] at h
      have hh := ih (fun hm => ha (List.mem_cons_of_mem x hm))
        (fun hm => hb (List.mem_cons_of_mem y hm)) h.2
      exact ⟨by rw [h.1, hh.1], hh.2⟩

theorem Specifier.key_inj {s t : Specifier} (hs : IsDotted s.module) (ht : IsDotted t.module)
    (h : s.key = t.key) : s = t := by
  have hk := congrArg String.toList h
  simp only [Specifier.key, String.toList_append, List.append_assoc] at hk
  obtain ⟨hm, hn⟩ := append_colon_inj hs.colon_not_mem ht.colon_not_mem hk
  cases s
  cases t
  simp only [Specifier.mk.injEq]
  exact ⟨String.toList_inj.mp hm, String.toList_inj.mp hn⟩

theorem isDotted_of_resolveIn {facts : List Fact} (hf : ∀ f ∈ facts, f.WellNamed)
    {module name text : String} (h : resolveIn facts module name = some text) : IsDotted module := by
  unfold resolveIn at h
  rcases Option.or_eq_some_iff.mp h with h | ⟨-, h⟩
  · rcases Option.or_eq_some_iff.mp h with h | ⟨-, h⟩
    · obtain ⟨f, hm, ht⟩ := List.exists_of_findSome?_eq_some h
      exact ((hf f hm).of_memberText ht).1
    · obtain ⟨t, ht, -⟩ := Option.map_eq_some_iff.mp h
      obtain ⟨f, hm, ht⟩ := List.exists_of_findSome?_eq_some ht
      exact ((hf f hm).of_moduleText ht).1
  · split at h
    · rename_i hm
      exact hf _ hm
    · simp at h

theorem isDotted_of_injection {style : ImportStyle} {b : Scope} {missing : List Specifier}
    {statements : List Stmt} (h : Injection style b missing statements) {s : Specifier}
    (hs : s ∈ missing) : IsDotted s.module := by
  cases style with
  | named =>
    rw [← map_fst_named b.boundNames missing] at hs
    obtain ⟨p, hp, rfl⟩ := List.mem_map.mp hs
    exact (h.wellNamed (memberFact p) (List.mem_map_of_mem hp)).1
  | qualified => exact (h.wellNamed _ (List.mem_map_of_mem hs)).1

theorem lookup_supplied {style : ImportStyle} {specifiers : List Specifier} {m : Module}
    {supplied : Supplied} (hm : WellNamed m) (hn : specifiers.Nodup)
    (h : supply style specifiers m = .ok supplied) {s : Specifier} {text : String}
    (hs : (s, text) ∈ suppliedTexts style (scanScope m) specifiers) :
    supplied.references.lookup s.key = some text := by
  obtain ⟨hr, statements, hi, -⟩ := supply_eq_ok h
  have hd {t : Specifier} (ht : t ∈ specifiers) : IsDotted t.module := by
    cases hres : reference? (scanScope m) t with
    | some text =>
      have := (reference?_eq_some.mp hres).1
      rw [resolve_scanScope] at this
      exact isDotted_of_resolveIn hm this
    | none => exact isDotted_of_injection hi (mem_missingSpecifiers.mpr ⟨ht, hres⟩)
  rw [hr]
  apply lookup_record_of_mem _ hs
  rintro ⟨t, u⟩ ht ⟨t', u'⟩ ht' hk
  obtain rfl := Specifier.key_inj (hd (mem_of_suppliedText ht)) (hd (mem_of_suppliedText ht')) hk
  exact suppliedText_unique hn ht ht'

theorem isDotted_of_resolved {facts : List Fact} (hf : ∀ f ∈ facts, f.WellNamed)
    {module name text : String} (hn : Text.isIdentifier name = true)
    (h : resolveIn facts module name = some text) : IsDotted text := by
  unfold resolveIn at h
  rcases Option.or_eq_some_iff.mp h with h | ⟨-, h⟩
  · rcases Option.or_eq_some_iff.mp h with h | ⟨-, h⟩
    · obtain ⟨f, hm, ht⟩ := List.exists_of_findSome?_eq_some h
      exact .of_identifier ((hf f hm).of_memberText ht).2.2
    · obtain ⟨path, hpath, rfl⟩ := Option.map_eq_some_iff.mp h
      obtain ⟨f, hm, ht⟩ := List.exists_of_findSome?_eq_some hpath
      exact ((hf f hm).of_moduleText ht).2.member hn
  · split at h
    · obtain rfl := Option.some.inj h
      exact .of_identifier hn
    · simp at h

theorem isDotted_of_injectedText {style : ImportStyle} {b : Scope} {missing : List Specifier}
    {statements : List Stmt} (h : Injection style b missing statements) {s : Specifier}
    {text : String} (hn : Text.isIdentifier s.name = true)
    (ht : (s, text) ∈ injectedTexts style b missing) : IsDotted text := by
  cases style with
  | named =>
    obtain ⟨⟨t, a⟩, hp, he⟩ := List.mem_map.mp ht
    obtain ⟨rfl, rfl⟩ := Prod.mk.inj he
    have hw := h.wellNamed _ (List.mem_map_of_mem hp)
    cases a with
    | none => exact .of_identifier hn
    | some a => exact .of_identifier (hw.2.2 a rfl)
  | qualified =>
    obtain ⟨t, hm, he⟩ := List.mem_map.mp ht
    obtain ⟨rfl, rfl⟩ := Prod.mk.inj he
    have hw : (moduleFact b t.module).WellNamed := h.wellNamed _ (List.mem_map_of_mem hm)
    refine IsDotted.member ?_ hn
    unfold modulePrefix
    cases ha : moduleAlias b t.module with
    | none => exact hw.1
    | some a => exact .of_identifier (hw.2 a ha)

/-- A name is supplied under a dotted name. -/
theorem isDotted_of_suppliedText {style : ImportStyle} {specifiers : List Specifier} {m : Module}
    {supplied : Supplied} (hm : WellNamed m) (h : supply style specifiers m = .ok supplied)
    {s : Specifier} {text : String} (hn : Text.isIdentifier s.name = true)
    (hs : (s, text) ∈ suppliedTexts style (scanScope m) specifiers) : IsDotted text := by
  obtain ⟨-, statements, hi, -⟩ := supply_eq_ok h
  rcases List.mem_append.mp hs with hs | hs
  · have hr := (reference?_eq_some.mp (mem_reusedTexts.mp hs).2).1
    rw [resolve_scanScope] at hr
    exact isDotted_of_resolved hm hn hr
  · exact isDotted_of_injectedText hi hn hs

end Hydration.Imports
