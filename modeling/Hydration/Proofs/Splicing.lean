import Hydration.Proofs.Resupply

/-! What a supply does to a module. It splices one block of lines in behind the header, with a line for
each module that misses a name, gives a text for every name and a warning for every alias. -/

namespace Hydration.Imports

open Syntax

namespace Fact

/-- The alias under which a fact imports. -/
def alias? : Fact → Option String
  | .imports _ asName => asName
  | .member _ _ asName => asName
  | _ => none

/-- What a fact imports by name. -/
def specifier? : Fact → Option Specifier
  | .member module name _ => some ⟨module, name⟩
  | _ => none

end Fact

/-- A line imports the missing names of a module in the order of the request, or the module itself,
under no other aliases than reserved ones. -/
def ImportsMissing (style : ImportStyle) (missing : List Specifier) (module : String)
    (stmt : Stmt) : Prop :=
  match style with
  | .named => ∃ entries : List (Specifier × Option String),
      ImportsFrom module (entries.map itemOf) stmt ∧
      entries.map Prod.fst = missing.filter (fun s => s.module == module) ∧
      ∀ p ∈ entries, ∀ a ∈ p.2, a = aliasPrefix ++ p.1.name
  | .qualified => ∃ asName, ImportsModule module asName stmt ∧
      ∀ a ∈ asName, a = aliasPrefix ++ underscored module

section Lines

variable {style : ImportStyle} {b : Scope} {missing : List Specifier} {statements : List Stmt}

theorem importsMissing_of_newLines (h : NewLines style b missing statements) :
    List.Forall₂ (ImportsMissing style missing) (modulesOf missing) statements := by
  cases style with
  | named =>
    refine List.Forall₂.imp (fun module stmt hs => ⟨_, hs, ?_, ?_⟩) h
    · conv_rhs => rw [← map_fst_named b.boundNames missing, List.filter_map]
      rfl
    · intro p hp a ha
      rcases named_alias (List.mem_filter.mp hp).1 with he | ⟨he, -⟩
      · exact Option.some.inj (ha.symm.trans he)
      · rw [he] at ha
        cases ha
  | qualified =>
    refine List.Forall₂.imp (fun module stmt hs => ⟨_, hs, ?_⟩) h
    intro a ha
    exact (Option.some.inj (Option.ite_none_right_eq_some.mp ha).2).symm

theorem length_newWarnings (h : NewLines style b missing statements) :
    (newWarnings style b missing).length =
      ((factsOfBody statements).filterMap Fact.alias?).length := by
  cases style with
  | named =>
    rw [((facts_of_named h).filterMap Fact.alias?).length_eq, List.filterMap_map, newWarnings,
      List.length_filterMap_eq_countP, List.length_filterMap_eq_countP]
    refine List.countP_congr fun p _ => ?_
    simp [namedWarning, memberFact, Fact.alias?]
  | qualified =>
    rw [facts_of_qualified h, List.filterMap_map, newWarnings, List.length_filterMap_eq_countP,
      List.length_filterMap_eq_countP]
    refine List.countP_congr fun module _ => ?_
    simp [moduleWarning, moduleFact, Fact.alias?]

theorem specifiers_of_named (h : NewLines .named b missing statements) :
    ((factsOfBody statements).filterMap Fact.specifier?).Perm missing := by
  have hp := (facts_of_named h).filterMap Fact.specifier?
  have hmap : ((named b.boundNames missing).map memberFact).filterMap Fact.specifier? = missing := by
    rw [List.filterMap_map, show Fact.specifier? ∘ memberFact = some ∘ Prod.fst from rfl,
      List.filterMap_eq_map, map_fst_named]
  rwa [hmap] at hp

theorem eq_nil_iff_of_newLines (h : NewLines style b missing statements) :
    statements = [] ↔ missing = [] := by
  have hl := (importsMissing_of_newLines h).length_eq
  rw [← List.length_eq_zero_iff, ← hl, List.length_eq_zero_iff]
  constructor
  · intro hnil
    refine List.eq_nil_iff_forall_not_mem.mpr fun s hs => ?_
    exact List.eq_nil_iff_forall_not_mem.mp hnil s.module (mem_modulesOf.mpr ⟨s, hs, rfl⟩)
  · rintro rfl
    rfl

end Lines

/-- The lines that a supply adds, beside the texts and the warnings that it gives. -/
structure Spliced (style : ImportStyle) (specifiers missing : List Specifier) (m : Module)
    (statements : List Stmt) (supplied : Supplied) : Prop where
  module : supplied.module = injected m statements
  lines : List.Forall₂ (ImportsMissing style missing) (modulesOf missing) statements
  listed : style = .named →
    ((factsOfBody statements).filterMap Fact.specifier?).Perm missing ∧ missing.Nodup
  references : ∀ s ∈ specifiers, (supplied.references.lookup s.key).isSome = true
  warnings : supplied.warnings.length = ((factsOfBody statements).filterMap Fact.alias?).length

/-- All names resolve, but one of them to the empty text. -/
def ResolvesBlank (specifiers : List Specifier) (m : Module) : Prop :=
  (∀ s ∈ specifiers, ((scanScope m).resolve s.module s.name).isSome = true) ∧
    ∃ s ∈ specifiers, (scanScope m).resolve s.module s.name = some ""

section Supply

variable {style : ImportStyle} {specifiers : List Specifier} {m : Module} {supplied : Supplied}

theorem injected_eq_self_iff {statements : List Stmt} :
    injected m statements = m ↔ statements = [] := by
  have hself : injected m [] = m := by simp [injected, insertAt]
  constructor
  · intro h
    exact insertAt_left_cancel (congrArg Module.body (h.trans hself.symm))
  · rintro rfl
    exact hself

theorem isSome_reference?_iff {b : Scope} {s : Specifier} :
    (reference? b s).isSome = true ↔
      (b.resolve s.module s.name).isSome = true ∧ b.resolve s.module s.name ≠ some "" := by
  simp only [Option.isSome_iff_exists, reference?_eq_some]
  constructor
  · rintro ⟨text, ht, hne⟩
    exact ⟨⟨text, ht⟩, by simpa [ht] using hne⟩
  · rintro ⟨⟨text, ht⟩, hne⟩
    exact ⟨text, ht, by simpa [ht] using hne⟩

theorem missingSpecifiers_eq_nil_iff {b : Scope} :
    missingSpecifiers b specifiers = [] ↔ ∀ s ∈ specifiers, (reference? b s).isSome = true := by
  simp [missingSpecifiers, Option.isSome_iff_ne_none]

theorem references_all_iff : (∀ s ∈ specifiers, (reference? (scanScope m) s).isSome = true) ↔
    (∀ s ∈ specifiers, ((scanScope m).resolve s.module s.name).isSome = true) ∧
      ¬ ResolvesBlank specifiers m := by
  simp only [isSome_reference?_iff, ResolvesBlank]
  constructor
  · intro h
    refine ⟨fun s hs => (h s hs).1, ?_⟩
    rintro ⟨-, s, hs, hblank⟩
    exact (h s hs).2 hblank
  · rintro ⟨hsome, hno⟩ s hs
    exact ⟨hsome s hs, fun hblank => hno ⟨hsome, s, hs, hblank⟩⟩

/-- Only an empty name resolves to the empty text, by a star. -/
theorem star_of_resolves_blank (hm : WellNamed m) {module name : String}
    (h : (scanScope m).resolve module name = some "") :
    name = "" ∧ module ∈ (scanScope m).starModules := by
  rw [resolve_scanScope] at h
  rcases Option.or_eq_some_iff.mp h with h | ⟨-, h⟩
  · rcases Option.or_eq_some_iff.mp h with h | ⟨-, h⟩
    · obtain ⟨f, hf, ht⟩ := List.exists_of_findSome?_eq_some h
      exact absurd rfl (identifier_ne_empty ((hm f hf).of_memberText ht).2.2)
    · obtain ⟨text, -, ht⟩ := Option.map_eq_some_iff.mp h
      have hl := congrArg String.length ht
      simp at hl
  · obtain ⟨hstar, ht⟩ := Option.ite_none_right_eq_some.mp h
    exact ⟨Option.some.inj ht, mem_starModules_scanScope.mpr hstar⟩

end Supply

/-- A supply splices one contiguous block in behind the header and changes nothing else. The block has
one line for each module with a missing name, and every alias in it is warned of; every name of the
request gets a text. The block is empty exactly if each name resolves to a text that is not empty, so
that all names resolve while something is added exactly if one of them resolves to the empty text;
only an empty name does, by a star. -/
theorem supply_splices {style : ImportStyle} {specifiers : List Specifier} {m : Module}
    {supplied : Supplied} (hn : specifiers.Nodup) (h : supply style specifiers m = .ok supplied) :
    ∃ statements,
      Spliced style specifiers (missingSpecifiers (scanScope m) specifiers) m statements supplied ∧
      (supplied.module = m ↔ statements = []) ∧
      (statements = [] ↔ ∀ s ∈ specifiers, (reference? (scanScope m) s).isSome = true) ∧
      ((statements = [] ↔
          ∀ s ∈ specifiers, ((scanScope m).resolve s.module s.name).isSome = true) ↔
        ¬ ResolvesBlank specifiers m) ∧
      (Admissible m → ∀ s ∈ specifiers, (scanScope m).resolve s.module s.name = some "" →
        s.name = "" ∧ s.module ∈ (scanScope m).starModules) := by
  obtain ⟨statements, hmodule, hlines, -, hreferences, hwarnings⟩ := newLines_of_supply h
  have hnil : statements = [] ↔ ∀ s ∈ specifiers, (reference? (scanScope m) s).isSome = true :=
    (eq_nil_iff_of_newLines hlines).trans missingSpecifiers_eq_nil_iff
  refine ⟨statements, ?_, ?_, hnil, ?_, ?_⟩
  · constructor
    · exact hmodule
    · exact importsMissing_of_newLines hlines
    · rintro rfl
      exact ⟨specifiers_of_named hlines, hn.filter _⟩
    · intro s hs
      obtain ⟨text, ht⟩ := exists_suppliedText style (scanScope m) hs
      rw [hreferences]
      exact isSome_lookup_record ⟨_, ht, rfl⟩
    · rw [hwarnings]
      exact length_newWarnings hlines
  · rw [hmodule]
    exact injected_eq_self_iff
  · rw [hnil, references_all_iff]
    constructor
    · intro hiff hblank
      exact (hiff.mpr hblank.1).2 hblank
    · intro hno
      exact and_iff_left hno
  · intro hm s _ hblank
    exact star_of_resolves_blank hm.wellNamed hblank

/-- The module `x = 1`. -/
def assignedModule : Module :=
  { body := [.line { entries := [⟨.assign [⟨.name "x", {}⟩] (.number "1"), none⟩] }] }

/-- Names of two modules, of which one is taken by `x = 1`. -/
def mixedSpecifiers : List Specifier := [⟨"m", "x"⟩, ⟨"n.o", "y"⟩, ⟨"m", "z"⟩]

theorem exists_supplied_mixed : ∃ supplied,
    supply .named mixedSpecifiers assignedModule = .ok supplied ∧ supplied.warnings.length = 1 := by
  have hok : (supply .named mixedSpecifiers assignedModule).toOption.map
      (fun supplied => supplied.warnings.length) = some 1 := by decide +kernel
  obtain ⟨supplied, hs, hlength⟩ := Option.map_eq_some_iff.mp hok
  exact ⟨supplied, toOption_eq_some.mp hs, hlength⟩

/-- Two modules are imported from by one line each, and the one alias is warned of. A star gives an
empty name as an empty text, which counts as missing: the module is imported once more. -/
theorem supply_splices_of_star :
    (∃ supplied first second, supply .named mixedSpecifiers assignedModule = .ok supplied ∧
      supplied.module = injected assignedModule [first, second] ∧
      ImportsMissing .named mixedSpecifiers "m" first ∧
      ImportsMissing .named mixedSpecifiers "n.o" second ∧
      supplied.warnings.length = 1 ∧
      ((factsOfBody [first, second]).filterMap Fact.alias?).length = 1) ∧
    ∃ supplied, supply .qualified [⟨"m", ""⟩] starModule = .ok supplied ∧
      ResolvesBlank [⟨"m", ""⟩] starModule ∧
      supplied.module ≠ starModule := by
  constructor
  · obtain ⟨supplied, hs, hwarnings⟩ := exists_supplied_mixed
    obtain ⟨statements, hspliced, -⟩ := supply_splices (by decide) hs
    have hmissing : missingSpecifiers (scanScope assignedModule) mixedSpecifiers = mixedSpecifiers := by
      decide
    have hmodules : modulesOf mixedSpecifiers = ["m", "n.o"] := by decide
    have hlines := hspliced.lines
    rw [hmissing, hmodules] at hlines
    obtain ⟨first, rest, hfirst, hrest, rfl⟩ := List.forall₂_cons_left_iff.mp hlines
    obtain ⟨second, none, hsecond, hnone, rfl⟩ := List.forall₂_cons_left_iff.mp hrest
    obtain rfl := List.forall₂_nil_left_iff.mp hnone
    exact ⟨supplied, first, second, hs, hspliced.module, hfirst, hsecond, hwarnings,
      hspliced.warnings.symm.trans hwarnings⟩
  · have hb : ResolvesBlank [⟨"m", ""⟩] starModule := by
      refine ⟨?_, ⟨"m", ""⟩, by simp, ?_⟩
      · intro s hs
        obtain rfl := List.mem_singleton.mp hs
        decide
      · decide
    refine ⟨_, rfl, hb, ?_⟩
    obtain ⟨statements, -, hself, -, hiff, -⟩ :=
      supply_splices (by decide) (rfl : supply .qualified [⟨"m", ""⟩] starModule = .ok _)
    intro hmodule
    exact hiff.mp (iff_of_true (hself.mp hmodule) hb.1) hb

end Hydration.Imports
