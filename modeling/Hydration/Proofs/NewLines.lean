import Hydration.Proofs.Grouping
import Hydration.Proofs.Injection

/-! The lines that an injection adds. There is one for each module with a missing name, in the order in
which the modules are first asked for, and the names in a line keep the order of the request. -/

namespace Hydration.Imports

open Syntax

def modulesOf (specifiers : List Specifier) : List String :=
  (specifiers.map Specifier.module).eraseDups

theorem nodup_modulesOf (specifiers : List Specifier) : (modulesOf specifiers).Nodup :=
  Grouping.nodup_eraseDups _

theorem mem_modulesOf {specifiers : List Specifier} {module : String} :
    module ∈ modulesOf specifiers ↔ ∃ s ∈ specifiers, s.module = module := by
  simp [modulesOf]

theorem modulesOf_concat (specifiers : List Specifier) (s : Specifier) :
    modulesOf (specifiers ++ [s]) =
      if s.module ∈ modulesOf specifiers then modulesOf specifiers
      else modulesOf specifiers ++ [s.module] := by
  simp only [modulesOf, List.map_append, List.map_cons, List.map_nil, Grouping.eraseDups_concat,
    List.mem_eraseDups]

def groupsOf (entries : List (Specifier × Option String)) : List (String × List ImportName) :=
  (modulesOf (entries.map Prod.fst)).map fun module =>
    (module, (entries.filter fun p => p.1.module == module).map itemOf)

theorem addToGroup_eq (groups : List (String × List ImportName)) (module : String)
    (item : ImportName) : addToGroup groups module item = Grouping.add groups module item := by
  induction groups with
  | nil => rfl
  | cons group groups ih =>
    obtain ⟨m, items⟩ := group
    simp only [addToGroup, Grouping.add, ih, beq_iff_eq]

theorem foldl_addItem (entries : List (Specifier × Option String)) :
    entries.foldl addItem [] = groupsOf entries := by
  have hadd : addItem = fun groups p => Grouping.add groups p.1.module (itemOf p) := by
    funext groups p
    rw [addItem, addToGroup_eq]
  have hgroups : groupsOf entries = Grouping.grouped (fun p => p.1.module) itemOf entries := by
    simp only [groupsOf, Grouping.grouped, Grouping.itemsAt, modulesOf, List.map_map]
    rfl
  rw [hadd, hgroups, Grouping.foldl_add]

def newItems (b : Scope) (missing : List Specifier) (module : String) : List ImportName :=
  ((named b.boundNames missing).filter fun p => p.1.module == module).map itemOf

/-- One line for each module with a missing name. -/
def NewLines (style : ImportStyle) (b : Scope) (missing : List Specifier)
    (statements : List Stmt) : Prop :=
  match style with
  | .named => List.Forall₂ (fun module => ImportsFrom module (newItems b missing module))
      (modulesOf missing) statements
  | .qualified => List.Forall₂ (fun module => ImportsModule module (moduleAlias b module))
      (modulesOf missing) statements

def newWarnings (style : ImportStyle) (b : Scope) (missing : List Specifier) : List String :=
  match style with
  | .named => (named b.boundNames missing).filterMap namedWarning
  | .qualified => (modulesOf missing).filterMap (moduleWarning b)

/-- The modules imported so far, with a line for each of them. -/
structure QualifiedState.Lists (b : Scope) (modules : List String) (state : QualifiedState) :
    Prop where
  names : state.names = modules.map fun module => (module, modulePrefix b module)
  lines : List.Forall₂ (fun module => ImportsModule module (moduleAlias b module)) modules
    state.statements
  warnings : state.warnings = modules.filterMap (moduleWarning b)
  wellNamed : ∀ module ∈ modules, (moduleFact b module).WellNamed

theorem QualifiedState.Lists.empty (b : Scope) (references : List (String × String)) :
    QualifiedState.Lists b [] { references } :=
  ⟨rfl, .nil, rfl, nofun⟩

theorem lookup_map_prefix (b : Scope) (modules : List String) (module : String) :
    (modules.map fun m => (m, modulePrefix b m)).lookup module =
      if module ∈ modules then some (modulePrefix b module) else none := by
  induction modules with
  | nil => rfl
  | cons m modules ih =>
    by_cases h : module = m
    · simp [h]
    · have hne : (module == m) = false := by simpa using h
      simp [List.lookup_cons, hne, h, ih]

theorem addModule_lists {b : Scope} {modules : List String} {state next : QualifiedState}
    {module : String} (hs : state.Lists b modules) (h : addModule b state module = .ok next) :
    next.Lists b (modules ++ [module]) ∧ next.references = state.references := by
  obtain ⟨hw, stmt, hstmt, rfl⟩ := addModule_eq_ok h
  refine ⟨⟨?_, ?_, ?_, ?_⟩, rfl⟩
  · simp [hs.names]
  · exact List.rel_append hs.lines (.cons hstmt .nil)
  · simp only [hs.warnings, List.filterMap_append, List.filterMap_cons, List.filterMap_nil]
    cases moduleWarning b module <;> rfl
  · intro m hm
    rcases List.mem_append.mp hm with hm | hm
    · exact hs.wellNamed m hm
    · exact List.mem_singleton.mp hm ▸ hw

theorem addQualified_lists {b : Scope} {modules : List String} {state next : QualifiedState}
    {s : Specifier} (hs : state.Lists b modules) (h : addQualified b state s = .ok next) :
    next.Lists b (if s.module ∈ modules then modules else modules ++ [s.module]) ∧
      next.references =
        putReference state.references s.key (modulePrefix b s.module ++ "." ++ s.name) := by
  have hknown : (state.names.lookup s.module).isSome = true ↔ s.module ∈ modules := by
    rw [hs.names, lookup_map_prefix]
    by_cases hm : s.module ∈ modules <;> simp [hm]
  have hprefix {mid : QualifiedState} {others : List String} (hmid : mid.Lists b others)
      (hm : s.module ∈ others) :
      (mid.names.lookup s.module).getD s.module = modulePrefix b s.module := by
    rw [hmid.names, lookup_map_prefix, if_pos hm, Option.getD_some]
  unfold addQualified at h
  by_cases hm : s.module ∈ modules
  · rw [if_pos (hknown.mpr hm)] at h
    obtain ⟨mid, hmid, hn⟩ := bind_eq_ok.mp h
    obtain rfl := Except.ok.inj hmid
    obtain rfl := Except.ok.inj hn
    rw [if_pos hm, hprefix hs hm]
    exact ⟨⟨hs.names, hs.lines, hs.warnings, hs.wellNamed⟩, rfl⟩
  · rw [if_neg fun hk => hm (hknown.mp hk)] at h
    obtain ⟨mid, hmid, hn⟩ := bind_eq_ok.mp h
    obtain ⟨hlists, hreferences⟩ := addModule_lists hs hmid
    obtain rfl := Except.ok.inj hn
    rw [if_neg hm, hprefix hlists (List.mem_append_right _ List.mem_cons_self), hreferences]
    exact ⟨⟨hlists.names, hlists.lines, hlists.warnings, hlists.wellNamed⟩, rfl⟩

theorem foldlM_addQualified {b : Scope} {missing seen : List Specifier}
    {state final : QualifiedState} (hs : state.Lists b (modulesOf seen))
    (h : missing.foldlM (addQualified b) state = .ok final) :
    final.Lists b (modulesOf (seen ++ missing)) ∧
      final.references = record state.references (missing.map (qualifiedText b)) := by
  induction missing generalizing seen state with
  | nil =>
    obtain rfl := Except.ok.inj h
    exact ⟨by simpa using hs, rfl⟩
  | cons s missing ih =>
    rw [List.foldlM_cons] at h
    obtain ⟨next, hnext, hr⟩ := bind_eq_ok.mp h
    obtain ⟨hlists, hreferences⟩ := addQualified_lists hs hnext
    rw [← modulesOf_concat] at hlists
    obtain ⟨hfinal, htexts⟩ := ih hlists hr
    rw [hreferences] at htexts
    exact ⟨by simpa using hfinal, htexts⟩

theorem factsOfBody_importsModule {b : Scope} {modules : List String} {statements : List Stmt}
    (h : List.Forall₂ (fun module => ImportsModule module (moduleAlias b module)) modules
      statements) : factsOfBody statements = modules.map (moduleFact b) := by
  induction h with
  | nil => rfl
  | cons hs _ ih =>
    rw [factsOfBody, hs.facts, ih]
    rfl

section Lines

variable {b : Scope} {missing : List Specifier} {statements : List Stmt}

theorem facts_of_named (h : NewLines .named b missing statements) :
    (factsOfBody statements).Perm ((named b.boundNames missing).map memberFact) := by
  have hgroups : List.Forall₂ (fun group => ImportsFrom group.1 group.2)
      (groupsOf (named b.boundNames missing)) statements := by
    rw [groupsOf, map_fst_named, List.forall₂_map_left_iff]
    exact h
  rw [factsOfBody_importsFrom hgroups, ← foldl_addItem]
  exact groupFacts_foldl [] _

theorem facts_of_qualified (h : NewLines .qualified b missing statements) :
    factsOfBody statements = (modulesOf missing).map (moduleFact b) :=
  factsOfBody_importsModule h

theorem wellNamed_of_named (h : NewLines .named b missing statements)
    (hi : ∀ p ∈ named b.boundNames missing,
      Text.isIdentifier p.1.name = true ∧ ∀ a ∈ p.2, Text.isIdentifier a = true)
    {f : Fact} (hf : f ∈ injectedFacts .named b missing) : f.WellNamed := by
  obtain ⟨p, hp, rfl⟩ := List.mem_map.mp hf
  have hs : p.1 ∈ missing := map_fst_named b.boundNames missing ▸ List.mem_map_of_mem hp
  obtain ⟨stmt, -, hline⟩ := forall₂_exists (List.Forall₂.flip h) (mem_modulesOf.mpr ⟨_, hs, rfl⟩)
  exact ⟨ImportsFrom.isDotted hline, hi p hp⟩

end Lines

/-- New lines that import the missing names and say nothing else. -/
structure Injection (style : ImportStyle) (b : Scope) (missing : List Specifier)
    (statements : List Stmt) : Prop where
  facts : ∀ f, f ∈ factsOfBody statements ↔ f ∈ injectedFacts style b missing
  wellNamed : ∀ f ∈ injectedFacts style b missing, f.WellNamed
  lines : ∀ stmt ∈ statements, IsImportLine stmt

/-- An injection adds one line for each module, records a text for each missing name and warns of each
alias. -/
theorem newLines_of_injections {style : ImportStyle} {b : Scope}
    {references references' : List (String × String)} {missing : List Specifier}
    {statements : List Stmt} {warnings : List String}
    (h : injections style b references missing = .ok (statements, references', warnings)) :
    NewLines style b missing statements ∧
      (∀ f ∈ injectedFacts style b missing, f.WellNamed) ∧
      references' = record references (injectedTexts style b missing) ∧
      warnings = newWarnings style b missing := by
  cases style with
  | named =>
    simp only [injections, bind_eq_ok] at h
    obtain ⟨final, hfold, lines, hm, hs⟩ := h
    obtain ⟨rfl, rfl, rfl⟩ := by simpa using Except.ok.inj hs
    obtain ⟨hg, ht, hw, hi⟩ := foldlM_addNamed hfold
    have hlines : NewLines .named b missing lines := by
      have hall := (mapM_eq_ok.mp hm).imp fun _ _ => namedStatement_eq_ok
      rw [hg, foldl_addItem, groupsOf, map_fst_named, List.forall₂_map_left_iff] at hall
      exact hall
    exact ⟨hlines, fun _ => wellNamed_of_named hlines hi, ht, by simpa [newWarnings] using hw⟩
  | qualified =>
    simp only [injections, bind_eq_ok] at h
    obtain ⟨final, hfold, hs⟩ := h
    obtain ⟨rfl, rfl, rfl⟩ := by simpa using Except.ok.inj hs
    have hempty : QualifiedState.Lists b (modulesOf []) { references } := .empty b references
    obtain ⟨hlists, ht⟩ := foldlM_addQualified hempty hfold
    refine ⟨hlists.lines, ?_, ht, hlists.warnings⟩
    intro f hf
    obtain ⟨s, hs, rfl⟩ := List.mem_map.mp hf
    exact hlists.wellNamed _ (mem_modulesOf.mpr ⟨s, hs, rfl⟩)

theorem injection_of_newLines {style : ImportStyle} {b : Scope} {missing : List Specifier}
    {statements : List Stmt} (h : NewLines style b missing statements)
    (hw : ∀ f ∈ injectedFacts style b missing, f.WellNamed) :
    Injection style b missing statements := by
  cases style with
  | named =>
    refine ⟨fun f => (facts_of_named h).mem_iff, hw, ?_⟩
    intro stmt hs
    obtain ⟨module, -, hline⟩ := forall₂_exists h hs
    exact ImportsFrom.isImportLine hline
  | qualified =>
    refine ⟨fun f => ?_, hw, ?_⟩
    · rw [facts_of_qualified h]
      simp only [injectedFacts, List.mem_map, mem_modulesOf]
      constructor
      · rintro ⟨_, ⟨s, hs, rfl⟩, rfl⟩
        exact ⟨s, hs, rfl⟩
      · rintro ⟨s, hs, rfl⟩
        exact ⟨s.module, ⟨s, hs, rfl⟩, rfl⟩
    · intro stmt hs
      obtain ⟨module, -, hline⟩ := forall₂_exists h hs
      exact ImportsModule.isImportLine hline

end Hydration.Imports
