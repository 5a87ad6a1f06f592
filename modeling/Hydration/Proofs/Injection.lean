import Hydration.Proofs.Entries
import Hydration.Proofs.Facts

/-! What an injection adds to a module. The missing names, taken with the aliases that they get,
determine both the facts that the new statements state and the texts that are recorded. -/

namespace Hydration.Imports

open Syntax

def record (references : List (String × String)) (entries : List (Specifier × String)) :
    List (String × String) :=
  entries.foldl (fun references entry => putReference references entry.1.key entry.2) references

theorem putReference_eq (references : List (String × String)) (key text : String) :
    putReference references key text = Entries.put references key text := by
  induction references with
  | nil => rfl
  | cons entry references ih =>
    obtain ⟨k, t⟩ := entry
    simp only [putReference, Entries.put, ih, beq_iff_eq]

theorem lookup_putReference (references : List (String × String)) (key text other : String) :
    (putReference references key text).lookup other =
      if key = other then some text else references.lookup other := by
  rw [putReference_eq, Entries.lookup_put]
  simp only [eq_comm]

theorem lookup_record_of_not_mem (references : List (String × String))
    {entries : List (Specifier × String)} {key : String} (h : ∀ e ∈ entries, e.1.key ≠ key) :
    (record references entries).lookup key = references.lookup key := by
  induction entries generalizing references with
  | nil => rfl
  | cons e entries ih =>
    have hh := ih (putReference references e.1.key e.2) fun x hx => h x (List.mem_cons_of_mem e hx)
    rw [lookup_putReference, if_neg (h e List.mem_cons_self)] at hh
    exact hh

/-- When no two entries of one key differ, each entry can be looked up. -/
theorem lookup_record_of_mem {references : List (String × String)}
    {entries : List (Specifier × String)} {s : Specifier} {text : String}
    (h : ∀ e ∈ entries, ∀ e' ∈ entries, e.1.key = e'.1.key → e.2 = e'.2)
    (hs : (s, text) ∈ entries) : (record references entries).lookup s.key = some text := by
  induction entries generalizing references s text with
  | nil => simp at hs
  | cons e entries ih =>
    have hr : ∀ a ∈ entries, ∀ a' ∈ entries, a.1.key = a'.1.key → a.2 = a'.2 :=
      fun a ha a' ha' => h a (List.mem_cons_of_mem e ha) a' (List.mem_cons_of_mem e ha')
    by_cases hm : ∃ e' ∈ entries, e'.1.key = s.key
    · obtain ⟨e', he', hk⟩ := hm
      have ht : e'.2 = text := h _ (List.mem_cons_of_mem e he') _ hs hk
      rw [← hk, ← ht]
      exact ih hr he'
    · push Not at hm
      rcases List.mem_cons.mp hs with rfl | hs
      · have hh := lookup_record_of_not_mem (putReference references s.key text) hm
        rw [lookup_putReference, if_pos rfl] at hh
        exact hh
      · exact absurd rfl (hm _ hs)

theorem isSome_lookup_record {references : List (String × String)}
    {entries : List (Specifier × String)} {key : String} (h : ∃ e ∈ entries, e.1.key = key) :
    ((record references entries).lookup key).isSome = true := by
  induction entries generalizing references with
  | nil => simp at h
  | cons e entries ih =>
    by_cases hm : ∃ e' ∈ entries, e'.1.key = key
    · exact ih hm
    · have hk : e.1.key = key := ((List.exists_mem_cons_iff ..).mp h).resolve_right hm
      push Not at hm
      have hh := lookup_record_of_not_mem (putReference references e.1.key e.2) hm
      rw [lookup_putReference, if_pos hk] at hh
      exact Option.isSome_iff_exists.mpr ⟨e.2, hh⟩

/-- An import that is neither relative nor of everything. -/
def IsPlainImport : Small → Prop
  | .import_ .. => True
  | .importFrom _ [] (some _) _ _ (.names ..) => True
  | _ => False

def IsImportLine (stmt : Stmt) : Prop := ∃ small, IsPlainImport small ∧ stmt = plainLine small

theorem factsOfStmt_plainLine (small : Small) : factsOfStmt (plainLine small) = factsOfSmall small := by
  simp [plainLine, factsOfStmt, factsOfEntries]

/-- A line that imports names from a module. -/
def ImportsFrom (module : String) (items : List ImportName) (stmt : Stmt) : Prop :=
  ∃ path : Expr, path.IsDotted ∧ path.fullName = module ∧
    stmt = plainLine (.importFrom .space [] (some path) .space .space (.names none items))

/-- A line that imports a module, under its alias if it has one. -/
def ImportsModule (module : String) (asName : Option String) (stmt : Stmt) : Prop :=
  ∃ path : Expr, path.IsDotted ∧ path.fullName = module ∧
    stmt = plainLine (.import_ .space [{ name := path, asName := asName.map asAlias }])

section Lines

variable {module : String} {items : List ImportName} {asName : Option String} {stmt : Stmt}

theorem ImportsFrom.isImportLine (h : ImportsFrom module items stmt) : IsImportLine stmt := by
  obtain ⟨path, -, -, rfl⟩ := h
  exact ⟨.importFrom .space [] (some path) .space .space (.names none items), trivial, rfl⟩

theorem ImportsFrom.isDotted (h : ImportsFrom module items stmt) : IsDotted module := by
  obtain ⟨path, hd, rfl, -⟩ := h
  exact hd.fullName

theorem ImportsFrom.facts (h : ImportsFrom module items stmt) :
    factsOfStmt stmt =
      items.map fun item => .member module item.name.fullName (aliasOf item) := by
  obtain ⟨path, -, rfl, rfl⟩ := h
  rw [factsOfStmt_plainLine, factsOfSmall]

theorem ImportsModule.isImportLine (h : ImportsModule module asName stmt) : IsImportLine stmt := by
  obtain ⟨path, -, -, rfl⟩ := h
  exact ⟨.import_ .space [{ name := path, asName := asName.map asAlias }], trivial, rfl⟩

theorem ImportsModule.isDotted (h : ImportsModule module asName stmt) : IsDotted module := by
  obtain ⟨path, hd, rfl, -⟩ := h
  exact hd.fullName

theorem ImportsModule.facts (h : ImportsModule module asName stmt) :
    factsOfStmt stmt = [.imports module asName] := by
  obtain ⟨path, -, rfl, rfl⟩ := h
  cases asName <;> simp [factsOfStmt_plainLine, factsOfSmall, aliasOf, asAlias]

end Lines

def freeAlias (taken : List String) (name : String) : Option String :=
  if taken.contains name then some (aliasPrefix ++ name) else none

/-- Each name with the alias under which it is imported. -/
def named : List String → List Specifier → List (Specifier × Option String)
  | _, [] => []
  | taken, s :: rest =>
    (s, freeAlias taken s.name) ::
      named (taken ++ [(freeAlias taken s.name).getD s.name]) rest

def memberFact (p : Specifier × Option String) : Fact := .member p.1.module p.1.name p.2

def namedText (p : Specifier × Option String) : Specifier × String := (p.1, p.2.getD p.1.name)

def namedWarning (p : Specifier × Option String) : Option String :=
  p.2.map (renamedMessage p.1.name p.1.key)

def itemOf (p : Specifier × Option String) : ImportName :=
  { name := .name p.1.name, asName := p.2.map asAlias }

def addItem (groups : List (String × List ImportName)) (p : Specifier × Option String) :
    List (String × List ImportName) :=
  addToGroup groups p.1.module (itemOf p)

def groupFacts (groups : List (String × List ImportName)) : List Fact :=
  groups.flatMap fun group =>
    group.2.map fun item => .member group.1 item.name.fullName (aliasOf item)

theorem memberFact_eq (p : Specifier × Option String) :
    memberFact p = .member p.1.module (itemOf p).name.fullName (aliasOf (itemOf p)) := by
  obtain ⟨s, a⟩ := p
  cases a <;> simp [memberFact, itemOf, aliasOf, asAlias, Expr.fullName, Expr.segments]

theorem groupFacts_addItem (groups : List (String × List ImportName))
    (p : Specifier × Option String) :
    (groupFacts (addItem groups p)).Perm (groupFacts groups ++ [memberFact p]) := by
  rw [memberFact_eq, addItem]
  generalize itemOf p = item
  induction groups with
  | nil => exact .refl _
  | cons group groups ih =>
    obtain ⟨m, items⟩ := group
    by_cases h : m = p.1.module
    · simp only [addToGroup, beq_iff_eq, h, if_true, groupFacts, List.flatMap_cons,
        List.map_append, List.append_assoc]
      exact List.perm_append_comm.append_left _
    · simp only [addToGroup, beq_iff_eq, h, if_false, groupFacts, List.flatMap_cons,
        List.append_assoc]
      exact ih.append_left _

theorem groupFacts_foldl (groups : List (String × List ImportName))
    (entries : List (Specifier × Option String)) :
    (groupFacts (entries.foldl addItem groups)).Perm
      (groupFacts groups ++ entries.map memberFact) := by
  induction entries generalizing groups with
  | nil => simp
  | cons p entries ih =>
    rw [List.foldl_cons, List.map_cons, ← List.singleton_append, ← List.append_assoc]
    exact (ih _).trans ((groupFacts_addItem groups p).append_right _)

theorem addNamed_eq_ok {state next : NamedState} {s : Specifier}
    (h : addNamed state s = .ok next) :
    next = {
        taken := state.taken ++ [(freeAlias state.taken s.name).getD s.name]
        groups := addItem state.groups (s, freeAlias state.taken s.name)
        references := putReference state.references s.key
          ((freeAlias state.taken s.name).getD s.name)
        warnings := state.warnings ++ (namedWarning (s, freeAlias state.taken s.name)).toList } ∧
      Text.isIdentifier s.name = true ∧
      ∀ a ∈ freeAlias state.taken s.name, Text.isIdentifier a = true := by
  unfold addNamed at h
  by_cases hc : state.taken.contains s.name = true
  · have ha : freeAlias state.taken s.name = some (aliasPrefix ++ s.name) := if_pos hc
    simp only [hc, if_true, bind_eq_ok, checkName_eq_ok] at h
    obtain ⟨asName, ⟨bound, ⟨rfl, hb⟩, he⟩, name, ⟨rfl, hn⟩, hs⟩ := h
    obtain rfl := Except.ok.inj he
    obtain rfl := Except.ok.inj hs
    simp [ha, hn, hb, addItem, itemOf, namedWarning]
  · have ha : freeAlias state.taken s.name = none := if_neg hc
    simp only [hc, Bool.false_eq_true, if_false, bind_eq_ok, checkName_eq_ok] at h
    obtain ⟨asName, he, name, ⟨rfl, hn⟩, hs⟩ := h
    obtain rfl := Except.ok.inj he
    obtain rfl := Except.ok.inj hs
    simp [ha, hn, addItem, itemOf, namedWarning]

theorem foldlM_addNamed {missing : List Specifier} {state final : NamedState}
    (h : missing.foldlM addNamed state = .ok final) :
    final.groups = (named state.taken missing).foldl addItem state.groups ∧
      final.references = record state.references ((named state.taken missing).map namedText) ∧
      final.warnings = state.warnings ++ (named state.taken missing).filterMap namedWarning ∧
      ∀ p ∈ named state.taken missing,
        Text.isIdentifier p.1.name = true ∧ ∀ a ∈ p.2, Text.isIdentifier a = true := by
  -- The names taken so far decide the aliases of the rest, so the state cannot stay fixed.
  induction missing generalizing state with
  | nil =>
    obtain rfl := Except.ok.inj h
    simp [named, record]
  | cons s missing ih =>
    rw [List.foldlM_cons] at h
    obtain ⟨next, hs, hr⟩ := bind_eq_ok.mp h
    obtain ⟨rfl, hname, halias⟩ := addNamed_eq_ok hs
    obtain ⟨hg, ht, hw, hi⟩ := ih hr
    refine ⟨hg, ht, ?_, ?_⟩
    · rw [hw, named, List.filterMap_cons]
      cases namedWarning (s, freeAlias state.taken s.name) <;> simp
    · intro p hp
      rcases List.mem_cons.mp hp with rfl | hp
      · exact ⟨hname, halias⟩
      · exact hi p hp

theorem namedStatement_eq_ok {group : String × List ImportName} {stmt : Stmt}
    (h : namedStatement group = .ok stmt) : ImportsFrom group.1 group.2 stmt := by
  obtain ⟨module, items⟩ := group
  simp only [namedStatement, bind_eq_ok] at h
  obtain ⟨path, hp, hs⟩ := h
  obtain ⟨hd, hn⟩ := ofDottedName_eq_ok hp
  exact ⟨path, hd, hn, (Except.ok.inj hs).symm⟩

theorem factsOfBody_importsFrom {groups : List (String × List ImportName)}
    {statements : List Stmt}
    (h : List.Forall₂ (fun group stmt => ImportsFrom group.1 group.2 stmt) groups statements) :
    factsOfBody statements = groupFacts groups := by
  induction h with
  | nil => rfl
  | cons hs _ ih =>
    rw [factsOfBody, hs.facts, ih]
    rfl

theorem map_fst_named (taken : List String) (specifiers : List Specifier) :
    (named taken specifiers).map Prod.fst = specifiers := by
  induction specifiers generalizing taken with
  | nil => rfl
  | cons s specifiers ih => simp [named, ih]

theorem named_alias {taken : List String} {missing : List Specifier} {s : Specifier}
    {a : Option String} (h : (s, a) ∈ named taken missing) :
    a = some (aliasPrefix ++ s.name) ∨ a = none ∧ s.name ∉ taken := by
  induction missing generalizing taken with
  | nil => simp [named] at h
  | cons t missing ih =>
    rcases List.mem_cons.mp h with h | h
    · obtain ⟨rfl, rfl⟩ := Prod.mk.inj h
      unfold freeAlias
      by_cases hc : taken.contains s.name = true
      · exact .inl (if_pos hc)
      · exact .inr ⟨if_neg hc, by simpa using hc⟩
    · rcases ih h with h | ⟨h, hn⟩
      · exact .inl h
      · exact .inr ⟨h, fun hm => hn (List.mem_append_left _ hm)⟩

theorem mem_named_of_taken {taken : List String} {missing : List Specifier} {s : Specifier}
    (hs : s ∈ missing) (ht : s.name ∈ taken) :
    (s, some (aliasPrefix ++ s.name)) ∈ named taken missing := by
  induction missing generalizing taken with
  | nil => simp at hs
  | cons t missing ih =>
    rcases List.mem_cons.mp hs with rfl | hs
    · simp [named, freeAlias, ht]
    · exact List.mem_cons_of_mem _ (ih hs (List.mem_append_left _ ht))

def moduleAlias (b : Scope) (module : String) : Option String :=
  if b.boundNames.contains ((splitDots module).headD "") &&
      !b.importsRoot ((splitDots module).headD "") then
    some (aliasPrefix ++ underscored module)
  else none

def modulePrefix (b : Scope) (module : String) : String := (moduleAlias b module).getD module

def moduleFact (b : Scope) (module : String) : Fact := .imports module (moduleAlias b module)

def qualifiedText (b : Scope) (s : Specifier) : Specifier × String :=
  (s, modulePrefix b s.module ++ "." ++ s.name)

def moduleWarning (b : Scope) (module : String) : Option String :=
  (moduleAlias b module).map (renamedMessage ((splitDots module).headD "") module)

theorem addModule_eq_ok {b : Scope} {state next : QualifiedState} {module : String}
    (h : addModule b state module = .ok next) :
    (moduleFact b module).WellNamed ∧
      ∃ stmt, ImportsModule module (moduleAlias b module) stmt ∧
        next = {
          names := state.names ++ [(module, modulePrefix b module)]
          statements := state.statements ++ [stmt]
          references := state.references
          warnings := state.warnings ++ (moduleWarning b module).toList } := by
  unfold addModule at h
  by_cases hc : (b.boundNames.contains ((splitDots module).headD "") &&
      !b.importsRoot ((splitDots module).headD "")) = true
  · have ha : moduleAlias b module = some (aliasPrefix ++ underscored module) := if_pos hc
    simp only [hc, if_true, bind_eq_ok, checkName_eq_ok] at h
    obtain ⟨asName, ⟨bound, ⟨rfl, hb⟩, he⟩, path, hp, hs⟩ := h
    obtain rfl := Except.ok.inj he
    obtain rfl := Except.ok.inj hs
    obtain ⟨hd, hn⟩ := ofDottedName_eq_ok hp
    refine ⟨⟨hn ▸ hd.fullName, by simpa [ha] using hb⟩, _, ⟨path, hd, hn, rfl⟩, ?_⟩
    simp [modulePrefix, moduleWarning, ha]
  · have ha : moduleAlias b module = none := if_neg hc
    simp only [hc, Bool.false_eq_true, if_false, bind_eq_ok] at h
    obtain ⟨asName, he, path, hp, hs⟩ := h
    obtain rfl := Except.ok.inj he
    obtain rfl := Except.ok.inj hs
    obtain ⟨hd, hn⟩ := ofDottedName_eq_ok hp
    refine ⟨⟨hn ▸ hd.fullName, by simp [ha]⟩, _, ⟨path, hd, hn, rfl⟩, ?_⟩
    simp [modulePrefix, moduleWarning, ha]

def injectedFacts (style : ImportStyle) (b : Scope) (missing : List Specifier) : List Fact :=
  match style with
  | .named => (named b.boundNames missing).map memberFact
  | .qualified => missing.map fun s => moduleFact b s.module

def injectedTexts (style : ImportStyle) (b : Scope) (missing : List Specifier) :
    List (Specifier × String) :=
  match style with
  | .named => (named b.boundNames missing).map namedText
  | .qualified => missing.map (qualifiedText b)

end Hydration.Imports
