import Hydration.Proofs.Soundness
import Hydration.Proofs.Splicing
import Mathlib.Data.List.Pairwise

/-! Whether the names that a supply binds are new. A name that is taken gets the reserved prefix, but
the alias that results is not compared with the names in use. So the new names are apart from one
another and from those of the module as far as the aliases are free by themselves. -/

namespace Hydration.Imports

open Syntax

/-- The name that an import has for itself. The root of a module is none, as all imports below it
share it. -/
def Fact.ownName? : Fact → Option String
  | .imports _ asName => asName
  | .member _ name asName => some (asName.getD name)
  | _ => none

/-- The new names clash neither with those of the module nor with one another. Only the root of a
module may be bound again, where it is bound to its package already. -/
structure Fresh (m : Module) (missing : List Specifier) (statements : List Stmt)
    (references : List (String × String)) : Prop where
  apart : ∀ f ∈ factsOfBody statements, ∀ x ∈ f.binds, x ∈ (scanScope m).boundNames →
    (∃ full, f = .imports full none) ∧
      ∃ full, .imports full none ∈ factsOfBody m.body ∧ rootOf full = x
  distinct : ((factsOfBody statements).filterMap Fact.ownName?).Nodup
  texts : ∀ s ∈ missing, ∀ t ∈ missing,
    references.lookup s.key = references.lookup t.key → s = t

/-- Whenever a name is taken, its alias is not. -/
def AliasesFree : List String → List Specifier → Prop
  | _, [] => True
  | taken, s :: rest =>
    (s.name ∈ taken → aliasPrefix ++ s.name ∉ taken) ∧
      AliasesFree (taken ++ [(freeAlias taken s.name).getD s.name]) rest

def boundName (p : Specifier × Option String) : String := p.2.getD p.1.name

theorem freeAlias_of_mem {taken : List String} {name : String} (h : name ∈ taken) :
    freeAlias taken name = some (aliasPrefix ++ name) := by
  simp [freeAlias, h]

theorem freeAlias_of_not_mem {taken : List String} {name : String} (h : name ∉ taken) :
    freeAlias taken name = none := by
  simp [freeAlias, h]

theorem freeAlias_not_mem_iff {taken : List String} {name : String} :
    (freeAlias taken name).getD name ∉ taken ↔ (name ∈ taken → aliasPrefix ++ name ∉ taken) := by
  by_cases h : name ∈ taken
  · simp [freeAlias_of_mem h, h]
  · simp [freeAlias_of_not_mem h, h]

theorem aliasesFree_iff {taken : List String} {missing : List Specifier} :
    AliasesFree taken missing ↔ (∀ x ∈ (named taken missing).map boundName, x ∉ taken) ∧
      ((named taken missing).map boundName).Nodup := by
  induction missing generalizing taken with
  | nil => simp [AliasesFree, named]
  | cons s missing ih =>
    simp only [AliasesFree, named, ih, List.map_cons, List.forall_mem_cons, List.nodup_cons,
      ← freeAlias_not_mem_iff, boundName, List.mem_append, List.mem_singleton, not_or]
    constructor
    · rintro ⟨hs, hrest, hn⟩
      exact ⟨⟨hs, fun x hx => (hrest x hx).1⟩, fun hmem => (hrest _ hmem).2 rfl, hn⟩
    · rintro ⟨⟨hs, hrest⟩, hnot, hn⟩
      exact ⟨hs, fun x hx => ⟨hrest x hx, fun he => hnot (he ▸ hx)⟩, hn⟩

/-- How often a name is asked for, once more if it is taken, and once more if its alias is. -/
def demand (taken : List String) (missing : List Specifier) (name : String) : Nat :=
  (missing.map Specifier.name).count name + (if name ∈ taken then 1 else 0) +
    (if aliasPrefix ++ name ∈ taken then 1 else 0)

section Demand

variable {taken : List String} {missing : List Specifier} {s : Specifier} {name : String}

/-- The first of the missing names moves from those asked for to those taken. -/
theorem demand_step (hs : ¬ IsReserved s.name) (hn : ¬ IsReserved name)
    (h : s.name ∈ taken → aliasPrefix ++ s.name ∉ taken) :
    demand (taken ++ [(freeAlias taken s.name).getD s.name]) missing name =
      demand taken (s :: missing) name := by
  have hne (x : String) : s.name ≠ aliasPrefix ++ x := fun he => hs ⟨x, he⟩
  have hne' : name ≠ aliasPrefix ++ s.name := fun he => hn ⟨s.name, he⟩
  unfold demand
  by_cases ht : s.name ∈ taken
  · by_cases hname : name = s.name
    · subst hname
      simp [freeAlias_of_mem ht, ht, h ht, Nat.add_assoc]
    · simp [freeAlias_of_mem ht, hname, Ne.symm hname, hne']
  · by_cases hname : name = s.name
    · subst hname
      simp [freeAlias_of_not_mem ht, ht, (hne _).symm, Nat.add_assoc]
    · simp [freeAlias_of_not_mem ht, hname, Ne.symm hname, (hne _).symm]

theorem demand_le_of_not_mem (h : name ∉ missing.map Specifier.name) :
    demand taken missing name ≤ 2 := by
  rw [demand, List.count_eq_zero_of_not_mem h]
  split <;> split <;> omega

theorem two_lt_demand (h : s.name ∈ taken) (ha : aliasPrefix ++ s.name ∈ taken) :
    2 < demand taken (s :: missing) s.name := by
  simp [demand, h, ha]

end Demand

/-- Among names that are not reserved, two can be bound for each: the name and its alias. -/
theorem aliasesFree_iff_demand {taken : List String} {missing : List Specifier}
    (h : ∀ s ∈ missing, ¬ IsReserved s.name) :
    AliasesFree taken missing ↔ ∀ s ∈ missing, demand taken missing s.name ≤ 2 := by
  -- What the first name takes adds to the names taken as much as it takes from those asked for.
  induction missing generalizing taken with
  | nil => simp [AliasesFree]
  | cons s missing ih =>
    obtain ⟨hs, hrest⟩ := List.forall_mem_cons.mp h
    rw [AliasesFree, ih hrest, List.forall_mem_cons]
    by_cases hfree : s.name ∈ taken → aliasPrefix ++ s.name ∉ taken
    · have hstep {name : String} (hn : ¬ IsReserved name) :
          demand (taken ++ [(freeAlias taken s.name).getD s.name]) missing name =
            demand taken (s :: missing) name := demand_step hs hn hfree
      have hall : (∀ t ∈ missing, demand (taken ++ [(freeAlias taken s.name).getD s.name]) missing
          t.name ≤ 2) ↔ ∀ t ∈ missing, demand taken (s :: missing) t.name ≤ 2 :=
        forall₂_congr fun t ht => by rw [hstep (hrest t ht)]
      rw [hall, and_iff_right hfree]
      refine ⟨fun hd => ⟨?_, hd⟩, And.right⟩
      by_cases hmem : ∃ t ∈ missing, t.name = s.name
      · obtain ⟨t, ht, he⟩ := hmem
        exact he ▸ hd t ht
      · rw [← hstep hs]
        exact demand_le_of_not_mem (by simpa using hmem)
    · refine iff_of_false (fun hd => hfree hd.1) ?_
      rintro ⟨hd, -⟩
      push Not at hfree
      exact absurd hd (Nat.not_le.mpr (two_lt_demand hfree.1 hfree.2))

/-- The aliases of the missing modules are free and differ from one another, a root that the module
imports as itself stands for its package, and no two names get one text. -/
structure ModulesFree (m : Module) (missing : List Specifier) : Prop where
  free : ∀ s ∈ missing, ∀ a ∈ moduleAlias (scanScope m) s.module, a ∉ (scanScope m).boundNames
  rooted : ∀ s ∈ missing,
    (scanScope m).namespaces.lookup (rootOf s.module) = some (rootOf s.module) →
      ∃ full, .imports full none ∈ factsOfBody m.body ∧ rootOf full = rootOf s.module
  apart : ∀ s ∈ missing, ∀ t ∈ missing, ∀ a ∈ moduleAlias (scanScope m) s.module,
    a ∈ moduleAlias (scanScope m) t.module → s.module = t.module
  told : ∀ s ∈ missing, ∀ t ∈ missing,
    (qualifiedText (scanScope m) s).2 = (qualifiedText (scanScope m) t).2 → s = t

def Unhindered (style : ImportStyle) (m : Module) (missing : List Specifier) : Prop :=
  match style with
  | .named => AliasesFree (scanScope m).boundNames missing
  | .qualified => ModulesFree m missing

theorem rootOf_rootOf {module : String} (h : IsDotted module) :
    rootOf (rootOf module) = rootOf module := by
  cases hs : splitDots module with
  | nil => exact absurd hs (splitDots_ne_nil module)
  | cons root rest =>
    have hr : rootOf module = root := by simp [rootOf, hs]
    rw [hr]
    exact rootOf_identifier (h root (hs ▸ List.mem_cons_self))

theorem nodup_filterMap_iff {α β : Type} {l : List α} (hl : l.Nodup) {f : α → Option β} :
    (l.filterMap f).Nodup ↔ ∀ x ∈ l, ∀ y ∈ l, ∀ b ∈ f x, b ∈ f y → x = y := by
  rw [List.Nodup, List.pairwise_filterMap]
  constructor
  · intro h x hx y hy b hb hb'
    by_contra hne
    have hsymm : Std.Symm fun x y => ∀ b ∈ f x, ∀ b' ∈ f y, b ≠ b' :=
      ⟨fun _ _ hxy b hb b' hb' he => hxy b' hb' b hb he.symm⟩
    exact h.forall hx hy hne b hb b hb' rfl
  · intro h
    refine hl.imp_of_mem fun hx hy hne b hb b' hb' he => ?_
    exact hne (h _ hx _ hy b hb (he ▸ hb'))

section Fresh

variable {m : Module} {missing : List Specifier} {statements : List Stmt}
  {references : List (String × String)}

theorem fresh_iff_of_named (hl : NewLines .named (scanScope m) missing statements)
    (ht : ∀ p ∈ named (scanScope m).boundNames missing,
      references.lookup p.1.key = some (boundName p)) :
    Fresh m missing statements references ↔ AliasesFree (scanScope m).boundNames missing := by
  have hfacts := facts_of_named hl
  have hown := hfacts.filterMap Fact.ownName?
  rw [List.filterMap_map, show Fact.ownName? ∘ memberFact = some ∘ boundName from rfl,
    List.filterMap_eq_map] at hown
  rw [aliasesFree_iff]
  constructor
  · intro hf
    refine ⟨?_, hown.nodup_iff.mp hf.distinct⟩
    intro x hx hb
    obtain ⟨p, hp, rfl⟩ := List.mem_map.mp hx
    have hmem := hfacts.mem_iff.mpr (List.mem_map_of_mem hp)
    obtain ⟨⟨full, he⟩, -⟩ := hf.apart _ hmem _ List.mem_cons_self hb
    cases he
  · rintro ⟨hfree, hnodup⟩
    refine ⟨?_, hown.nodup_iff.mpr hnodup, ?_⟩
    · intro f hf x hx hb
      obtain ⟨p, hp, rfl⟩ := List.mem_map.mp (hfacts.mem_iff.mp hf)
      obtain rfl := List.mem_singleton.mp hx
      exact absurd hb (hfree _ (List.mem_map_of_mem hp))
    · intro s hs t ht' he
      rw [← map_fst_named (scanScope m).boundNames missing] at hs ht'
      obtain ⟨p, hp, rfl⟩ := List.mem_map.mp hs
      obtain ⟨q, hq, rfl⟩ := List.mem_map.mp ht'
      rw [ht p hp, ht q hq] at he
      rw [List.inj_on_of_nodup_map hnodup hp hq (Option.some.inj he)]

/-- An import of a root as itself is one of its imports. -/
theorem importsRoot_of_lookup {root : String} (hr : rootOf root = root)
    (h : (scanScope m).namespaces.lookup root = some root) :
    (scanScope m).importsRoot root = true ∧ root ∈ (scanScope m).boundNames := by
  refine ⟨importsRoot_scanScope.mpr ⟨root, namespaces_scanScope m root ▸ h, hr⟩, ?_⟩
  rcases imports_of_lookup h with hf | hf
  · exact mem_boundNames_scanScope.mpr ⟨_, hf, List.mem_singleton.mpr hr.symm⟩
  · exact mem_boundNames_scanScope.mpr ⟨_, hf, List.mem_singleton_self root⟩

theorem moduleAlias_of_importsRoot {b : Scope} {module : String}
    (h : b.importsRoot (rootOf module) = true) : moduleAlias b module = none := by
  refine if_neg fun hc => ?_
  have hno := (Bool.and_eq_true_iff.mp hc).2
  rw [show b.importsRoot ((splitDots module).headD "") = true from h] at hno
  cases hno

theorem nodup_ownNames_iff (hl : NewLines .qualified (scanScope m) missing statements) :
    ((factsOfBody statements).filterMap Fact.ownName?).Nodup ↔
      ∀ s ∈ missing, ∀ t ∈ missing, ∀ a ∈ moduleAlias (scanScope m) s.module,
        a ∈ moduleAlias (scanScope m) t.module → s.module = t.module := by
  rw [facts_of_qualified hl, List.filterMap_map,
    show Fact.ownName? ∘ moduleFact (scanScope m) = moduleAlias (scanScope m) from rfl,
    nodup_filterMap_iff (nodup_modulesOf missing)]
  simp only [mem_modulesOf, forall_exists_index, and_imp, forall_apply_eq_imp_iff₂]

theorem moduleFact_mem (hl : NewLines .qualified (scanScope m) missing statements) {s : Specifier}
    (hs : s ∈ missing) : moduleFact (scanScope m) s.module ∈ factsOfBody statements := by
  rw [facts_of_qualified hl]
  exact List.mem_map_of_mem (mem_modulesOf.mpr ⟨s, hs, rfl⟩)

/-- An import of a module binds nothing that is bound, or the root of a package once more. -/
theorem ModulesFree.apart_moduleFact (hu : ModulesFree m missing) (hm : WellNamed m) {s : Specifier}
    (hs : s ∈ missing) {x : String} (hx : x ∈ (moduleFact (scanScope m) s.module).binds)
    (hb : x ∈ (scanScope m).boundNames) :
    (∃ full, moduleFact (scanScope m) s.module = .imports full none) ∧
      ∃ full, .imports full none ∈ factsOfBody m.body ∧ rootOf full = x := by
  unfold moduleFact at hx ⊢
  cases ha : moduleAlias (scanScope m) s.module with
  | some a =>
    rw [ha] at hx
    obtain rfl := List.mem_singleton.mp hx
    exact absurd hb (hu.free s hs x ha)
  | none =>
    rw [ha] at hx
    obtain rfl : x = rootOf s.module := List.mem_singleton.mp hx
    refine ⟨⟨_, rfl⟩, ?_⟩
    rcases exists_import_of_importsRoot hm (importsRoot_of_no_alias ha hb) with hr | ⟨hr, -, -⟩
    · exact hr
    · exact hu.rooted s hs hr

theorem fresh_iff_of_qualified (hm : WellNamed m) (hd : ∀ s ∈ missing, IsDotted s.module)
    (hl : NewLines .qualified (scanScope m) missing statements)
    (ht : ∀ s ∈ missing, references.lookup s.key = some (qualifiedText (scanScope m) s).2) :
    Fresh m missing statements references ↔ ModulesFree m missing := by
  have htexts : (∀ s ∈ missing, ∀ t ∈ missing,
      references.lookup s.key = references.lookup t.key → s = t) ↔
        ∀ s ∈ missing, ∀ t ∈ missing,
          (qualifiedText (scanScope m) s).2 = (qualifiedText (scanScope m) t).2 → s = t := by
    refine forall₂_congr fun s hs => forall₂_congr fun t ht' => ?_
    rw [ht s hs, ht t ht', Option.some.injEq]
  constructor
  · intro hf
    refine ⟨?_, ?_, (nodup_ownNames_iff hl).mp hf.distinct, htexts.mp hf.texts⟩
    · intro s hs a ha hb
      have hf' := moduleFact_mem hl hs
      rw [moduleFact, ha] at hf'
      obtain ⟨⟨full, he⟩, -⟩ := hf.apart _ hf' a List.mem_cons_self hb
      cases he
    · intro s hs hroot
      obtain ⟨hi, hb⟩ := importsRoot_of_lookup (rootOf_rootOf (hd s hs)) hroot
      have hf' := moduleFact_mem hl hs
      rw [moduleFact, moduleAlias_of_importsRoot hi] at hf'
      exact (hf.apart _ hf' _ List.mem_cons_self hb).2
  · intro hu
    refine ⟨?_, (nodup_ownNames_iff hl).mpr hu.apart, htexts.mpr hu.told⟩
    intro f hf x hx hb
    rw [facts_of_qualified hl] at hf
    obtain ⟨module, hmodule, rfl⟩ := List.mem_map.mp hf
    obtain ⟨s, hs, rfl⟩ := mem_modulesOf.mp hmodule
    exact hu.apart_moduleFact hm hs hx hb

end Fresh

section Supply

variable {style : ImportStyle} {specifiers : List Specifier} {m : Module} {supplied : Supplied}
  {statements : List Stmt}

theorem fresh_iff_of_supply (hm : WellNamed m) (hn : specifiers.Nodup)
    (h : supply style specifiers m = .ok supplied)
    (hl : NewLines style (scanScope m) (missingSpecifiers (scanScope m) specifiers) statements) :
    Fresh m (missingSpecifiers (scanScope m) specifiers) statements supplied.references ↔
      Unhindered style m (missingSpecifiers (scanScope m) specifiers) := by
  have hlook {s : Specifier} {text : String} (hs : (s, text) ∈
      injectedTexts style (scanScope m) (missingSpecifiers (scanScope m) specifiers)) :
      supplied.references.lookup s.key = some text :=
    lookup_supplied hm hn h (List.mem_append_right _ hs)
  cases style with
  | named => exact fresh_iff_of_named hl fun p hp => hlook (List.mem_map_of_mem hp)
  | qualified =>
    obtain ⟨-, _, hi, -⟩ := supply_eq_ok h
    exact fresh_iff_of_qualified hm (fun s hs => isDotted_of_injection hi hs) hl
      fun s hs => hlook (List.mem_map_of_mem hs)

end Supply

/-- Names of one module, none of them reserved, for a module that binds no reserved name and that
imports no root merely as itself. -/
structure Plain (specifiers : List Specifier) (m : Module) : Prop where
  one : ∀ s ∈ specifiers, ∀ t ∈ specifiers, s.module = t.module
  names : ∀ s ∈ specifiers, ¬ IsReserved s.name
  bound : ∀ x ∈ (scanScope m).boundNames, ¬ IsReserved x
  roots : ∀ s ∈ specifiers, .imports (rootOf s.module) (some (rootOf s.module)) ∉ factsOfBody m.body

section Plain

variable {specifiers missing : List Specifier} {m : Module}

/-- No name is asked for twice, and no alias is taken. -/
theorem Plain.aliasesFree (hp : Plain specifiers m) (hs : missing.Sublist specifiers)
    (hn : specifiers.Nodup) : AliasesFree (scanScope m).boundNames missing := by
  refine (aliasesFree_iff_demand fun s h => hp.names s (hs.subset h)).mpr fun s h => ?_
  have hnames : (missing.map Specifier.name).Nodup := by
    refine (hn.sublist hs).map_on fun x hx y hy he => ?_
    have hone := hp.one x (hs.subset hx) y (hs.subset hy)
    cases x
    cases y
    simp_all
  have halias : aliasPrefix ++ s.name ∉ (scanScope m).boundNames :=
    fun hb => hp.bound _ hb ⟨s.name, rfl⟩
  rw [demand, if_neg halias, List.count_eq_one_of_mem hnames (List.mem_map_of_mem h)]
  split <;> omega

theorem Plain.modulesFree (hp : Plain specifiers m) (hs : missing ⊆ specifiers)
    (hd : ∀ s ∈ missing, IsDotted s.module) : ModulesFree m missing where
  free s h a ha hb := by
    obtain ⟨-, he⟩ := Option.ite_none_right_eq_some.mp ha
    exact hp.bound a hb ⟨_, (Option.some.inj he).symm⟩
  rooted s h hroot := by
    rcases imports_of_lookup hroot with hf | hf
    · exact ⟨_, hf, rootOf_rootOf (hd s h)⟩
    · exact absurd hf (hp.roots s (hs h))
  apart s h t ht _ _ _ := hp.one s (hs h) t (hs ht)
  told s h t ht he := by
    have hone := hp.one s (hs h) t (hs ht)
    cases s
    cases t
    simp_all [qualifiedText]

theorem Plain.unhindered (hp : Plain specifiers m) (hs : missing.Sublist specifiers)
    (hn : specifiers.Nodup) (hd : ∀ s ∈ missing, IsDotted s.module) (style : ImportStyle) :
    Unhindered style m missing := by
  cases style with
  | named => exact hp.aliasesFree hs hn
  | qualified => exact hp.modulesFree hs.subset hd

end Plain

/-- The names that a supply binds are apart from those of the module and from one another, and so are
the texts that refer to them, exactly if nothing hinders the aliases: by name, whenever a name is
taken its alias is not; by module, the aliases are free and different. For names that are not
reserved that leaves two imports of each, and one if the module binds the name or its alias. A supply
from a single module is always apart where no reserved name is in use. -/
theorem supply_fresh {style : ImportStyle} {specifiers : List Specifier} {m : Module}
    {supplied : Supplied} (hm : Admissible m) (hn : specifiers.Nodup)
    (h : supply style specifiers m = .ok supplied) :
    ∃ statements, supplied.module = injected m statements ∧
      (Fresh m (missingSpecifiers (scanScope m) specifiers) statements supplied.references ↔
        Unhindered style m (missingSpecifiers (scanScope m) specifiers)) ∧
      (style = .named →
        (∀ s ∈ missingSpecifiers (scanScope m) specifiers, ¬ IsReserved s.name) →
        (Fresh m (missingSpecifiers (scanScope m) specifiers) statements supplied.references ↔
          ∀ s ∈ missingSpecifiers (scanScope m) specifiers,
            demand (scanScope m).boundNames (missingSpecifiers (scanScope m) specifiers) s.name
              ≤ 2)) ∧
      (Plain specifiers m →
        Fresh m (missingSpecifiers (scanScope m) specifiers) statements supplied.references) := by
  obtain ⟨statements, hmodule, hlines, hwell, -, -⟩ := newLines_of_supply h
  have hi := injection_of_newLines hlines hwell
  have hiff := fresh_iff_of_supply hm.wellNamed hn h hlines
  refine ⟨statements, hmodule, hiff, ?_, ?_⟩
  · rintro rfl hreserved
    rw [hiff]
    exact aliasesFree_iff_demand hreserved
  · intro hp
    have hd : ∀ s ∈ missingSpecifiers (scanScope m) specifiers, IsDotted s.module :=
      fun s hs => isDotted_of_injection hi hs
    exact hiff.mpr (hp.unhindered List.filter_sublist hn hd style)

/-- One name of three modules is imported once under its own name and twice under its alias. -/
theorem supply_fresh_of_three :
    ∃ supplied, supply .named [⟨"m", "x"⟩, ⟨"n", "x"⟩, ⟨"p", "x"⟩] { body := [] } = .ok supplied ∧
      supplied.references.lookup "n:x" = supplied.references.lookup "p:x" ∧
      ∀ statements, supplied.module = injected { body := [] } statements →
        ¬ Fresh { body := [] } [⟨"m", "x"⟩, ⟨"n", "x"⟩, ⟨"p", "x"⟩] statements
          supplied.references := by
  have hm : Admissible { body := [] } := .inr fun f hf => by simp [factsOfBody] at hf
  refine ⟨_, rfl, by decide, ?_⟩
  intro statements hmodule hfresh
  obtain ⟨statements', hmodule', hiff, -⟩ := supply_fresh hm (by decide)
    (rfl : supply .named [⟨"m", "x"⟩, ⟨"n", "x"⟩, ⟨"p", "x"⟩] { body := [] } = .ok _)
  obtain rfl := insertAt_left_cancel (congrArg Module.body (hmodule.symm.trans hmodule'))
  obtain ⟨-, -, hthird, -⟩ : AliasesFree [] [⟨"m", "x"⟩, ⟨"n", "x"⟩, ⟨"p", "x"⟩] := hiff.mp hfresh
  exact hthird (by decide) (by decide)

end Hydration.Imports
