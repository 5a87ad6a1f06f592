import Hydration.Proofs.Grouping
import Hydration.Proofs.NormalForms
import Hydration.Proofs.Reporting
import Hydration.Manifest
import Mathlib.Data.List.Perm.Basic

/-! The groups of a manifest. A group holds the components that are placed in its file, and the groups
stand in the order in which their files are first met. A pass over that file knows the members of the
group as its own. -/

namespace Hydration

open Hydration.Path Hydration.Path.Location Hydration.Transform

section Places

variable (current : Location) (base : Option Location)

def placeOf (cmp : Component) : Location := (placeComponent current base cmp).1

/-- A component with the path under which its group holds it. -/
def placed (cmp : Component) : Component := (placeComponent current base cmp).2

theorem placed_eq (cmp : Component) :
    placed current base cmp = { cmp with sourcePath := (placed current base cmp).sourcePath } := by
  unfold placed placeComponent
  cases base with
  | none => rfl
  | some base =>
    dsimp only
    split <;> rfl

/-- A component stays as it is, or it gets the text of its place. -/
theorem placeOf_cases (cmp : Component) :
    placeOf current base cmp = Location.ofText cmp.sourcePath ∧ placed current base cmp = cmp ∨
      (placed current base cmp).sourcePath = (placeOf current base cmp).toText := by
  unfold placeOf placed placeComponent
  cases base with
  | none => exact .inl ⟨rfl, rfl⟩
  | some base =>
    dsimp only
    split
    · exact .inl ⟨rfl, rfl⟩
    · exact .inr rfl

theorem normalize_placed {cmp : Component} (h : '\\' ∉ cmp.sourcePath.toList) :
    normalize (placed current base cmp).sourcePath =
      normalize (placeOf current base cmp).toText := by
  rcases placeOf_cases current base cmp with ⟨hf, hp⟩ | hp
  · rw [hf, hp, normalize_toText_ofText h]
  · rw [hp]

end Places

theorem addToGroup_eq (groups : List Group) (file : Location) (cmp : Component) :
    (addToGroup groups file cmp).map (fun g => (g.file, g.components)) =
      Grouping.add (groups.map fun g => (g.file, g.components)) file cmp := by
  induction groups with
  | nil => rfl
  | cons g groups ih =>
    rw [addToGroup, List.map_cons, Grouping.add]
    by_cases h : g.file = file
    · rw [if_pos h, if_pos h, List.map_cons]
    · rw [if_neg h, if_neg h, List.map_cons, ih]

section Groups

variable {current : Location} {base : Option Location} {components : List Component}

/-- The groups are those of the places, each with the components that are placed there. -/
theorem map_groupByFile (current : Location) (base : Option Location) (components : List Component) :
    (groupByFile current base components).map (fun g => (g.file, g.components)) =
      Grouping.grouped (placeOf current base) (placed current base) components := by
  have hfold (groups : List Group) :
      (components.foldl (fun groups cmp =>
          addToGroup groups (placeOf current base cmp) (placed current base cmp)) groups).map
        (fun g => (g.file, g.components)) =
      components.foldl (fun groups cmp =>
          Grouping.add groups (placeOf current base cmp) (placed current base cmp))
        (groups.map fun g => (g.file, g.components)) := by
    induction components generalizing groups with
    | nil => rfl
    | cons cmp components ih => rw [List.foldl_cons, List.foldl_cons, ih, addToGroup_eq]
  rw [← Grouping.foldl_add]
  exact hfold []

theorem file_groupByFile : (groupByFile current base components).map Group.file =
    (components.map (placeOf current base)).eraseDups := by
  have hfiles := congrArg (List.map Prod.fst) (map_groupByFile current base components)
  simpa [Grouping.grouped, Function.comp_def] using hfiles

theorem mem_file_groupByFile {file : Location} :
    file ∈ (groupByFile current base components).map Group.file ↔
      ∃ cmp ∈ components, placeOf current base cmp = file := by
  rw [file_groupByFile, List.mem_eraseDups, List.mem_map]

theorem nodup_file_groupByFile : ((groupByFile current base components).map Group.file).Nodup := by
  rw [file_groupByFile]
  exact Grouping.nodup_eraseDups _

theorem members_of_mem {g : Group} (h : g ∈ groupByFile current base components) :
    g.components = (components.filter (placeOf current base · = g.file)).map (placed current base) := by
  have hm : (g.file, g.components) ∈
      (groupByFile current base components).map fun g => (g.file, g.components) :=
    List.mem_map.mpr ⟨g, h, rfl⟩
  rw [map_groupByFile] at hm
  obtain ⟨file, -, he⟩ := List.mem_map.mp hm
  obtain ⟨rfl, hc⟩ := Prod.mk.inj he
  exact hc.symm

theorem members_ne_nil {g : Group} (h : g ∈ groupByFile current base components) :
    g.components ≠ [] := by
  obtain ⟨cmp, hc, hp⟩ := mem_file_groupByFile.mp (List.mem_map_of_mem h)
  have hm : placed current base cmp ∈ g.components := by
    rw [members_of_mem h]
    exact List.mem_map_of_mem (List.mem_filter.mpr ⟨hc, by simpa using hp⟩)
  exact List.ne_nil_of_mem hm

theorem members_groupByFile_perm :
    ((groupByFile current base components).flatMap Group.components).Perm
      (components.map (placed current base)) := by
  have hall := Grouping.grouped_perm (placeOf current base) (placed current base) components
  rwa [← map_groupByFile, List.flatMap_map] at hall

theorem normalize_member {g : Group} {member : Component}
    (hplain : ∀ cmp ∈ components, '\\' ∉ cmp.sourcePath.toList)
    (hg : g ∈ groupByFile current base components) (hm : member ∈ g.components) :
    normalize member.sourcePath = normalize g.file.toText := by
  rw [members_of_mem hg] at hm
  obtain ⟨cmp, hc, rfl⟩ := List.mem_map.mp hm
  obtain ⟨hc, hfile⟩ := List.mem_filter.mp hc
  have hf : placeOf current base cmp = g.file := by simpa using hfile
  rw [← hf, normalize_placed current base (hplain cmp hc)]

end Groups

section Pass

variable {g : Group} (hsame : ∀ member ∈ g.components,
  normalize member.sourcePath = normalize g.file.toText)

include hsame

theorem get?_member {front back : List Component} {member : Component}
    (hg : g.components = front ++ member :: back)
    (hlast : ∀ later ∈ back, later.className ≠ member.className) :
    (Index.ofComponents g.components).get? g.file.toText member.className = some member := by
  have hm : member ∈ g.components := by simp [hg]
  refine Index.get?_eq_some_iff_last.mpr ⟨?_, front, back, hg, fun later hl he => ?_⟩
  · rw [Index.keyOf, hsame member hm]
  · exact hlast later hl (congrArg Prod.snd he)

theorem ofFile_ne_nil (hne : g.components ≠ []) :
    (Index.ofComponents g.components).ofFile g.file.toText ≠ [] := by
  obtain ⟨member, hm⟩ := List.exists_mem_of_ne_nil _ hne
  obtain ⟨last, hl⟩ := Index.exists_get?_of_mem hm (hsame member hm)
  have hlast := (Index.keyed_ofComponents g.components).get?_eq_some_iff.mp hl
  exact List.ne_nil_of_mem hlast.1

end Pass

theorem getLast?_message_append (text last : String) {c : Char} (h : last.toList.getLast? = some c) :
    (text ++ last).toList.getLast? = some c := by
  simp [String.toList_append, List.getLast?_append, h]

theorem otherFile_ne_missingClass (context : Context) (other missing : Component) :
    otherFile context other ≠ missingClass context missing := by
  intro he
  have hm := congrArg (fun d => d.message.toList.getLast?) he
  have hother : (otherFile context other).message.toList.getLast? = some 'd' :=
    getLast?_message_append _ _ (getLast?_message_append _ _ (by decide))
  have hmissing : (missingClass context missing).message.toList.getLast? = some 'e' :=
    getLast?_message_append _ _ (by decide)
  simp only [hother, hmissing] at hm
  exact absurd hm (by decide)

theorem otherFile_not_mem_importWarnings (context : Context) (other : Component)
    (warnings : List String) : otherFile context other ∉ importWarnings context warnings := by
  intro hm
  obtain ⟨text, -, he⟩ := List.mem_map.mp hm
  have hc := congrArg Diagnostic.category he
  exact absurd hc (by simp [otherFile, Context.warning])

/-- What a pass over the file of a group makes of the members. -/
structure Recognises (g : Group) : Prop where
  same_file : ∀ member ∈ g.components, normalize member.sourcePath = normalize g.file.toText
  /-- A class is found to be that of the last member that goes by its name. -/
  located : ∀ front member back, g.components = front ++ member :: back →
    (∀ later ∈ back, later.className ≠ member.className) →
    ∀ head : Syntax.ClassHead, head.name = member.className →
      locateIn (Index.ofComponents g.components) g.file.toText head = some member
  /-- No member is taken for a component of another file. -/
  reported : ∀ options m result diagnostics,
    hydrateModule (Index.ofComponents g.components) { options, file := g.file.toText } m =
      .ok (result, diagnostics) →
    (∃ missing warnings, missing ⊆ g.components ∧
      diagnostics = missing.map (missingClass { options, file := g.file.toText }) ++
        importWarnings { options, file := g.file.toText } warnings) ∧
    ∀ cmp, otherFile { options, file := g.file.toText } cmp ∉ diagnostics

theorem recognises_of_same_file {g : Group} (hne : g.components ≠ [])
    (hsame : ∀ member ∈ g.components, normalize member.sourcePath = normalize g.file.toText) :
    Recognises g := by
  refine ⟨hsame, ?_, ?_⟩
  · intro front member back hg hlast head hname
    rw [locateIn, hname, get?_member hsame hg hlast]
  · intro options m result diagnostics h
    obtain ⟨warnings, hd, -⟩ := diagnostics_of_pass h
    have hfile : ((Index.ofComponents g.components).ofFile g.file.toText).isEmpty = false := by
      simpa using ofFile_ne_nil hsame hne
    simp only [unusedComponents, hfile, Bool.false_eq_true, if_false, List.append_nil] at hd
    refine ⟨⟨_, warnings, fun cmp hc => Index.mem_of_mem_ofFile (List.mem_of_mem_filter hc), hd⟩, ?_⟩
    intro cmp hm
    rw [hd, List.mem_append, List.mem_map] at hm
    rcases hm with ⟨missing, -, he⟩ | hm
    · exact otherFile_ne_missingClass _ _ _ he.symm
    · exact otherFile_not_mem_importWarnings _ _ _ hm

/-- The groups share the components out by their places. They stand in the order in which the places
are first met, each holds its members in the order of the components, and a member differs from its
component in nothing but the path. -/
structure SharesOut (place : Component → Location) (carried : Component → Component)
    (components : List Component) (groups : List Group) : Prop where
  files : groups.map Group.file = (components.map place).eraseDups
  nodup : (groups.map Group.file).Nodup
  members : ∀ g ∈ groups, g.components = (components.filter (place · = g.file)).map carried
  nonempty : ∀ g ∈ groups, g.components ≠ []
  once : (groups.flatMap Group.components).Perm (components.map carried)
  carried_eq : ∀ cmp, carried cmp = { cmp with sourcePath := (carried cmp).sourcePath }

theorem sharesOut_groupByFile (current : Location) (base : Option Location)
    (components : List Component) :
    SharesOut (placeOf current base) (placed current base) components
      (groupByFile current base components) where
  files := file_groupByFile
  nodup := nodup_file_groupByFile
  members := fun _ => members_of_mem
  nonempty := fun _ => members_ne_nil
  once := members_groupByFile_perm
  carried_eq := placed_eq current base

/-- Grouping puts each component into one group, and a pass over the file of a group knows its
members: their paths and the text of that file are looked up under one key. -/
theorem groups_recognised (current : Location) (base : Option Location) (components : List Component)
    (hplain : ∀ cmp ∈ components, '\\' ∉ cmp.sourcePath.toList) :
    SharesOut (placeOf current base) (placed current base) components
        (groupByFile current base components) ∧
      ∀ g ∈ groupByFile current base components, Recognises g := by
  constructor
  · exact sharesOut_groupByFile current base components
  · intro g hg
    apply recognises_of_same_file (members_ne_nil hg)
    intro member hm
    exact normalize_member hplain hg hm

/-- Two spellings of one path lead to one group with two members. -/
theorem groups_recognised_of_spellings :
    (∀ cmp ∈ [usedComponent, missingComponent], '\\' ∉ cmp.sourcePath.toList) ∧
    groupByFile {} none [usedComponent, missingComponent] =
      [⟨{ parts := ["a.py"] }, [usedComponent, missingComponent]⟩] ∧
    Recognises ⟨{ parts := ["a.py"] }, [usedComponent, missingComponent]⟩ := by
  have hplain : ∀ cmp ∈ [usedComponent, missingComponent], '\\' ∉ cmp.sourcePath.toList := by
    decide
  have hgroups : groupByFile {} none [usedComponent, missingComponent] =
      [⟨{ parts := ["a.py"] }, [usedComponent, missingComponent]⟩] := by decide +kernel
  refine ⟨hplain, hgroups, ?_⟩
  have hall := (groups_recognised {} none [usedComponent, missingComponent] hplain).2
  exact hall _ (by rw [hgroups]; exact List.mem_singleton.mpr rfl)

end Hydration
