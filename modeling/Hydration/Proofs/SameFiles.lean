import Hydration.CommandLine.Command
import Hydration.Proofs.Groups

/-! Components of one file. A relative path is resolved before its component is grouped and an absolute
one is not, so components of one file are grouped apart when one of them has an absolute path that is
not in normal form, unless their paths name one location as they stand. -/

namespace Hydration

open Hydration.Path Location Hydration.Transform

namespace Path.Location

theorem foldl_climb_of_up_not_mem {parts climbed : List String} (h : ".." ∉ parts) :
    parts.foldl climb climbed = parts.reverse ++ climbed := by
  induction parts generalizing climbed with
  | nil => rfl
  | cons part parts ih =>
    rw [List.mem_cons, not_or] at h
    have hclimb : climb climbed part = part :: climbed := by simp [climb, Ne.symm h.1]
    rw [List.foldl_cons, hclimb, ih h.2]
    simp

theorem up_not_mem_foldl_climb {parts climbed : List String} (h : ".." ∉ climbed) :
    ".." ∉ parts.foldl climb climbed := by
  induction parts generalizing climbed with
  | nil => exact h
  | cons part parts ih => exact ih (up_not_mem_climb h)

/-- An absolute location leads to itself when it has one slash in front and never goes up. -/
theorem resolve_eq_self_iff {l : Location} (h : l.isAbsolute = true) (current : Location) :
    resolve current l = l ↔ l.slashes = 1 ∧ ".." ∉ l.parts := by
  rw [resolve_of_isAbsolute h]
  constructor
  · intro he
    rw [← he]
    exact ⟨rfl, fun hm => up_not_mem_foldl_climb (by simp) (List.mem_reverse.mp hm)⟩
  · rintro ⟨hs, hup⟩
    rw [foldl_climb_of_up_not_mem hup, List.append_nil, List.reverse_reverse, ← hs]

theorem resolve_resolve (current l : Location) :
    resolve current (resolve current l) = resolve current l := by
  refine (resolve_eq_self_iff rfl current).mpr ⟨rfl, fun hm => ?_⟩
  exact up_not_mem_foldl_climb (by simp) (List.mem_reverse.mp hm)

theorem isAbsolute_join {base : Location} (h : base.isAbsolute = true) (l : Location) :
    (base.join l).isAbsolute = true := by
  unfold join
  split
  · assumption
  · exact h

theorem toText_inj {l other : Location} (hl : l.Proper) (ho : other.Proper) :
    l.toText = other.toText ↔ l = other := by
  constructor
  · intro he
    rw [← ofText_toText hl, he, ofText_toText ho]
  · rintro rfl
    rfl

end Path.Location

/-- The normal form of the absolute path that a text stands for, seen from a folder. However many
slashes it starts with, it starts at the one root. -/
def absolutePath (folder : Location) (path : String) : String :=
  let place := folder.join (ofText path)
  String.ofList (normalChars { place with slashes := 1 }.toText.toList)

def SameFile (folder : Location) (a b : Component) : Prop :=
  absolutePath folder a.sourcePath = absolutePath folder b.sourcePath

/-- A relative path, or an absolute one that is in normal form. -/
def Settled (cmp : Component) : Prop :=
  (ofText cmp.sourcePath).isAbsolute = true →
    (ofText cmp.sourcePath).slashes = 1 ∧ ".." ∉ (ofText cmp.sourcePath).parts

def Alike (a b : Component) : Prop :=
  Settled a ∧ Settled b ∨ ofText a.sourcePath = ofText b.sourcePath

section Placed

variable {current base : Location} {a b cmp : Component}

theorem placeOf_of_absolute (h : (ofText cmp.sourcePath).isAbsolute = true) :
    placeOf current (some base) cmp = ofText cmp.sourcePath ∧
      base.join (ofText cmp.sourcePath) = ofText cmp.sourcePath := by
  simp [placeOf, placeComponent, join, h]

theorem placeOf_of_relative (h : ¬(ofText cmp.sourcePath).isAbsolute = true) :
    placeOf current (some base) cmp = current.resolve (base.join (ofText cmp.sourcePath)) := by
  simp [placeOf, placeComponent, h]

theorem resolve_placeOf (cmp : Component) :
    current.resolve (placeOf current (some base) cmp) =
      current.resolve (base.join (ofText cmp.sourcePath)) := by
  by_cases h : (ofText cmp.sourcePath).isAbsolute = true
  · obtain ⟨hp, hj⟩ := @placeOf_of_absolute current base cmp h
    rw [hp, hj]
  · rw [placeOf_of_relative h, resolve_resolve]

theorem placeOf_eq_resolve_iff (current base : Location) (cmp : Component) :
    placeOf current (some base) cmp = current.resolve (base.join (ofText cmp.sourcePath)) ↔
      Settled cmp := by
  by_cases h : (ofText cmp.sourcePath).isAbsolute = true
  · obtain ⟨hp, hj⟩ := @placeOf_of_absolute current base cmp h
    rw [hp, hj, eq_comm, resolve_eq_self_iff h]
    exact ⟨fun hs _ => hs, fun hs => hs h⟩
  · exact ⟨fun _ hn => absurd hn h, fun _ => placeOf_of_relative h⟩

theorem placeOf_of_not_settled (h : ¬ Settled cmp) :
    placeOf current (some base) cmp = ofText cmp.sourcePath :=
  (placeOf_of_absolute (Classical.not_imp.mp h).1).1

variable (hb : base.Proper) (habs : base.isAbsolute = true)

include hb habs

/-- The normal form of an absolute path is the text of the file that it leads to. -/
theorem absolutePath_eq (current : Location) (path : String) :
    absolutePath base path = (current.resolve (base.join (ofText path))).toText := by
  have hplace : (base.join (ofText path)).Proper := hb.join (proper_ofText path)
  have hroot : ({ base.join (ofText path) with slashes := 1 } : Location).Proper :=
    ⟨Nat.le_succ 1, hplace.parts⟩
  have hsame : current.resolve { base.join (ofText path) with slashes := 1 } =
      current.resolve (base.join (ofText path)) := by
    rw [resolve_of_isAbsolute (isAbsolute_join habs _), resolve_of_isAbsolute rfl]
  rw [absolutePath, normalChars_toText hroot, normalForm_eq_resolve hroot rfl current, hsame,
    String.ofList_toList]

theorem sameFile_iff (current : Location) :
    SameFile base a b ↔ current.resolve (placeOf current (some base) a) =
      current.resolve (placeOf current (some base) b) := by
  have hproper (cmp : Component) :
      (current.resolve (base.join (ofText cmp.sourcePath))).Proper :=
    proper_resolve_of_isAbsolute (hb.join (proper_ofText _)) (isAbsolute_join habs _) current
  rw [SameFile, absolutePath_eq hb habs current, absolutePath_eq hb habs current,
    toText_inj (hproper a) (hproper b), resolve_placeOf, resolve_placeOf]

/-- Two components are placed in one file exactly if their paths lead to one file and both are resolved,
or name one location. -/
theorem placeOf_eq_iff :
    placeOf current (some base) a = placeOf current (some base) b ↔ SameFile base a b ∧ Alike a b := by
  rw [sameFile_iff hb habs current]
  constructor
  · intro he
    refine ⟨congrArg current.resolve he, ?_⟩
    have hsettled : Settled a ↔ Settled b := by
      rw [← placeOf_eq_resolve_iff current base a, ← placeOf_eq_resolve_iff current base b,
        ← resolve_placeOf, ← resolve_placeOf, he]
    by_cases ha : Settled a
    · exact .inl ⟨ha, hsettled.mp ha⟩
    · have hb' : ¬ Settled b := fun h => ha (hsettled.mpr h)
      rw [placeOf_of_not_settled ha, placeOf_of_not_settled hb'] at he
      exact .inr he
  · rintro ⟨hfile, ⟨ha, hb'⟩ | hl⟩
    · rw [(placeOf_eq_resolve_iff current base a).mpr ha,
        (placeOf_eq_resolve_iff current base b).mpr hb', ← resolve_placeOf, ← resolve_placeOf]
      exact hfile
    · by_cases h : (ofText a.sourcePath).isAbsolute = true
      · rw [(placeOf_of_absolute h).1, (placeOf_of_absolute (hl ▸ h)).1, hl]
      · rw [placeOf_of_relative h, placeOf_of_relative (hl ▸ h), hl]

theorem ofText_placed : ofText (placed current (some base) cmp).sourcePath =
    placeOf current (some base) cmp := by
  rcases placeOf_cases current (some base) cmp with ⟨hf, hp⟩ | hp
  · rw [hf, hp]
  · by_cases h : (ofText cmp.sourcePath).isAbsolute = true
    · rw [hp, (placeOf_of_absolute h).1, ofText_toText (proper_ofText _)]
    · have hproper := proper_resolve_of_isAbsolute (hb.join (proper_ofText cmp.sourcePath))
        (isAbsolute_join habs _) current
      rw [hp, placeOf_of_relative h, ofText_toText hproper]

end Placed

def Together (groups : List Group) (a b : Component) : Prop :=
  ∃ g ∈ groups, a ∈ g.components ∧ b ∈ g.components

section Groups

variable {current base : Location} {components : List Component} {a b : Component}
  (hb : base.Proper) (habs : base.isAbsolute = true)

include hb habs

theorem placeOf_of_mem_group {g : Group} (hg : g ∈ groupByFile current (some base) components)
    (ha : placed current (some base) a ∈ g.components) : placeOf current (some base) a = g.file := by
  rw [members_of_mem hg] at ha
  obtain ⟨cmp, hc, he⟩ := List.mem_map.mp ha
  have hplace := congrArg (fun c : Component => ofText c.sourcePath) he
  simp only [ofText_placed hb habs] at hplace
  rw [← hplace]
  simpa using (List.mem_filter.mp hc).2

theorem together_iff (ha : a ∈ components) (hm : b ∈ components) :
    Together (groupByFile current (some base) components) (placed current (some base) a)
        (placed current (some base) b) ↔
      placeOf current (some base) a = placeOf current (some base) b := by
  constructor
  · rintro ⟨g, hg, hga, hgb⟩
    rw [placeOf_of_mem_group hb habs hg hga, placeOf_of_mem_group hb habs hg hgb]
  · intro he
    obtain ⟨g, hg, hfile⟩ := List.mem_map.mp (mem_file_groupByFile.mpr ⟨a, ha, rfl⟩)
    have hin (cmp : Component) (hc : cmp ∈ components)
        (hp : placeOf current (some base) cmp = g.file) :
        placed current (some base) cmp ∈ g.components := by
      rw [members_of_mem hg]
      exact List.mem_map_of_mem (List.mem_filter.mpr ⟨hc, by simpa using hp⟩)
    exact ⟨g, hg, hin a ha hfile.symm, hin b hm (he.symm.trans hfile.symm)⟩

theorem nodup_files_iff :
    ((groupByFile current (some base) components).map fun g => current.resolve g.file).Nodup ↔
      ∀ a ∈ components, ∀ b ∈ components, SameFile base a b → Alike a b := by
  have hfiles : (groupByFile current (some base) components).map (fun g => current.resolve g.file) =
      ((groupByFile current (some base) components).map Group.file).map current.resolve := by
    simp [Function.comp_def]
  rw [hfiles, List.nodup_map_iff_inj_on nodup_file_groupByFile]
  constructor
  · intro h a ha b hm hsame
    have he := h _ (mem_file_groupByFile.mpr ⟨a, ha, rfl⟩) _ (mem_file_groupByFile.mpr ⟨b, hm, rfl⟩)
      ((sameFile_iff hb habs current).mp hsame)
    exact ((placeOf_eq_iff hb habs).mp he).2
  · intro h x hx y hy he
    obtain ⟨a, ha, rfl⟩ := mem_file_groupByFile.mp hx
    obtain ⟨b, hm, rfl⟩ := mem_file_groupByFile.mp hy
    have hsame := (sameFile_iff hb habs current).mpr he
    exact (placeOf_eq_iff hb habs).mpr ⟨hsame, h a ha b hm hsame⟩

end Groups

open CommandLine

/-- The files of the modules that a run hydrates, one for each of its jobs. -/
def jobFiles (current input : Location) (inputIsFile : Bool) (groups : List Group) :
    List Location :=
  (selectGroups current input inputIsFile groups).map fun g => current.resolve g.file

theorem jobFiles_sublist (current input : Location) (inputIsFile : Bool) (groups : List Group) :
    (jobFiles current input inputIsFile groups).Sublist
      (groups.map fun g => current.resolve g.file) :=
  List.filter_sublist.map _

/-- All jobs for a file are selected by the file itself. -/
theorem jobFiles_of_file (current file : Location) (groups : List Group) :
    jobFiles current file true groups =
      (groups.map fun g => current.resolve g.file).filter (· = file) := by
  rw [jobFiles, selectGroups, List.filter_map]
  refine congrArg (List.map _) (List.filter_congr fun g _ => ?_)
  simp [Bool.beq_eq_decide_eq]

theorem nodup_iff_nodup_jobFiles (current : Location) (groups : List Group) :
    (∀ input inputIsFile, (jobFiles current input inputIsFile groups).Nodup) ↔
      (groups.map fun g => current.resolve g.file).Nodup := by
  constructor
  · intro h
    rw [List.nodup_iff_count_le_one]
    intro file
    have hcount := List.nodup_iff_count_le_one.mp (h file true) file
    rwa [jobFiles_of_file, List.count_filter (by simp)] at hcount
  · exact fun h input inputIsFile => h.sublist (jobFiles_sublist current input inputIsFile groups)

/-- Components are grouped together exactly if their paths lead to one file and are both resolved, or
name one location. So a file never has two jobs exactly if the components of one file are alike. -/
theorem one_group_iff (current : Location) {base : Location} (hb : base.Proper)
    (habs : base.isAbsolute = true) (components : List Component) :
    (∀ a ∈ components, ∀ b ∈ components,
      Together (groupByFile current (some base) components) (placed current (some base) a)
        (placed current (some base) b) ↔ SameFile base a b ∧ Alike a b) ∧
    ((∀ input inputIsFile,
      (jobFiles current input inputIsFile (groupByFile current (some base) components)).Nodup) ↔
        ∀ a ∈ components, ∀ b ∈ components, SameFile base a b → Alike a b) := by
  refine ⟨fun a ha b hm => ?_, ?_⟩
  · rw [together_iff hb habs ha hm, placeOf_eq_iff hb habs]
  · rw [nodup_iff_nodup_jobFiles, nodup_files_iff hb habs]

def upComponent : Component := { tag := "x-b", className := "XB", sourcePath := "/r/p/../a.py" }

def rootComponent : Component := { tag := "x-a", className := "XA", sourcePath := "/r/a.py" }

/-- A file whose absolute path is written with a parent segment is hydrated apart. -/
theorem one_group_iff_of_parent_segment :
    ({ slashes := 1, parts := ["r"] } : Location).Proper ∧
    ({ slashes := 1, parts := ["r"] } : Location).isAbsolute = true ∧
    SameFile { slashes := 1, parts := ["r"] } rootComponent upComponent ∧
    ¬ Together (groupByFile {} (some { slashes := 1, parts := ["r"] }) [rootComponent, upComponent])
      rootComponent upComponent ∧
    ∃ input inputIsFile, ¬ (jobFiles {} input inputIsFile (groupByFile {}
      (some { slashes := 1, parts := ["r"] }) [rootComponent, upComponent])).Nodup := by
  have hb : ({ slashes := 1, parts := ["r"] } : Location).Proper :=
    ⟨by decide, by simpa using ⟨by decide, by decide, by decide⟩⟩
  have hsame : SameFile { slashes := 1, parts := ["r"] } rootComponent upComponent := by
    unfold SameFile
    decide +kernel
  have hup : ¬ Settled upComponent := fun h => (h (by decide +kernel)).2 (by decide +kernel)
  have happart : ¬ Alike rootComponent upComponent := by
    rintro (⟨-, h⟩ | h)
    · exact hup h
    · exact absurd h (by decide +kernel)
  obtain ⟨htogether, hjobs⟩ := one_group_iff {} hb rfl [rootComponent, upComponent]
  have hroot : rootComponent ∈ [rootComponent, upComponent] := by simp
  have hother : upComponent ∈ [rootComponent, upComponent] := by simp
  refine ⟨hb, rfl, hsame, fun ht => ?_, ?_⟩
  · exact happart ((htogether _ hroot _ hother).mp ht).2
  · by_contra hall
    simp only [not_exists, not_not] at hall
    exact happart (hjobs.mp hall _ hroot _ hother hsame)

end Hydration
