import Hydration.Proofs.Indexing
import Hydration.Proofs.PathSpellings
import Mathlib.Data.Finset.Card
import Mathlib.Data.List.Induction
import Mathlib.Data.List.Perm.Basic

/-! What an index tells of the list of components that it was built from. Of several components with one
key the last one is found, at the place of the first one. The components of a file, the sequence of all
of them and their number follow the keys in the order in which these are first met. -/

namespace Hydration.Index

def keys (index : Index) : List (String × String) := index.entries.map Prod.fst

theorem keys_concat (components : List Component) (cmp : Component) :
    (ofComponents (components ++ [cmp])).keys =
      if keyOf cmp ∈ (ofComponents components).keys then (ofComponents components).keys
      else (ofComponents components).keys ++ [keyOf cmp] := by
  have hentries : (ofComponents (components ++ [cmp])).entries =
      Entries.put (ofComponents components).entries (keyOf cmp) cmp := by
    simp only [ofComponents, List.foldl_append, List.foldl_cons, List.foldl_nil, insert_eq]
  rw [keys, hentries]
  by_cases h : keyOf cmp ∈ (ofComponents components).keys
  · rw [if_pos h, Entries.keys_put_of_mem h, keys]
  · rw [if_neg h, Entries.put_of_not_mem h, List.map_append]
    rfl

theorem mem_keys_iff {components : List Component} {key : String × String} :
    key ∈ (ofComponents components).keys ↔ key ∈ components.map keyOf := by
  induction components using List.reverseRecOn with
  | nil => rfl
  | append_singleton components cmp ih =>
    rw [keys_concat, List.map_append, List.mem_append, ← ih]
    by_cases h : keyOf cmp ∈ (ofComponents components).keys
    · rw [if_pos h]
      constructor
      · exact .inl
      · rintro (hk | hk)
        · exact hk
        · exact List.mem_singleton.mp hk ▸ h
    · rw [if_neg h, List.mem_append]
      rfl

/-- The keys stand in the order of the components that have them first. -/
theorem pairwise_keys (components : List Component) :
    (ofComponents components).keys.Pairwise fun a b =>
      (components.map keyOf).idxOf a < (components.map keyOf).idxOf b := by
  induction components using List.reverseRecOn with
  | nil => exact .nil
  | append_singleton components cmp ih =>
    have hold : (ofComponents components).keys.Pairwise fun a b =>
        ((components ++ [cmp]).map keyOf).idxOf a < ((components ++ [cmp]).map keyOf).idxOf b := by
      refine ih.imp_of_mem fun ha hb hab => ?_
      rwa [List.map_append, List.idxOf_append_of_mem (mem_keys_iff.mp ha),
        List.idxOf_append_of_mem (mem_keys_iff.mp hb)]
    rw [keys_concat]
    by_cases h : keyOf cmp ∈ (ofComponents components).keys
    · rwa [if_pos h]
    · rw [if_neg h]
      refine List.pairwise_append.mpr ⟨hold, List.pairwise_singleton _ _, fun a ha b hb => ?_⟩
      obtain rfl := List.mem_singleton.mp hb
      have hlast : keyOf cmp ∉ components.map keyOf := fun hm => h (mem_keys_iff.mpr hm)
      rw [List.map_append, List.idxOf_append_of_mem (mem_keys_iff.mp ha),
        List.idxOf_append_of_notMem hlast]
      exact Nat.lt_add_right _ (List.idxOf_lt_length_of_mem (mem_keys_iff.mp ha))

theorem size_ofComponents (components : List Component) :
    (ofComponents components).size = (components.map keyOf).toFinset.card := by
  have hsame : (ofComponents components).keys.toFinset = (components.map keyOf).toFinset := by
    ext key
    rw [List.mem_toFinset, List.mem_toFinset, mem_keys_iff]
  have hnodup : (ofComponents components).keys.Nodup := (keyed_ofComponents components).nodup
  rw [← hsame, List.toFinset_card_of_nodup hnodup, size, keys, List.length_map]

/-- The place of the first component with the key of this one. -/
def firstPlace (components : List Component) (cmp : Component) : Nat :=
  (components.map keyOf).idxOf (keyOf cmp)

theorem pairwise_toList (components : List Component) :
    (ofComponents components).toList.Pairwise fun a b =>
      firstPlace components a < firstPlace components b := by
  have hkeys := List.pairwise_map.mp (pairwise_keys components)
  refine List.pairwise_map.mpr (hkeys.imp_of_mem fun {a b} ha hb hab => ?_)
  rwa [firstPlace, firstPlace, ← (keyed_ofComponents components).key_eq a ha,
    ← (keyed_ofComponents components).key_eq b hb]

section Files

variable {index : Index} {file other : String} {cmp : Component}

/-- The components of a file, in the order of all components. -/
theorem Keyed.ofFile_eq (h : index.Keyed) (file : String) : index.ofFile file =
    index.toList.filter fun cmp => Path.normalize cmp.sourcePath = Path.normalize file := by
  rw [ofFile, toList, List.filter_map]
  congr 1
  refine List.filter_congr fun e he => ?_
  have hk : e.1.1 = Path.normalize e.2.sourcePath := congrArg Prod.fst (h.key_eq e he)
  simp [hk, beq_eq_decide]

theorem Keyed.mem_ofFile_iff_toList (h : index.Keyed) : cmp ∈ index.ofFile file ↔
    cmp ∈ index.toList ∧ Path.normalize cmp.sourcePath = Path.normalize file := by
  rw [h.ofFile_eq, List.mem_filter, decide_eq_true_eq]

theorem Keyed.nodup_className (h : index.Keyed) (file : String) :
    ((index.ofFile file).map Component.className).Nodup := by
  refine (h.nodup_ofFile file).map_on fun a ha b hb hname => ?_
  have hfound := h.get?_eq_some_iff.mpr ⟨ha, hname⟩
  have hother := h.get?_eq_some_iff.mpr ⟨hb, rfl⟩
  exact Option.some.inj (hfound.symm.trans hother)

theorem Keyed.disjoint_ofFile (h : index.Keyed)
    (hne : Path.normalize file ≠ Path.normalize other) :
    (index.ofFile file).Disjoint (index.ofFile other) := by
  intro cmp hf ho
  exact hne ((h.mem_ofFile_iff_toList.mp hf).2.symm.trans (h.mem_ofFile_iff_toList.mp ho).2)

end Files

/-- Files in normal form, each once, and among them all files of the components. -/
structure ListsFiles (components : List Component) (files : List String) : Prop where
  nodup : files.Nodup
  normal : ∀ file ∈ files, Path.normalize file = file
  complete : ∀ cmp ∈ components, Path.normalize cmp.sourcePath ∈ files

theorem exists_listsFiles (components : List Component) : ∃ files, ListsFiles components files := by
  refine ⟨(components.map fun cmp => Path.normalize cmp.sourcePath).dedup, List.nodup_dedup _, ?_, ?_⟩
  · intro file hf
    obtain ⟨cmp, -, rfl⟩ := List.mem_map.mp (List.mem_dedup.mp hf)
    exact Path.Location.normalize_normalize cmp.sourcePath
  · intro cmp hc
    exact List.mem_dedup.mpr (List.mem_map_of_mem hc)

/-- The components of the files, one file after another, are all components. -/
theorem toList_perm {components : List Component} {files : List String}
    (h : ListsFiles components files) :
    (ofComponents components).toList.Perm (files.flatMap (ofComponents components).ofFile) := by
  have hk := keyed_ofComponents components
  have hall : (ofComponents components).toList.Nodup :=
    (pairwise_toList components).imp fun hlt he => absurd (he ▸ hlt) (Nat.lt_irrefl _)
  have hfiles : (files.flatMap (ofComponents components).ofFile).Nodup := by
    refine List.nodup_flatMap.mpr ⟨fun file _ => hk.nodup_ofFile file, ?_⟩
    refine h.nodup.imp_of_mem fun {file other} hf ho hne => hk.disjoint_ofFile ?_
    rwa [h.normal file hf, h.normal other ho]
  refine (List.perm_ext_iff_of_nodup hall hfiles).mpr fun cmp => ?_
  rw [List.mem_flatMap]
  constructor
  · intro hc
    have hm := mem_of_mem_ofFile (hk.mem_ofFile_iff_toList.mpr ⟨hc, rfl⟩)
    have hfile := h.complete cmp hm
    exact ⟨_, hfile, hk.mem_ofFile_iff_toList.mpr ⟨hc, (h.normal _ hfile).symm⟩⟩
  · rintro ⟨file, -, hc⟩
    exact (hk.mem_ofFile_iff_toList.mp hc).1

/-- An index of any list of components. For a file and a class name the last component with this key is
found, if there is one. The components of a file are those that are found for it, each class name once, in
the order in which their keys are first met. All components are those of all files together, and no two
files share one. There are as many as there are keys. -/
theorem index_of_components (components : List Component) :
    let index := ofComponents components
    (∀ file name last, index.get? file name = some last ↔
      keyOf last = (Path.normalize file, name) ∧ ∃ front back, components = front ++ last :: back ∧
        ∀ other ∈ back, keyOf other ≠ (Path.normalize file, name)) ∧
    (∀ file name, index.get? file name = none ↔
      (Path.normalize file, name) ∉ components.map keyOf) ∧
    (∀ file cmp, cmp ∈ index.ofFile file ↔ ∃ name, index.get? file name = some cmp) ∧
    (∀ file, ((index.ofFile file).map Component.className).Nodup ∧
      (index.ofFile file).Pairwise fun a b => firstPlace components a < firstPlace components b) ∧
    (∃ files, ListsFiles components files) ∧
    (∀ files, ListsFiles components files → index.toList.Perm (files.flatMap index.ofFile)) ∧
    (∀ file other, Path.normalize file ≠ Path.normalize other →
      (index.ofFile file).Disjoint (index.ofFile other)) ∧
    index.size = (components.map keyOf).toFinset.card := by
  intro index
  have hk : index.Keyed := keyed_ofComponents components
  refine ⟨fun file name last => get?_eq_some_iff_last, ?_, ?_, ?_, exists_listsFiles components,
    fun files => toList_perm, fun file other => hk.disjoint_ofFile, size_ofComponents components⟩
  · intro file name
    rw [get?, lookup_ofComponents, List.find?_eq_none, List.mem_map]
    simp
  · intro file cmp
    constructor
    · intro hc
      exact ⟨cmp.className, hk.get?_eq_some_iff.mpr ⟨hc, rfl⟩⟩
    · rintro ⟨name, hfound⟩
      exact (hk.get?_eq_some_iff.mp hfound).1
  · intro file
    refine ⟨hk.nodup_className file, ?_⟩
    rw [hk.ofFile_eq]
    exact (pairwise_toList components).filter _

def firstOfTwo : Component := { tag := "a-a", className := "A", sourcePath := "a.py" }

def otherClass : Component := { tag := "b-b", className := "B", sourcePath := "x/../b.py" }

def secondOfTwo : Component := { tag := "c-c", className := "A", sourcePath := "./x\\../a.py" }

/-- The second of two components with one key is found, and it counts once. -/
theorem index_of_components_of_two :
    ListsFiles [firstOfTwo, otherClass, secondOfTwo] ["b.py", "a.py"] ∧
    (ofComponents [firstOfTwo, otherClass, secondOfTwo]).get? "a.py" "A" = some secondOfTwo ∧
    (ofComponents [firstOfTwo, otherClass, secondOfTwo]).toList.Perm [otherClass, secondOfTwo] := by
  have hfiles : ListsFiles [firstOfTwo, otherClass, secondOfTwo] ["b.py", "a.py"] :=
    ⟨by decide, by decide +kernel, by decide +kernel⟩
  have hkey : keyOf secondOfTwo = (Path.normalize "a.py", "A") := by decide +kernel
  obtain ⟨hget, -, -, -, -, hperm, -⟩ :=
    index_of_components [firstOfTwo, otherClass, secondOfTwo]
  refine ⟨hfiles, (hget _ _ _).mpr ⟨hkey, [firstOfTwo, otherClass], [], rfl, by simp⟩, ?_⟩
  have hb : (ofComponents [firstOfTwo, otherClass, secondOfTwo]).ofFile "b.py" = [otherClass] := by
    decide +kernel
  have ha : (ofComponents [firstOfTwo, otherClass, secondOfTwo]).ofFile "a.py" = [secondOfTwo] := by
    decide +kernel
  simpa [ha, hb] using hperm _ hfiles

end Hydration.Index
