import Hydration.Index
import Hydration.Proofs.Entries

/-! An index by its keys. Each key stands once and is that of its component, and of several
components with one key the last one is found. -/

namespace Hydration.Index

section Entries

variable {entries : List ((String × String) × Component)} {key other : String × String}
  {cmp : Component}

theorem insert_eq : insert entries key cmp = Entries.put entries key cmp := by
  induction entries with
  | nil => rfl
  | cons entry entries ih =>
    obtain ⟨k, c⟩ := entry
    rw [insert, Entries.put, ih]

theorem lookup_eq_some_iff_mem (hn : (entries.map Prod.fst).Nodup) :
    entries.lookup key = some cmp ↔ (key, cmp) ∈ entries := by
  rw [List.lookup_eq_some_iff]
  constructor
  · rintro ⟨front, back, rfl, -⟩
    simp
  · intro h
    obtain ⟨front, back, rfl⟩ := List.append_of_mem h
    refine ⟨front, back, rfl, ?_⟩
    intro e he
    rw [List.map_append, List.map_cons, List.nodup_append] at hn
    have hne := hn.2.2 e.1 (List.mem_map_of_mem he) key List.mem_cons_self
    simpa using hne.symm

end Entries

/-- Every key stands once and is that of its component. -/
structure Keyed (index : Index) : Prop where
  nodup : (index.entries.map Prod.fst).Nodup
  key_eq : ∀ e ∈ index.entries, e.1 = keyOf e.2

theorem Keyed.insert {entries : List ((String × String) × Component)} (h : Keyed ⟨entries⟩)
    (cmp : Component) : Keyed ⟨Index.insert entries (keyOf cmp) cmp⟩ := by
  rw [insert_eq]
  constructor
  · exact Entries.nodup_put h.nodup
  · intro e he
    rcases Entries.mem_of_mem_put he with rfl | he
    · rfl
    · exact h.key_eq e he

theorem keyed_ofComponents (components : List Component) : (ofComponents components).Keyed := by
  have go (entries : List ((String × String) × Component)) (h : Keyed ⟨entries⟩) :
      Keyed ⟨components.foldl (fun entries cmp => Index.insert entries (keyOf cmp) cmp) entries⟩ := by
    induction components generalizing entries with
    | nil => exact h
    | cons cmp components ih => exact ih _ (h.insert cmp)
  exact go [] ⟨by simp, by simp⟩

section Lookup

variable {index : Index} {file name : String} {cmp : Component}

theorem Keyed.mem_ofFile_iff (h : index.Keyed) :
    cmp ∈ index.ofFile file ↔ ((Path.normalize file, cmp.className), cmp) ∈ index.entries := by
  simp only [ofFile, List.mem_map, List.mem_filter, beq_iff_eq]
  constructor
  · rintro ⟨⟨key, c⟩, ⟨he, hk⟩, rfl⟩
    have hname : key.2 = c.className := congrArg Prod.snd (h.key_eq _ he)
    rw [← hk, ← hname]
    exact he
  · intro he
    exact ⟨_, ⟨he, rfl⟩, rfl⟩

/-- What is found under a class name is the one component of the file for that class. -/
theorem Keyed.get?_eq_some_iff (h : index.Keyed) :
    index.get? file name = some cmp ↔ cmp ∈ index.ofFile file ∧ cmp.className = name := by
  rw [h.mem_ofFile_iff, get?, lookup_eq_some_iff_mem h.nodup]
  constructor
  · intro he
    have hn : name = cmp.className := congrArg Prod.snd (h.key_eq _ he)
    exact ⟨hn ▸ he, hn.symm⟩
  · rintro ⟨he, rfl⟩
    exact he

theorem Keyed.nodup_ofFile (h : index.Keyed) (file : String) : (index.ofFile file).Nodup := by
  have hk : (index.entries.map Prod.snd).map keyOf = index.entries.map Prod.fst := by
    rw [List.map_map]
    exact List.map_congr_left fun e he => (h.key_eq e he).symm
  have hn : (index.entries.map Prod.snd).Nodup := .of_map keyOf (hk ▸ h.nodup)
  exact hn.sublist (List.filter_sublist.map Prod.snd)

end Lookup

theorem lookup_ofComponents (components : List Component) (key : String × String) :
    (ofComponents components).entries.lookup key =
      components.reverse.find? fun cmp => keyOf cmp = key := by
  have go (entries : List ((String × String) × Component)) :
      (components.foldl (fun entries cmp => Index.insert entries (keyOf cmp) cmp) entries).lookup key =
        (components.reverse.find? fun cmp => keyOf cmp = key).or (entries.lookup key) := by
    induction components generalizing entries with
    | nil => simp
    | cons cmp components ih =>
      rw [List.foldl_cons, ih, insert_eq, Entries.lookup_put, List.reverse_cons, List.find?_append, Option.or_assoc]
      by_cases h : keyOf cmp = key
      · simp [h]
      · simp [h, Ne.symm h]
  have hall := go []
  rwa [List.lookup_nil, Option.or_none] at hall

theorem get?_append (front back : List Component) (file name : String) :
    (ofComponents (front ++ back)).get? file name =
      ((ofComponents back).get? file name).or ((ofComponents front).get? file name) := by
  simp only [get?, lookup_ofComponents, List.reverse_append, List.find?_append]

theorem exists_mem_of_get? {components : List Component} {file name : String} {cmp : Component}
    (h : (ofComponents components).get? file name = some cmp) :
    cmp ∈ components ∧ keyOf cmp = (Path.normalize file, name) := by
  rw [get?, lookup_ofComponents] at h
  have hk := List.find?_some h
  exact ⟨List.mem_reverse.mp (List.mem_of_find?_eq_some h), by simpa using hk⟩

theorem mem_of_mem_ofFile {components : List Component} {file : String} {cmp : Component}
    (h : cmp ∈ (ofComponents components).ofFile file) : cmp ∈ components := by
  have hfound := (keyed_ofComponents components).get?_eq_some_iff.mpr ⟨h, rfl⟩
  exact (exists_mem_of_get? hfound).1

/-- The component that is found is the last one with the key. -/
theorem get?_eq_some_iff_last {components : List Component} {file name : String} {last : Component} :
    (ofComponents components).get? file name = some last ↔
      keyOf last = (Path.normalize file, name) ∧ ∃ front back,
        components = front ++ last :: back ∧
          ∀ other ∈ back, keyOf other ≠ (Path.normalize file, name) := by
  rw [get?, lookup_ofComponents, List.find?_eq_some_iff_append, decide_eq_true_eq]
  refine and_congr_right fun _ => ?_
  constructor
  · rintro ⟨back, front, hr, hb⟩
    refine ⟨front.reverse, back.reverse, ?_, fun other ho => ?_⟩
    · have hc := congrArg List.reverse hr
      simpa using hc
    · simpa using hb other (List.mem_reverse.mp ho)
  · rintro ⟨front, back, rfl, hb⟩
    exact ⟨back.reverse, front.reverse, by simp, fun other ho => by simpa using hb other (by simpa using ho)⟩

theorem exists_get?_of_mem {components : List Component} {component : Component}
    (h : component ∈ components) {file : String}
    (hf : Path.normalize component.sourcePath = Path.normalize file) :
    ∃ last, (ofComponents components).get? file component.className = some last := by
  rw [get?, lookup_ofComponents, ← Option.isSome_iff_exists, List.find?_isSome]
  exact ⟨component, List.mem_reverse.mpr h, by simp [keyOf, hf]⟩

end Hydration.Index
