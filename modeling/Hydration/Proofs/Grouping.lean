import Mathlib.Data.List.Induction
import Mathlib.Data.List.Nodup

/-! Grouping by a key. Adding things to groups one after another gives one group for each key. The groups
stand in the order in which their keys are first met, and each holds its things in their order. -/

namespace Hydration.Grouping

variable {α κ ι : Type} [DecidableEq κ]

theorem eraseDups_concat (keys : List κ) (key : κ) :
    (keys ++ [key]).eraseDups = if key ∈ keys then keys.eraseDups else keys.eraseDups ++ [key] := by
  rw [List.eraseDups_append]
  by_cases h : key ∈ keys
  · simp [h, List.removeAll]
  · simp [h, List.removeAll, List.eraseDups_cons]

theorem nodup_eraseDups (keys : List κ) : keys.eraseDups.Nodup := by
  induction keys using List.reverseRecOn with
  | nil => simp
  | append_singleton keys key ih =>
    rw [eraseDups_concat]
    by_cases h : key ∈ keys
    · rwa [if_pos h]
    · rw [if_neg h]
      apply List.nodup_append.mpr
      refine ⟨ih, List.nodup_singleton key, ?_⟩
      rintro x hx y hy rfl
      have hkey : x = key := List.mem_singleton.mp hy
      exact h (hkey ▸ List.mem_eraseDups.mp hx)

/-- A group gets one more thing; the first thing with a key makes a group. -/
def add (groups : List (κ × List ι)) (key : κ) (item : ι) : List (κ × List ι) :=
  match groups with
  | [] => [(key, [item])]
  | (k, items) :: rest =>
    if k = key then (k, items ++ [item]) :: rest else (k, items) :: add rest key item

theorem add_of_new {keys : List κ} (items : κ → List ι) {key : κ} (item : ι) (h : key ∉ keys) :
    add (keys.map fun k => (k, items k)) key item =
      keys.map (fun k => (k, items k)) ++ [(key, [item])] := by
  induction keys with
  | nil => rfl
  | cons k keys ih =>
    rw [List.mem_cons, not_or] at h
    simp [add, Ne.symm h.1, ih h.2]

theorem add_of_old {keys : List κ} (hn : keys.Nodup) (items : κ → List ι) {key : κ} (item : ι)
    (h : key ∈ keys) :
    add (keys.map fun k => (k, items k)) key item =
      keys.map fun k => (k, if k = key then items k ++ [item] else items k) := by
  induction keys with
  | nil => simp at h
  | cons k keys ih =>
    obtain ⟨hk, hn⟩ := List.nodup_cons.mp hn
    by_cases he : k = key
    · subst he
      have hrest : keys.map (fun j => (j, if j = k then items j ++ [item] else items j)) =
          keys.map fun j => (j, items j) := by
        refine List.map_congr_left fun j hj => ?_
        have hne : j ≠ k := fun he => hk (he ▸ hj)
        rw [if_neg hne]
      simp [add, hrest]
    · have hmem := (List.mem_cons.mp h).resolve_left (Ne.symm he)
      simp [add, he, ih hn hmem]

theorem add_perm (groups : List (κ × List ι)) (key : κ) (item : ι) :
    ((add groups key item).flatMap Prod.snd).Perm (groups.flatMap Prod.snd ++ [item]) := by
  induction groups with
  | nil => rfl
  | cons group groups ih =>
    obtain ⟨k, items⟩ := group
    rw [add]
    by_cases h : k = key
    · rw [if_pos h, List.flatMap_cons, List.flatMap_cons, List.append_assoc, List.append_assoc]
      exact List.perm_append_comm.append_left _
    · rw [if_neg h, List.flatMap_cons, List.flatMap_cons, List.append_assoc]
      exact ih.append_left _

section Grouped

variable (key : α → κ) (item : α → ι)

def itemsAt (xs : List α) (k : κ) : List ι := (xs.filter fun x => key x = k).map item

def grouped (xs : List α) : List (κ × List ι) :=
  (xs.map key).eraseDups.map fun k => (k, itemsAt key item xs k)

theorem itemsAt_concat (xs : List α) (x : α) (k : κ) :
    itemsAt key item (xs ++ [x]) k =
      if k = key x then itemsAt key item xs k ++ [item x] else itemsAt key item xs k := by
  by_cases h : k = key x
  · simp [itemsAt, h]
  · simp [itemsAt, h, Ne.symm h]

theorem add_grouped (xs : List α) (x : α) :
    add (grouped key item xs) (key x) (item x) = grouped key item (xs ++ [x]) := by
  simp only [grouped, List.map_append, List.map_cons, List.map_nil, eraseDups_concat, itemsAt_concat]
  by_cases h : key x ∈ xs.map key
  · rw [if_pos h, add_of_old (nodup_eraseDups _) _ _ (List.mem_eraseDups.mpr h)]
  · have hnone : itemsAt key item xs (key x) = [] := by
      simpa [itemsAt] using h
    rw [if_neg h, add_of_new _ _ (mt List.mem_eraseDups.mp h), List.map_append]
    congr 1
    · refine List.map_congr_left fun k hk => ?_
      have hne : k ≠ key x := fun he => h (he ▸ List.mem_eraseDups.mp hk)
      rw [if_neg hne]
    · simp [hnone]

theorem foldl_add (xs : List α) :
    xs.foldl (fun groups x => add groups (key x) (item x)) [] = grouped key item xs := by
  induction xs using List.reverseRecOn with
  | nil => rfl
  | append_singleton xs x ih => rw [List.foldl_append, ih, List.foldl_cons, List.foldl_nil, add_grouped]

theorem grouped_perm (xs : List α) :
    ((grouped key item xs).flatMap Prod.snd).Perm (xs.map item) := by
  induction xs using List.reverseRecOn with
  | nil => rfl
  | append_singleton xs x ih =>
    rw [← add_grouped, List.map_append]
    exact (add_perm _ _ _).trans (ih.append_right _)

end Grouped

end Hydration.Grouping
