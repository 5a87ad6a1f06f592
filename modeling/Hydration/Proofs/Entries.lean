import Mathlib.Data.List.Nodup

/-! Lists of entries, each with a key. Putting an entry in replaces the one with its key, which keeps its
place; only a new key comes last. -/

namespace Hydration.Entries

variable {κ ν : Type} [DecidableEq κ] {entries : List (κ × ν)} {key other : κ} {value : ν}

def put (entries : List (κ × ν)) (key : κ) (value : ν) : List (κ × ν) :=
  match entries with
  | [] => [(key, value)]
  | (k, v) :: rest => if k = key then (k, value) :: rest else (k, v) :: put rest key value

theorem put_of_not_mem (h : key ∉ entries.map Prod.fst) :
    put entries key value = entries ++ [(key, value)] := by
  induction entries with
  | nil => rfl
  | cons entry entries ih =>
    obtain ⟨k, v⟩ := entry
    rw [List.map_cons, List.mem_cons, not_or] at h
    rw [put, if_neg (Ne.symm h.1), ih h.2, List.cons_append]

theorem keys_put_of_mem (h : key ∈ entries.map Prod.fst) :
    (put entries key value).map Prod.fst = entries.map Prod.fst := by
  induction entries with
  | nil => simp at h
  | cons entry entries ih =>
    obtain ⟨k, v⟩ := entry
    rw [put]
    by_cases hk : k = key
    · rw [if_pos hk, List.map_cons, List.map_cons]
    · have hrest := (List.mem_cons.mp h).resolve_left (Ne.symm hk)
      rw [if_neg hk, List.map_cons, List.map_cons, ih hrest]

theorem nodup_put (h : (entries.map Prod.fst).Nodup) :
    ((put entries key value).map Prod.fst).Nodup := by
  by_cases hm : key ∈ entries.map Prod.fst
  · rwa [keys_put_of_mem hm]
  · rw [put_of_not_mem hm, List.map_append]
    apply List.nodup_append.mpr
    refine ⟨h, List.nodup_singleton key, ?_⟩
    rintro k hk other ho rfl
    have he : k = key := List.mem_singleton.mp ho
    exact hm (he ▸ hk)

theorem mem_of_mem_put {entry : κ × ν} (h : entry ∈ put entries key value) :
    entry = (key, value) ∨ entry ∈ entries := by
  induction entries with
  | nil => exact .inl (List.mem_singleton.mp h)
  | cons first entries ih =>
    obtain ⟨k, v⟩ := first
    rw [put] at h
    by_cases hk : k = key
    · rw [if_pos hk, hk, List.mem_cons] at h
      exact h.imp_right (List.mem_cons_of_mem _)
    · rw [if_neg hk, List.mem_cons] at h
      rcases h with rfl | h
      · exact .inr List.mem_cons_self
      · exact (ih h).imp_right (List.mem_cons_of_mem _)

theorem lookup_put [BEq κ] [LawfulBEq κ] : (put entries key value).lookup other =
    if other = key then some value else entries.lookup other := by
  induction entries with
  | nil =>
    by_cases h : other = key
    · simp [put, h]
    · simp [put, List.lookup_cons, beq_false_of_ne h, h]
  | cons entry entries ih =>
    obtain ⟨k, v⟩ := entry
    rw [put]
    by_cases hk : k = key
    · subst hk
      by_cases h : other = k
      · simp [h]
      · simp [List.lookup_cons, beq_false_of_ne h, h]
    · by_cases h : other = k
      · subst h
        simp [hk]
      · simp [hk, List.lookup_cons, beq_false_of_ne h, ih]

end Hydration.Entries
