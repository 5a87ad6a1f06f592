import Hydration.Proofs.Locations

/-! Normal forms of locations. A location and the text that it was read from have one normal form, and
the normal form of an absolute location with a single leading slash is the text of what it resolves
to. -/

namespace Hydration.Path

theorem foldl_enter_filter (rooted : Bool) (segments path : List (List Char)) :
    (segments.filter fun s => s != [] && s != ['.']).foldl (enter rooted) path =
      segments.foldl (enter rooted) path := by
  induction segments generalizing path with
  | nil => rfl
  | cons segment segments ih =>
    by_cases h : segment = [] ∨ segment = ['.']
    · have hout : (segment != [] && segment != ['.']) = false := by
        rcases h with rfl | rfl <;> rfl
      have hstay : enter rooted path segment = path := if_pos h
      rw [List.filter_cons, if_neg (by simp [hout]), List.foldl_cons, hstay, ih]
    · have hin : (segment != [] && segment != ['.']) = true := by simpa using h
      rw [List.filter_cons, if_pos hin, List.foldl_cons, List.foldl_cons, ih]

namespace Location

def normalForm (l : Location) : List Char :=
  let text := List.replicate l.slashes '/' ++
    joinSegments (collapse (l.slashes != 0) (l.parts.map String.toList))
  if text.isEmpty then ['.'] else text

theorem normalChars_eq (path : String) : normalChars path.toList = (ofText path).normalForm := by
  have hback (parts : List (List Char)) : (parts.map String.ofList).map String.toList = parts := by
    simp [Function.comp_def]
  simp only [normalChars, normalForm, ofText, collapse, hback, foldl_enter_filter]
  rfl

theorem normalChars_toText {l : Location} (h : l.Proper) :
    normalChars l.toText.toList = l.normalForm := by
  rw [normalChars_eq, ofText_toText h]

theorem mem_of_mem_ofText {path part : String} {c : Char} (hp : part ∈ (ofText path).parts)
    (hc : c ∈ part.toList) : c ∈ path.toList := by
  obtain ⟨segment, hs, rfl⟩ := List.mem_map.mp hp
  exact (mem_of_mem_segments (List.mem_of_mem_filter hs) (by simpa using hc)).1

theorem mem_of_mem_intercalate {parts : List String} {c : Char}
    (h : c ∈ ("/".intercalate parts).toList) : c = '/' ∨ ∃ part ∈ parts, c ∈ part.toList := by
  induction parts with
  | nil => simp at h
  | cons part parts ih =>
    by_cases hp : parts = []
    · subst hp
      exact .inr ⟨part, List.mem_cons_self, by simpa using h⟩
    · rw [String.intercalate_cons_of_ne_nil hp] at h
      simp only [String.toList_append, List.mem_append] at h
      rcases h with (h | h) | h
      · exact .inr ⟨part, List.mem_cons_self, h⟩
      · exact .inl (by simpa using h)
      · exact (ih h).imp_right fun ⟨p, hm, hc⟩ => ⟨p, List.mem_cons_of_mem _ hm, hc⟩

theorem mem_of_mem_toText {l : Location} {c : Char} (h : c ∈ l.toText.toList) :
    c = '/' ∨ c = '.' ∨ ∃ part ∈ l.parts, c ∈ part.toList := by
  simp only [toText] at h
  split at h
  · exact .inr (.inl (by simpa using h))
  · rw [String.toList_append, List.mem_append, String.toList_ofList] at h
    rcases h with h | h
    · exact .inl (List.eq_of_mem_replicate h)
    · exact (mem_of_mem_intercalate h).imp_right .inr

theorem backslash_not_mem_toText {l : Location} (h : ∀ part ∈ l.parts, '\\' ∉ part.toList) :
    '\\' ∉ l.toText.toList := by
  intro hm
  rcases mem_of_mem_toText hm with hc | hc | ⟨part, hp, hc⟩
  · exact absurd hc (by decide)
  · exact absurd hc (by decide)
  · exact h part hp hc

theorem unifySlashes_of_plain {cs : List Char} (h : '\\' ∉ cs) : unifySlashes cs = cs := by
  refine (List.map_congr_left fun c hc => ?_).trans (List.map_id _)
  have hne : c ≠ '\\' := fun he => h (he ▸ hc)
  simp [hne]

theorem normalize_eq {path : String} (h : '\\' ∉ path.toList) :
    normalize path = String.ofList (normalChars path.toList) := by
  rw [normalize, unifySlashes_of_plain h]

/-- A path and the text of the location that it names are looked up under one key. -/
theorem normalize_toText_ofText {path : String} (h : '\\' ∉ path.toList) :
    normalize (ofText path).toText = normalize path := by
  have hplain := backslash_not_mem_toText fun part hp hc => h (mem_of_mem_ofText hp hc)
  rw [normalize_eq hplain, normalize_eq h, normalChars_toText (proper_ofText path), normalChars_eq]

theorem name_toList_ne {part : String} (h : IsName part) :
    ¬(part.toList = [] ∨ part.toList = ['.']) := by
  rintro (he | he)
  · exact h.ne_empty (by simpa using he)
  · exact h.ne_dot (String.toList_inj.mp (by simpa using he))

theorem up_not_mem_climb {climbed : List String} {part : String} (h : ".." ∉ climbed) :
    ".." ∉ climb climbed part := by
  unfold climb
  split
  · exact fun hm => h (List.mem_of_mem_tail hm)
  · rename_i hne
    intro hm
    rcases List.mem_cons.mp hm with rfl | hm
    · exact hne (beq_self_eq_true _)
    · exact h hm

/-- Below a root, entering the segments of names is climbing along them: no parent segment is ever left
on the way. -/
theorem enter_map_toList {climbed : List String} {part : String} (hp : IsName part)
    (h : ".." ∉ climbed) :
    enter true (climbed.map String.toList) part.toList =
      (climb climbed part).map String.toList := by
  unfold enter climb
  rw [if_neg (name_toList_ne hp)]
  by_cases hup : part = ".."
  · subst hup
    cases climbed with
    | nil => rfl
    | cons last rest =>
      have hlast : last.toList ≠ ['.', '.'] := by
        intro he
        have hl : last = ".." := String.toList_inj.mp he
        exact h (hl ▸ List.mem_cons_self)
      simp [hlast]
  · have hne : part.toList ≠ ['.', '.'] := fun he => hup (String.toList_inj.mp he)
    simp [hup, hne]

theorem foldl_enter_eq_climb {parts : List String} (climbed : List String)
    (hp : ∀ part ∈ parts, IsName part) (h : ".." ∉ climbed) :
    (parts.map String.toList).foldl (enter true) (climbed.map String.toList) =
      (parts.foldl climb climbed).map String.toList := by
  induction parts generalizing climbed with
  | nil => rfl
  | cons part parts ih =>
    rw [List.map_cons, List.foldl_cons, List.foldl_cons,
      enter_map_toList (hp part List.mem_cons_self) h]
    exact ih _ (fun p hm => hp p (List.mem_cons_of_mem _ hm)) (up_not_mem_climb h)

theorem joinSegments_map (parts : List String) :
    joinSegments (parts.map String.toList) = ("/".intercalate parts).toList := by
  induction parts with
  | nil => rfl
  | cons part parts ih =>
    cases parts with
    | nil => simp [joinSegments]
    | cons next rest =>
      have hne : next :: rest ≠ [] := List.cons_ne_nil next rest
      rw [String.intercalate_cons_of_ne_nil hne, String.toList_append, ← ih]
      simp [joinSegments]

theorem resolve_of_isAbsolute {l : Location} (h : l.isAbsolute = true) (current : Location) :
    resolve current l = { slashes := 1, parts := (l.parts.foldl climb []).reverse } := by
  simp [resolve, join, h]

theorem proper_resolve_of_isAbsolute {l : Location} (hl : l.Proper) (h : l.isAbsolute = true)
    (current : Location) : (resolve current l).Proper := by
  rw [resolve_of_isAbsolute h, ← resolve_of_isAbsolute h {}]
  exact Proper.resolve ⟨Nat.zero_le 2, by simp⟩ hl

/-- The normal form of a location with one slash in front is the text of what it resolves to. -/
theorem normalForm_eq_resolve {l : Location} (hl : l.Proper) (hs : l.slashes = 1)
    (current : Location) : l.normalForm = (resolve current l).toText.toList := by
  have habsolute : l.isAbsolute = true := by simp [isAbsolute, hs]
  have hproper := proper_resolve_of_isAbsolute hl habsolute current
  have hclimb : collapse true (l.parts.map String.toList) =
      (l.parts.foldl climb []).reverse.map String.toList := by
    have hf : (l.parts.map String.toList).foldl (enter true) [] =
        (l.parts.foldl climb []).map String.toList :=
      foldl_enter_eq_climb [] hl.parts List.not_mem_nil
    rw [collapse, List.map_reverse, hf]
  rw [toList_toText hproper (.inl (Nat.succ_ne_zero 0)), resolve_of_isAbsolute habsolute,
    ← joinSegments_map]
  simp [normalForm, hs, hclimb]

end Location

end Hydration.Path
