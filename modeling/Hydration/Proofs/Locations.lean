import Hydration.CommandLine.Command
import Hydration.Proofs.Success

/-! Locations and their texts. The parts of a location that was read from a text are names, and such a
location is read back from its own text. Two modules have one destination when their names go by one
stem and, where no folder for the results is given, when they stand in one folder. -/

namespace Hydration.Path

/-- A slash opens a segment, and any other character belongs to the first one. -/
theorem segments_cons (c : Char) (cs : List Char) :
    (c = '/' ∧ segments (c :: cs) = [] :: segments cs) ∨
      (c ≠ '/' ∧ ∃ first rest, segments cs = first :: rest ∧
        segments (c :: cs) = (c :: first) :: rest) := by
  rw [segments, List.splitOnP_cons_eq_if_modifyHead, segments]
  by_cases hc : c = '/'
  · exact .inl ⟨hc, if_pos (beq_iff_eq.mpr hc)⟩
  · rw [if_neg (mt beq_iff_eq.mp hc)]
    obtain ⟨first, rest, hs⟩ := List.exists_cons_of_ne_nil (List.splitOnP_ne_nil (· == '/') cs)
    exact .inr ⟨hc, first, rest, hs, by rw [hs, List.modifyHead_cons]⟩

theorem mem_of_mem_segments {cs segment : List Char} {c : Char} (hs : segment ∈ segments cs)
    (hc : c ∈ segment) : c ∈ cs ∧ c ≠ '/' := by
  induction cs generalizing segment with
  | nil =>
    obtain rfl : segment = [] := by simpa [segments] using hs
    exact absurd hc List.not_mem_nil
  | cons d cs ih =>
    have hlater {s : List Char} (hm : s ∈ segments cs) (hd : c ∈ s) : c ∈ d :: cs ∧ c ≠ '/' :=
      ⟨List.mem_cons_of_mem d (ih hm hd).1, (ih hm hd).2⟩
    rcases segments_cons d cs with ⟨-, hcons⟩ | ⟨hne, first, rest, hfirst, hcons⟩
    · rw [hcons] at hs
      rcases List.mem_cons.mp hs with rfl | hs
      · exact absurd hc List.not_mem_nil
      · exact hlater hs hc
    · rw [hcons] at hs
      rcases List.mem_cons.mp hs with rfl | hs
      · rcases List.mem_cons.mp hc with rfl | hc
        · exact ⟨List.mem_cons_self, hne⟩
        · exact hlater (hfirst ▸ List.mem_cons_self) hc
      · exact hlater (hfirst ▸ List.mem_cons_of_mem first hs) hc

theorem exists_segment_of_mem {cs : List Char} {c : Char} (hc : c ∈ cs) (hne : c ≠ '/') :
    ∃ segment ∈ segments cs, c ∈ segment := by
  induction cs with
  | nil => exact absurd hc List.not_mem_nil
  | cons d cs ih =>
    rcases segments_cons d cs with ⟨rfl, hcons⟩ | ⟨-, first, rest, hfirst, hcons⟩
    · obtain ⟨segment, hs, hm⟩ := ih (List.mem_of_ne_of_mem hne hc)
      exact ⟨segment, hcons ▸ List.mem_cons_of_mem _ hs, hm⟩
    · rw [hcons]
      rcases List.mem_cons.mp hc with rfl | hc
      · exact ⟨_, List.mem_cons_self, List.mem_cons_self⟩
      · obtain ⟨segment, hs, hm⟩ := ih hc
        rw [hfirst] at hs
        rcases List.mem_cons.mp hs with rfl | hs
        · exact ⟨_, List.mem_cons_self, List.mem_cons_of_mem _ hm⟩
        · exact ⟨segment, List.mem_cons_of_mem _ hs, hm⟩

theorem segments_slashes (n : Nat) (cs : List Char) :
    segments (List.replicate n '/' ++ cs) = List.replicate n [] ++ segments cs := by
  induction n with
  | zero => rfl
  | succ n ih =>
    rw [segments, List.replicate_succ, List.cons_append, List.splitOnP_cons_eq_if_modifyHead,
      if_pos (beq_self_eq_true _), ← segments, ih]
    rfl

theorem segments_intercalate {parts : List String} (hne : parts ≠ [])
    (h : ∀ part ∈ parts, '/' ∉ part.toList) :
    segments ("/".intercalate parts).toList = parts.map String.toList := by
  have hs : (['/'].intercalate (parts.map String.toList)).splitOnP (· == '/') =
      parts.map String.toList :=
    List.splitOn_intercalate '/' (by simpa using h) (by simpa using hne)
  rw [segments, String.toList_intercalate]
  exact hs

theorem leadingSlashes_le (cs : List Char) : leadingSlashes cs ≤ 2 := by
  unfold leadingSlashes
  split <;> omega

theorem leadingSlashes_of_name {n : Nat} {cs : List Char} (hn : n ≤ 2) (hc : cs.head? ≠ some '/') :
    leadingSlashes (List.replicate n '/' ++ cs) = n := by
  have hcs : cs = [] ∨ ∃ c rest, cs = c :: rest ∧ c ≠ '/' := by
    cases cs with
    | nil => exact .inl rfl
    | cons c rest => exact .inr ⟨c, rest, rfl, by simpa using hc⟩
  obtain rfl | ⟨c, rest, rfl, hne⟩ := hcs
  · match n with
    | 0 | 1 | 2 => rfl
  · match n with
    | 0 | 1 | 2 => simp [leadingSlashes, hne]

namespace Location

/-- What a file or a folder can be called, in a path that leads to it. -/
structure IsName (part : String) : Prop where
  ne_empty : part ≠ ""
  ne_dot : part ≠ "."
  slash_not_mem : '/' ∉ part.toList

structure Proper (l : Location) : Prop where
  slashes : l.slashes ≤ 2
  parts : ∀ part ∈ l.parts, IsName part

theorem proper_ofText (path : String) : (ofText path).Proper := by
  refine ⟨leadingSlashes_le _, fun part hp => ?_⟩
  obtain ⟨segment, hs, rfl⟩ := List.mem_map.mp hp
  obtain ⟨hs, hne⟩ := List.mem_filter.mp hs
  simp only [Bool.and_eq_true, bne_iff_ne] at hne
  refine ⟨?_, ?_, ?_⟩
  · simpa [← String.toList_inj] using hne.1
  · simpa [← String.toList_inj] using hne.2
  · exact fun hc => (mem_of_mem_segments hs (by simpa using hc)).2 rfl

/-- A null character of a path stands in one of its parts. -/
theorem hasNull_ofText {path : String} : (ofText path).hasNull = true ↔ '\x00' ∈ path.toList := by
  simp only [hasNull, ofText, List.any_map, List.any_eq_true, List.mem_filter, Function.comp_apply,
    String.toList_ofList, List.contains_iff_mem]
  constructor
  · rintro ⟨segment, ⟨hs, -⟩, hm⟩
    exact (mem_of_mem_segments hs hm).1
  · intro h
    obtain ⟨segment, hs, hm⟩ := exists_segment_of_mem h (by decide)
    refine ⟨segment, ⟨hs, ?_⟩, hm⟩
    have hempty : segment ≠ [] := List.ne_nil_of_mem hm
    have hdot : segment ≠ ['.'] := by
      rintro rfl
      exact absurd hm (by decide)
    simp [hempty, hdot]

theorem exists_toList_intercalate (part : String) (parts : List String) :
    ∃ tail, ("/".intercalate (part :: parts)).toList = part.toList ++ tail := by
  cases parts with
  | nil => exact ⟨[], by simp⟩
  | cons next rest =>
    rw [String.intercalate_cons_of_ne_nil (by simp)]
    simp only [String.toList_append, List.append_assoc]
    exact ⟨_, rfl⟩

theorem toList_toText {l : Location} (h : l.Proper) (hne : l.slashes ≠ 0 ∨ l.parts ≠ []) :
    l.toText.toList = List.replicate l.slashes '/' ++ ("/".intercalate l.parts).toList := by
  have hfull : (String.ofList (List.replicate l.slashes '/') ++ "/".intercalate l.parts).isEmpty =
      false := by
    rw [Bool.eq_false_iff, Ne, String.isEmpty_iff, ← String.toList_inj]
    intro he
    obtain ⟨hs, hb⟩ : l.slashes = 0 ∧ ("/".intercalate l.parts).toList = [] := by simpa using he
    cases hp : l.parts with
    | nil => exact hne.elim (· hs) (· hp)
    | cons part parts =>
      obtain ⟨tail, ht⟩ := exists_toList_intercalate part parts
      rw [hp, ht, List.append_eq_nil_iff, String.toList_eq_nil_iff] at hb
      exact (h.parts part (by simp [hp])).ne_empty hb.1
  simp [toText, hfull]

theorem toText_ne_empty (l : Location) : l.toText ≠ "" := by
  unfold toText
  extract_lets body text
  split
  · decide
  · rename_i h
    exact fun he => h (by rw [he]; rfl)

theorem head?_intercalate {parts : List String} (h : ∀ part ∈ parts, IsName part) :
    ("/".intercalate parts).toList.head? ≠ some '/' := by
  cases parts with
  | nil => simp
  | cons part rest =>
    obtain ⟨hempty, -, hslash⟩ := h part List.mem_cons_self
    obtain ⟨tail, ht⟩ := exists_toList_intercalate part rest
    obtain ⟨c, cs, hc⟩ := List.exists_cons_of_ne_nil (by simpa using hempty : part.toList ≠ [])
    have hne : c ≠ '/' := fun hcs => hslash (by simp [hc, hcs])
    simpa [ht, hc] using hne

theorem filter_segments {parts : List String} (h : ∀ part ∈ parts, IsName part) :
    (segments ("/".intercalate parts).toList).filter (fun s => s != [] && s != ['.']) =
      parts.map String.toList := by
  by_cases hp : parts = []
  · subst hp
    rfl
  · rw [segments_intercalate hp fun part hm => (h part hm).slash_not_mem]
    refine List.filter_eq_self.mpr fun s hs => ?_
    obtain ⟨part, hm, rfl⟩ := List.mem_map.mp hs
    have hempty : part.toList ≠ [] := by simpa using (h part hm).ne_empty
    have hdot : part.toList ≠ ['.'] := fun he =>
      (h part hm).ne_dot (String.toList_inj.mp (by simpa using he))
    simp [hempty, hdot]

/-- A proper location is read back from its text. -/
theorem ofText_toText {l : Location} (h : l.Proper) : ofText l.toText = l := by
  obtain ⟨slashes, parts⟩ := l
  by_cases hne : slashes ≠ 0 ∨ parts ≠ []
  · have hempty : (List.replicate slashes ([] : List Char)).filter
        (fun s => s != [] && s != ['.']) = [] := by simp
    have hback : (parts.map String.toList).map String.ofList = parts := by
      simp [Function.comp_def]
    simp only [ofText, toList_toText h hne, segments_slashes, List.filter_append, hempty,
      filter_segments h.parts, List.nil_append, hback,
      leadingSlashes_of_name h.slashes (head?_intercalate h.parts)]
  · obtain ⟨hs, hp⟩ : slashes = 0 ∧ parts = [] := by simpa using hne
    subst hs hp
    rfl

theorem ofText_of_name {name : String} (h : IsName name) : ofText name = { parts := [name] } := by
  have hl : Proper { parts := [name] } := ⟨Nat.zero_le 2, by simpa using h⟩
  have htext : ({ parts := [name] } : Location).toText = name := by
    simp [toText, h.ne_empty]
  rw [← ofText_toText hl, htext]

theorem child_of_name (l : Location) {name : String} (h : IsName name) :
    l.child name = { l with parts := l.parts ++ [name] } := by
  simp [child, ofText_of_name h, join, isAbsolute]

theorem Proper.parent {l : Location} (h : l.Proper) : l.parent.Proper :=
  ⟨h.slashes, fun part hp => h.parts part (List.dropLast_subset _ hp)⟩

theorem Proper.join {base l : Location} (hb : base.Proper) (h : l.Proper) : (base.join l).Proper := by
  unfold Location.join
  by_cases ha : l.isAbsolute = true
  · rwa [if_pos ha]
  · rw [if_neg ha]
    refine ⟨hb.slashes, fun part hp => ?_⟩
    exact (List.mem_append.mp hp).elim (hb.parts part) (h.parts part)

theorem mem_of_mem_foldl_climb {parts climbed : List String} {part : String}
    (h : part ∈ parts.foldl climb climbed) : part ∈ climbed ∨ part ∈ parts := by
  induction parts generalizing climbed with
  | nil => exact .inl h
  | cons first parts ih =>
    rw [List.foldl_cons] at h
    rcases ih h with hc | hp
    · unfold climb at hc
      split at hc
      · exact .inl (List.mem_of_mem_tail hc)
      · rcases List.mem_cons.mp hc with rfl | hc
        · exact .inr List.mem_cons_self
        · exact .inl hc
    · exact .inr (List.mem_cons_of_mem _ hp)

theorem Proper.resolve {current l : Location} (hc : current.Proper) (h : l.Proper) :
    (resolve current l).Proper := by
  refine ⟨Nat.le_succ 1, fun part hp => ?_⟩
  have hm := mem_of_mem_foldl_climb (List.mem_reverse.mp hp)
  exact (hc.join h).parts part (hm.resolve_left (by simp))

theorem proper_of_mem_ancestorsOf {slashes : Nat} {parts : List String} (hs : slashes ≤ 2)
    (hp : ∀ part ∈ parts, IsName part) : ∀ l ∈ ancestorsOf slashes parts, l.Proper := by
  induction parts with
  | nil => simp [ancestorsOf]
  | cons part parts ih =>
    intro l hl
    have hrest : ∀ part ∈ parts, IsName part := fun x hx => hp x (List.mem_cons_of_mem _ hx)
    rcases List.mem_cons.mp hl with rfl | hl
    · exact ⟨hs, fun x hx => hrest x (List.mem_reverse.mp hx)⟩
    · exact ih hrest l hl

theorem Proper.ancestors {l : Location} (h : l.Proper) : ∀ above ∈ l.ancestors, above.Proper :=
  proper_of_mem_ancestorsOf h.slashes fun part hp => h.parts part (List.mem_reverse.mp hp)

theorem slash_not_mem_name {l : Location} (h : l.Proper) : '/' ∉ l.name.toList := by
  rw [name]
  cases hl : l.parts.getLast? with
  | none => simp
  | some part => exact (h.parts part (List.mem_of_getLast? hl)).slash_not_mem

theorem slash_not_mem_stem {l : Location} (h : l.Proper) : '/' ∉ l.stem.toList := by
  have hname := slash_not_mem_name h
  simp only [stem]
  split
  · exact hname
  · rw [String.toList_ofList]
    exact fun hm => hname (List.mem_of_mem_take hm)

end Location

end Hydration.Path

namespace Hydration.CommandLine

open Hydration.Path Location

theorem lt_length_hydrated (stem : String) : 10 < (stem ++ hydratedSuffix).toList.length := by
  have hs : hydratedSuffix.toList.length = 11 := by decide
  rw [String.toList_append, List.length_append]
  omega

theorem isName_hydrated {file : Location} (h : file.Proper) :
    IsName (file.stem ++ hydratedSuffix) := by
  have hlength := lt_length_hydrated file.stem
  refine ⟨fun he => ?_, fun he => ?_, ?_⟩
  · simp [he] at hlength
  · simp [he] at hlength
  · rw [String.toList_append, List.mem_append]
    exact not_or.mpr ⟨slash_not_mem_stem h, by decide⟩

theorem hydrated_ne_up (stem : String) : stem ++ hydratedSuffix ≠ ".." := by
  intro he
  have hlength := lt_length_hydrated stem
  simp [he] at hlength

/-- Where the result of a module goes: the given folder, or the one that holds the module. -/
def resultFolder (file : Location) (folder : Option Location) : Location := folder.getD file.parent

theorem outputPlace_eq {file : Location} (h : file.Proper) (folder : Option Location) :
    outputPlace file folder =
      { resultFolder file folder with
        parts := (resultFolder file folder).parts ++ [file.stem ++ hydratedSuffix] } := by
  cases folder with
  | none => rfl
  | some folder => exact child_of_name folder (isName_hydrated h)

theorem parent_outputPlace {file : Location} (h : file.Proper) (folder : Option Location) :
    (outputPlace file folder).parent = resultFolder file folder := by
  simp [outputPlace_eq h, parent]

end Hydration.CommandLine
