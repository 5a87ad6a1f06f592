import Hydration.Proofs.NormalForms
import Mathlib.Logic.Relation

/-! Spellings of paths. A normal form is the text of a location whose segments are names, after parent
segments that lead above where a relative path starts. It is its own normal form, and it does not
change with detours between the segments of a path or with the kind of the slashes. -/

namespace Hydration.Path

/-- In a path held last segment first, parent segments are the first ones, and below a root there is
none. -/
def ClimbsFirst (rooted : Bool) (path : List (List Char)) : Prop :=
  ∃ names ups, path = names ++ List.replicate ups ['.', '.'] ∧ ['.', '.'] ∉ names ∧
    (rooted = true → ups = 0)

section Entering

variable {rooted : Bool} {path segments : List (List Char)} {segment : List Char}

theorem ClimbsFirst.enter (h : ClimbsFirst rooted path) (segment : List Char) :
    ClimbsFirst rooted (enter rooted path segment) := by
  obtain ⟨names, ups, rfl, hnames, hups⟩ := h
  unfold Path.enter
  split
  · exact ⟨names, ups, rfl, hnames, hups⟩
  · split
    · -- a parent segment leaves the last name; where there is none it stays, unless at a root
      rename_i hsegment
      subst hsegment
      cases names with
      | cons last names =>
        have hlast : last ≠ ['.', '.'] := fun he => hnames (he ▸ List.mem_cons_self)
        simp only [List.cons_append, if_neg hlast]
        exact ⟨names, ups, rfl, fun hm => hnames (List.mem_cons_of_mem _ hm), hups⟩
      | nil =>
        cases ups with
        | zero =>
          cases rooted with
          | true => exact ⟨[], 0, rfl, List.not_mem_nil, fun _ => rfl⟩
          | false => exact ⟨[], 1, rfl, List.not_mem_nil, by simp⟩
        | succ ups =>
          have hrooted : rooted = false := by
            cases rooted with
            | true => exact absurd (hups rfl) (Nat.succ_ne_zero ups)
            | false => rfl
          subst hrooted
          exact ⟨[], ups + 2, rfl, List.not_mem_nil, by simp⟩
    · rename_i hsegment
      refine ⟨segment :: names, ups, rfl, ?_, hups⟩
      rw [List.mem_cons, not_or]
      exact ⟨Ne.symm hsegment, hnames⟩

theorem ClimbsFirst.foldl (h : ClimbsFirst rooted path) (segments : List (List Char)) :
    ClimbsFirst rooted (segments.foldl (Path.enter rooted) path) := by
  induction segments generalizing path with
  | nil => exact h
  | cons segment segments ih => exact ih (h.enter segment)

theorem mem_of_mem_enter {other : List Char} (h : other ∈ enter rooted path segment) :
    other ∈ path ∨ other = segment := by
  unfold enter at h
  split at h
  · exact .inl h
  · split at h
    · cases path with
      | nil =>
        cases rooted with
        | true => exact absurd h List.not_mem_nil
        | false => exact .inr (List.mem_singleton.mp h)
      | cons last rest =>
        dsimp only at h
        split at h
        · exact (List.mem_cons.mp h).symm
        · exact .inl (List.mem_cons_of_mem _ h)
    · exact (List.mem_cons.mp h).symm

theorem mem_of_mem_foldl_enter (h : segment ∈ segments.foldl (enter rooted) path) :
    segment ∈ path ∨ segment ∈ segments := by
  induction segments generalizing path with
  | nil => exact .inl h
  | cons first segments ih =>
    rcases ih h with hp | hs
    · rcases mem_of_mem_enter hp with hp | rfl
      · exact .inl hp
      · exact .inr List.mem_cons_self
    · exact .inr (List.mem_cons_of_mem _ hs)

theorem enter_of_name (hempty : segment ≠ []) (hdot : segment ≠ ['.'])
    (hup : segment ≠ ['.', '.']) : enter rooted path segment = segment :: path := by
  unfold enter
  rw [if_neg (not_or.mpr ⟨hempty, hdot⟩), if_neg hup]

theorem foldl_enter_names
    (h : ∀ segment ∈ segments, segment ≠ [] ∧ segment ≠ ['.'] ∧ segment ≠ ['.', '.']) :
    segments.foldl (enter rooted) path = segments.reverse ++ path := by
  induction segments generalizing path with
  | nil => rfl
  | cons first segments ih =>
    obtain ⟨hempty, hdot, hup⟩ := h first List.mem_cons_self
    rw [List.foldl_cons, enter_of_name hempty hdot hup,
      ih fun segment hs => h segment (List.mem_cons_of_mem _ hs)]
    simp

theorem foldl_enter_ups (ups climbed : Nat) :
    (List.replicate ups ['.', '.']).foldl (enter false) (List.replicate climbed ['.', '.']) =
      List.replicate (climbed + ups) ['.', '.'] := by
  induction ups generalizing climbed with
  | zero => rfl
  | succ ups ih =>
    have hstep : enter false (List.replicate climbed ['.', '.']) ['.', '.'] =
        List.replicate (climbed + 1) ['.', '.'] := by
      cases climbed with
      | zero => rfl
      | succ climbed => rfl
    rw [List.replicate_succ, List.foldl_cons, hstep, ih]
    congr 1
    omega

end Entering

namespace Location

/-- What a normal form tells: at most two slashes, then parent segments, but none below a root, then
the names of what lies on the way. -/
structure Normal (l : Location) : Prop where
  proper : l.Proper
  plain : ∀ part ∈ l.parts, '\\' ∉ part.toList
  climbs : ∃ ups names, l.parts = List.replicate ups ".." ++ names ∧ ".." ∉ names ∧
    (l.isAbsolute = true → ups = 0)

/-- The location that the segments lead to when they are entered one after another. -/
def entered (l : Location) : Location :=
  { l with parts := (collapse (l.slashes != 0) (l.parts.map String.toList)).map String.ofList }

section Locations

variable {l : Location}

theorem normalForm_eq_toText (l : Location) : l.normalForm = l.entered.toText.toList := by
  have htext : List.replicate l.slashes '/' ++
        joinSegments (collapse (l.slashes != 0) (l.parts.map String.toList)) =
      (String.ofList (List.replicate l.slashes '/') ++ "/".intercalate l.entered.parts).toList := by
    rw [String.toList_append, ← joinSegments_map, String.toList_ofList]
    simp [entered, Function.comp_def]
  have hempty (text : String) : text.toList.isEmpty = text.isEmpty := by
    rw [Bool.eq_iff_iff, List.isEmpty_iff, String.isEmpty_iff, String.toList_eq_nil_iff]
  simp only [normalForm, toText, htext, hempty, apply_ite String.toList]
  rfl

theorem entered_normal (hl : l.Proper) (hplain : ∀ part ∈ l.parts, '\\' ∉ part.toList) :
    l.entered.Normal := by
  have hpart : ∀ part ∈ l.entered.parts, part ∈ l.parts := by
    intro part hp
    obtain ⟨segment, hs, rfl⟩ := List.mem_map.mp hp
    rcases mem_of_mem_foldl_enter (List.mem_reverse.mp hs) with hm | hm
    · exact absurd hm List.not_mem_nil
    · obtain ⟨part, hpart, rfl⟩ := List.mem_map.mp hm
      rwa [String.ofList_toList]
  refine ⟨⟨hl.slashes, fun part hp => hl.parts part (hpart part hp)⟩,
    fun part hp => hplain part (hpart part hp), ?_⟩
  have hstart : ClimbsFirst (l.slashes != 0) [] := ⟨[], 0, rfl, List.not_mem_nil, fun _ => rfl⟩
  obtain ⟨names, ups, hpath, hnames, hups⟩ := hstart.foldl (l.parts.map String.toList)
  refine ⟨ups, (names.reverse).map String.ofList, ?_, ?_, ?_⟩
  · simp [entered, collapse, hpath]
  · rw [List.mem_map]
    rintro ⟨segment, hs, he⟩
    have hup : segment = ['.', '.'] := by simpa [← String.toList_inj] using he
    exact hnames (hup ▸ List.mem_reverse.mp hs)
  · intro ha
    refine hups ?_
    have hslashes : 0 < l.slashes := by simpa [isAbsolute, entered] using ha
    simpa using Nat.ne_of_gt hslashes

/-- In a normal location every segment leads further. -/
theorem Normal.entered_eq (h : l.Normal) : l.entered = l := by
  obtain ⟨ups, names, hparts, hnames, hups⟩ := h.climbs
  have hname : ∀ segment ∈ names.map String.toList,
      segment ≠ [] ∧ segment ≠ ['.'] ∧ segment ≠ ['.', '.'] := by
    intro segment hs
    obtain ⟨name, hn, rfl⟩ := List.mem_map.mp hs
    have hproper := h.proper.parts name (by simp [hparts, hn])
    obtain ⟨hempty, hdot⟩ := not_or.mp (name_toList_ne hproper)
    refine ⟨hempty, hdot, fun he => hnames ?_⟩
    have hup : name = ".." := String.toList_inj.mp he
    exact hup ▸ hn
  have hfold : (List.replicate ups ['.', '.']).foldl (enter (l.slashes != 0)) [] =
      List.replicate ups ['.', '.'] := by
    by_cases ha : l.isAbsolute = true
    · rw [hups ha]
      rfl
    · have hrooted : (l.slashes != 0) = false := by simpa [isAbsolute] using ha
      rw [hrooted]
      simpa using foldl_enter_ups ups 0
  have hmap : l.parts.map String.toList =
      List.replicate ups ['.', '.'] ++ names.map String.toList := by simp [hparts]
  have hcollapse : collapse (l.slashes != 0) (l.parts.map String.toList) =
      l.parts.map String.toList := by
    rw [collapse, hmap, List.foldl_append, hfold, foldl_enter_names hname]
    simp
  rw [entered, hcollapse]
  simp [Function.comp_def]

theorem Normal.normalize_toText (h : l.Normal) : normalize l.toText = l.toText := by
  rw [normalize_eq (backslash_not_mem_toText h.plain), normalChars_toText h.proper,
    normalForm_eq_toText, h.entered_eq, String.ofList_toList]

end Locations

theorem backslash_not_mem_unifySlashes (cs : List Char) : '\\' ∉ unifySlashes cs := by
  rw [unifySlashes, List.mem_map]
  rintro ⟨c, -, hc⟩
  split at hc
  · exact absurd hc (by decide)
  · rename_i hne
    exact hne (by simp [hc])

theorem exists_normal (path : String) : ∃ l : Location, l.Normal ∧ normalize path = l.toText := by
  let unified := String.ofList (unifySlashes path.toList)
  have hchars : unifySlashes path.toList = unified.toList := (String.toList_ofList).symm
  have hplain : '\\' ∉ unified.toList := hchars ▸ backslash_not_mem_unifySlashes path.toList
  refine ⟨(ofText unified).entered, ?_, ?_⟩
  · exact entered_normal (proper_ofText unified) fun part hp hc => hplain (mem_of_mem_ofText hp hc)
  · rw [normalize, hchars, normalChars_eq, normalForm_eq_toText, String.ofList_toList]

theorem normalize_normalize (path : String) : normalize (normalize path) = normalize path := by
  obtain ⟨l, hl, hpath⟩ := exists_normal path
  rw [hpath, hl.normalize_toText]

end Location

theorem segments_append_slash (front back : List Char) :
    segments (front ++ '/' :: back) = segments front ++ segments back :=
  List.splitOn_append_cons_self front back

theorem segments_of_slash_not_mem {cs : List Char} (h : '/' ∉ cs) : segments cs = [cs] :=
  List.splitOn_eq_singleton h

theorem exists_cons_of_other {cs : List Char} (h : ∃ c ∈ cs, c ≠ '/')
    (hslash : ∀ rest, cs = '/' :: rest → False) : ∃ c rest, cs = c :: rest ∧ c ≠ '/' := by
  cases cs with
  | nil => simp at h
  | cons c rest => exact ⟨c, rest, rfl, fun he => hslash rest (he ▸ rfl)⟩

/-- The slashes in front end at the first other character, so what follows it does not count. -/
theorem leadingSlashes_append {front : List Char} (h : ∃ c ∈ front, c ≠ '/') (back : List Char) :
    leadingSlashes (front ++ back) = leadingSlashes front := by
  fun_cases leadingSlashes front with
  | case1 rest => rfl
  | case2 rest hthree =>
    obtain ⟨c, rest, rfl, hc⟩ := exists_cons_of_other (by simpa using h) hthree
    simp [leadingSlashes, hc]
  | case3 rest _ htwo =>
    obtain ⟨c, rest, rfl, hc⟩ := exists_cons_of_other (by simpa using h) htwo
    simp [leadingSlashes, hc]
  | case4 cs _ _ hone =>
    obtain ⟨c, rest, rfl, hc⟩ := exists_cons_of_other h hone
    simp [leadingSlashes, hc]

/-- Segments after which one is where one was do not count, unless they stand among the slashes in
front. -/
theorem normalChars_detour {front detour : List Char} (hf : ∃ c ∈ front, c ≠ '/')
    (h : ∀ rooted path, (segments detour).foldl (enter rooted) path = path) (back : List Char) :
    normalChars (front ++ '/' :: (detour ++ '/' :: back)) = normalChars (front ++ '/' :: back) := by
  have hcollapse (rooted : Bool) :
      collapse rooted (segments (front ++ '/' :: (detour ++ '/' :: back))) =
        collapse rooted (segments (front ++ '/' :: back)) := by
    simp only [collapse, segments_append_slash, List.foldl_append, h]
  simp only [normalChars, leadingSlashes_append hf, hcollapse]

theorem foldl_enter_dot (rooted : Bool) (path : List (List Char)) :
    (segments ['.']).foldl (enter rooted) path = path := by
  rw [segments_of_slash_not_mem (by decide)]
  simp [enter]

theorem foldl_enter_leave {name : List Char} (hslash : '/' ∉ name) (hempty : name ≠ [])
    (hdot : name ≠ ['.']) (hup : name ≠ ['.', '.']) (rooted : Bool) (path : List (List Char)) :
    (segments (name ++ '/' :: ['.', '.'])).foldl (enter rooted) path = path := by
  rw [segments_append_slash, segments_of_slash_not_mem hslash,
    segments_of_slash_not_mem (by decide : '/' ∉ ['.', '.']), List.singleton_append,
    List.foldl_cons, enter_of_name hempty hdot hup]
  simp [enter, hup]

/-- What parts the segments of a path. -/
def IsSeparator (c : Char) : Prop := c = '/' ∨ c = '\\'

/-- A segment that leads to something below. -/
structure IsOrdinary (segment : String) : Prop where
  ne_empty : segment ≠ ""
  ne_dot : segment ≠ "."
  ne_up : segment ≠ ".."
  unparted : ∀ c ∈ segment.toList, ¬ IsSeparator c

/-- A path and one that differs from it in a slash turned round, or in a detour behind a slash that
does not belong to those in front of the first segment. -/
inductive Respelled : String → String → Prop where
  | backslash (front back : String) : Respelled (front ++ "/" ++ back) (front ++ "\\" ++ back)
  | dot {front : String} (h : ∃ c ∈ front.toList, ¬ IsSeparator c) (back : String) :
      Respelled (front ++ "/" ++ back) (front ++ "/./" ++ back)
  | leave {front name : String} (h : ∃ c ∈ front.toList, ¬ IsSeparator c) (hn : IsOrdinary name)
      (back : String) :
      Respelled (front ++ "/" ++ back) (front ++ "/" ++ name ++ "/../" ++ back)

theorem exists_of_unparted {cs : List Char} (h : ∃ c ∈ cs, ¬ IsSeparator c) :
    ∃ c ∈ unifySlashes cs, c ≠ '/' := by
  obtain ⟨c, hc, hn⟩ := h
  obtain ⟨hslash, hback⟩ := not_or.mp hn
  refine ⟨c, List.mem_map.mpr ⟨c, hc, ?_⟩, hslash⟩
  simp [hback]

theorem normalize_eq_of_respelled {path other : String} (h : Respelled path other) :
    normalize other = normalize path := by
  refine congrArg String.ofList ?_
  cases h with
  | backslash front back => simp [unifySlashes]
  | dot hf back =>
    have hh := normalChars_detour (exists_of_unparted hf) foldl_enter_dot (unifySlashes back.toList)
    simpa [unifySlashes] using hh
  | @leave front name hf hn back =>
    have hslash : '/' ∉ name.toList := fun hm => hn.unparted _ hm (.inl rfl)
    have hplain : '\\' ∉ name.toList := fun hm => hn.unparted _ hm (.inr rfl)
    have hleave := foldl_enter_leave hslash (by simpa using hn.ne_empty)
      (fun he => hn.ne_dot (String.toList_inj.mp (by simpa using he)))
      (fun he => hn.ne_up (String.toList_inj.mp (by simpa using he)))
    have hh := normalChars_detour (exists_of_unparted hf) hleave (unifySlashes back.toList)
    rw [← Location.unifySlashes_of_plain hplain] at hh
    simpa [unifySlashes] using hh

theorem normalize_eq_of_eqvGen {path other : String} (h : Relation.EqvGen Respelled path other) :
    normalize other = normalize path := by
  induction h with
  | rel path other h => exact normalize_eq_of_respelled h
  | refl path => rfl
  | symm path other _ ih => exact ih.symm
  | trans path next other _ _ ih ih' => exact ih'.trans ih

/-- A normal form is the text of a normal location: slashes, at most two, and single slashes between
segments of which only the first ones of a relative path lead up; the text of the empty one is a dot.
It is not empty, holds no backslash and is its own normal form, as only such texts are. All spellings of
a path have the normal form of the path. -/
theorem normal_form (path : String) :
    (∃ l : Location, l.Normal ∧ normalize path = l.toText) ∧
    normalize path ≠ "" ∧ '\\' ∉ (normalize path).toList ∧
    normalize (normalize path) = normalize path ∧
    (normalize path = path ↔ ∃ l : Location, l.Normal ∧ path = l.toText) ∧
    ∀ other, Relation.EqvGen Respelled path other → normalize other = normalize path := by
  obtain ⟨l, hl, hpath⟩ := Location.exists_normal path
  refine ⟨⟨l, hl, hpath⟩, ?_, ?_, Location.normalize_normalize path, ?_, ?_⟩
  · rw [hpath]
    exact l.toText_ne_empty
  · rw [hpath]
    exact Location.backslash_not_mem_toText hl.plain
  · constructor
    · intro he
      exact ⟨l, hl, he.symm.trans hpath⟩
    · rintro ⟨other, ho, rfl⟩
      exact ho.normalize_toText
  · intro other h
    exact normalize_eq_of_eqvGen h

/-- A detour between the segments of a path above the start, with a slash turned round. -/
theorem normal_form_of_detour :
    Relation.EqvGen Respelled "../a/b" "../a/x/..\\b" ∧
    normalize "../a/x/..\\b" = normalize "../a/b" ∧ normalize "../a/b" = "../a/b" := by
  have hfront : ∃ c ∈ "../a".toList, ¬ IsSeparator c := ⟨'a', by decide, by simp [IsSeparator]⟩
  have hname : IsOrdinary "x" := ⟨by decide, by decide, by decide, by simp [IsSeparator]⟩
  have hleave : Respelled "../a/b" "../a/x/../b" := .leave hfront hname "b"
  have hturn : Respelled "../a/x/../b" "../a/x/..\\b" := .backslash "../a/x/.." "b"
  have hspelled : Relation.EqvGen Respelled "../a/b" "../a/x/..\\b" :=
    .trans _ _ _ (.rel _ _ hleave) (.rel _ _ hturn)
  obtain ⟨-, -, -, -, -, hspellings⟩ := normal_form "../a/b"
  exact ⟨hspelled, hspellings _ hspelled, by decide +kernel⟩

end Hydration.Path
