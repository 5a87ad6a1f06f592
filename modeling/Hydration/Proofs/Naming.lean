import Hydration.Imports.DottedName
import Hydration.Proofs.Success

/-! Names in imports. A dotted name is its segments joined by dots, and taking it apart gives the
segments back; an identifier holds neither a dot nor a colon. -/

namespace Hydration

theorem identifier_ne_empty {name : String} (h : Text.isIdentifier name = true) : name ≠ "" := by
  rintro rfl
  simp [Text.isIdentifier, Text.isIdentifierChars] at h

theorem not_mem_of_isIdentifier {name : String} (h : Text.isIdentifier name = true) {c : Char}
    (hs : Text.isIdentifierStart c = false) (hc : Text.isIdentifierContinuation c = false) :
    c ∉ name.toList := by
  intro hm
  unfold Text.isIdentifier at h
  cases hl : name.toList with
  | nil => simp [hl] at hm
  | cons d ds =>
    rw [hl] at h hm
    simp only [Text.isIdentifierChars, Bool.and_eq_true, List.all_eq_true] at h
    rcases List.mem_cons.mp hm with rfl | hm
    · simp [h.1] at hs
    · simp [h.2 c hm] at hc

theorem dot_not_mem {name : String} (h : Text.isIdentifier name = true) : '.' ∉ name.toList :=
  not_mem_of_isIdentifier h (by decide) (by decide)

theorem colon_not_mem {name : String} (h : Text.isIdentifier name = true) : ':' ∉ name.toList :=
  not_mem_of_isIdentifier h (by decide) (by decide)

namespace Syntax

theorem splitDots_ne_nil (name : String) : splitDots name ≠ [] := by
  simp [splitDots]

theorem splitDots_of_dot_not_mem {name : String} (h : '.' ∉ name.toList) :
    splitDots name = [name] := by
  have hs : name.toList.splitOnP (· == '.') = [name.toList] := List.splitOn_eq_singleton h
  simp [splitDots, hs]

theorem splitDots_append (left right : String) :
    splitDots (left ++ "." ++ right) = splitDots left ++ splitDots right := by
  have hs : (left.toList ++ '.' :: right.toList).splitOnP (· == '.') =
      left.toList.splitOnP (· == '.') ++ right.toList.splitOnP (· == '.') :=
    List.splitOn_append_cons_self left.toList right.toList
  simp [splitDots, hs]

theorem intercalate_splitDots (name : String) : ".".intercalate (splitDots name) = name := by
  have hs : ['.'].intercalate (name.toList.splitOnP (· == '.')) = name.toList :=
    List.intercalate_splitOn '.'
  apply String.toList_inj.mp
  simpa [splitDots, String.toList_intercalate, Function.comp_def] using hs

theorem splitDots_intercalate {segments : List String} (hne : segments ≠ [])
    (h : ∀ x ∈ segments, '.' ∉ x.toList) : splitDots (".".intercalate segments) = segments := by
  have hs : (['.'].intercalate (segments.map String.toList)).splitOnP (· == '.') =
      segments.map String.toList :=
    List.splitOn_intercalate '.' (by simpa using h) (by simpa using hne)
  simp [splitDots, String.toList_intercalate, hs, Function.comp_def]

/-- Identifiers joined by dots. -/
def IsDotted (name : String) : Prop := ∀ x ∈ splitDots name, Text.isIdentifier x = true

theorem IsDotted.of_identifier {name : String} (h : Text.isIdentifier name = true) :
    IsDotted name := by
  intro x hx
  rw [splitDots_of_dot_not_mem (dot_not_mem h)] at hx
  obtain rfl := List.mem_singleton.mp hx
  exact h

theorem IsDotted.member {path name : String} (hp : IsDotted path)
    (hn : Text.isIdentifier name = true) : IsDotted (path ++ "." ++ name) := by
  intro x hx
  rw [splitDots_append, List.mem_append] at hx
  rcases hx with hx | hx
  · exact hp x hx
  · exact IsDotted.of_identifier hn x hx

theorem not_mem_intercalate {segments : List String} {c : Char} (hc : c ≠ '.')
    (h : ∀ x ∈ segments, c ∉ x.toList) : c ∉ (".".intercalate segments).toList := by
  induction segments with
  | nil => simp
  | cons x rest ih =>
    have hx := h x List.mem_cons_self
    have hr := ih fun y hy => h y (List.mem_cons_of_mem x hy)
    by_cases he : rest = []
    · simpa [he] using hx
    · rw [String.intercalate_cons_of_ne_nil he]
      simp only [String.toList_append, List.mem_append, not_or]
      exact ⟨⟨hx, by simpa using hc⟩, hr⟩

theorem IsDotted.colon_not_mem {name : String} (h : IsDotted name) : ':' ∉ name.toList := by
  have hh := not_mem_intercalate (by decide : ':' ≠ '.') fun x hx =>
    Hydration.colon_not_mem (h x hx)
  rwa [intercalate_splitDots] at hh

/-- A chain of attributes, all of them identifiers, that starts at one. -/
def Expr.IsDotted (e : Expr) : Prop :=
  e.segments ≠ [] ∧ ∀ x ∈ e.segments, Text.isIdentifier x = true

theorem Expr.segments_attribute {e : Expr} (h : e.segments ≠ []) (dot : Around) (name : String) :
    (Expr.attribute e dot name).segments = e.segments ++ [name] := by
  cases hl : e.segments with
  | nil => exact absurd hl h
  | cons first rest => simp [Expr.segments, hl]

/-- Brackets around an expression do not count. -/
theorem Expr.segments_core (e : Expr) : e.core.segments = e.segments := by
  induction e using Expr.core.induct with
  | case1 before inner after ih =>
    rw [Expr.core, Expr.segments]
    exact ih
  | case2 e hparen =>
    rw [Expr.core]
    exact hparen

theorem Expr.IsDotted.ofName {name : String} (h : Text.isIdentifier name = true) :
    (Expr.name name).IsDotted := by
  refine ⟨by simp [Expr.segments], ?_⟩
  simpa [Expr.segments] using h

theorem Expr.IsDotted.attribute {e : Expr} {name : String} (he : e.IsDotted) (dot : Around)
    (h : Text.isIdentifier name = true) : (Expr.attribute e dot name).IsDotted := by
  have hs := Expr.segments_attribute he.1 dot name
  refine ⟨by simp [hs], ?_⟩
  intro x hx
  rw [hs, List.mem_append, List.mem_singleton] at hx
  rcases hx with hx | rfl
  · exact he.2 x hx
  · exact h

theorem Expr.IsDotted.splitDots_fullName {e : Expr} (h : e.IsDotted) :
    splitDots e.fullName = e.segments :=
  splitDots_intercalate h.1 fun x hx => dot_not_mem (h.2 x hx)

theorem Expr.IsDotted.fullName {e : Expr} (h : e.IsDotted) : Syntax.IsDotted e.fullName := by
  intro x hx
  rw [h.splitDots_fullName] at hx
  exact h.2 x hx

/-- The segments of a name, or of an attribute of what has some. -/
inductive Expr.IsPath : Expr → List String → Prop where
  | name (id : String) : Expr.IsPath (.name id) [id]
  | member {value : Expr} {path : List String} (h : Expr.IsPath value path) (dot : Around)
      (attr : String) : Expr.IsPath (.attribute value dot attr) (path ++ [attr])
  | paren {inner : Expr} {path : List String} (before after : Gap) (h : Expr.IsPath inner path) :
      Expr.IsPath (.paren before inner after) path

section Paths

variable {e : Expr} {path : List String}

theorem Expr.IsPath.ne_nil (h : e.IsPath path) : path ≠ [] := by
  induction h with
  | name id => exact List.cons_ne_nil _ _
  | member => exact List.append_ne_nil_of_right_ne_nil _ (List.cons_ne_nil _ _)
  | paren before after h ih => exact ih

theorem Expr.IsPath.segments_eq (h : e.IsPath path) : e.segments = path := by
  induction h with
  | name id => rw [Expr.segments]
  | @member value path h dot attr ih =>
    rw [Expr.segments_attribute (ih ▸ h.ne_nil), ih]
  | paren before after h ih => rw [Expr.segments, ih]

theorem Expr.isPath_segments (h : e.segments ≠ []) : e.IsPath e.segments := by
  induction e using Expr.segments.induct with
  | case1 id =>
    rw [Expr.segments]
    exact .name id
  | case2 value dot attr hv => simp [Expr.segments, hv] at h
  | case3 value dot attr first rest hv ih =>
    have hne : value.segments ≠ [] := by simp [hv]
    rw [Expr.segments_attribute hne]
    exact .member (ih hne) dot attr
  | case4 before inner after ih =>
    rw [Expr.segments] at h ⊢
    exact .paren before after (ih h)
  | case5 e hname hattribute hparen =>
    unfold Expr.segments at h
    split at h
    · exact absurd rfl (hname _)
    · exact absurd rfl (hattribute _ _ _)
    · exact absurd rfl (hparen _ _ _)
    · contradiction

end Paths

theorem checkName_eq_ok {name checked : String} :
    checkName name = .ok checked ↔ checked = name ∧ Text.isIdentifier name = true := by
  unfold checkName
  split
  · rename_i he
    have hn : name = "" := String.isEmpty_iff.mp he
    subst hn
    simp [Text.isIdentifier, Text.isIdentifierChars]
  · split
    · rename_i hi
      simp [hi, eq_comm]
    · rename_i hi
      simp [hi]

theorem foldlM_addSegment_segments {rest : List String} {start e : Expr}
    (hs : start.segments ≠ []) (h : rest.foldlM addSegment start = .ok e) :
    e.segments = start.segments ++ rest ∧ ∀ x ∈ rest, Text.isIdentifier x = true := by
  induction rest generalizing start with
  | nil =>
    obtain rfl := Except.ok.inj h
    simp
  | cons name rest ih =>
    simp only [List.foldlM_cons, addSegment, bind_eq_ok, checkName_eq_ok] at h
    obtain ⟨next, ⟨checked, ⟨rfl, hi⟩, hn⟩, hr⟩ := h
    obtain rfl := Except.ok.inj hn
    have hseg := Expr.segments_attribute hs {} checked
    have hh := ih (by simp [hseg]) hr
    refine ⟨by simp [hh.1, hseg], ?_⟩
    intro x hx
    rcases List.mem_cons.mp hx with rfl | hx
    · exact hi
    · exact hh.2 x hx

/-- A dotted name that can be built is built from identifiers, and reads back as it was. -/
theorem ofDottedName_eq_ok {name : String} {e : Expr} (h : Expr.ofDottedName name = .ok e) :
    e.IsDotted ∧ e.fullName = name := by
  unfold Expr.ofDottedName at h
  cases hl : splitDots name with
  | nil => exact absurd hl (splitDots_ne_nil name)
  | cons first rest =>
    simp only [hl, ofSegments, bind_eq_ok, checkName_eq_ok] at h
    obtain ⟨checked, ⟨rfl, hi⟩, hf⟩ := h
    have hh := foldlM_addSegment_segments (by simp [Expr.segments]) hf
    have hseg : e.segments = splitDots name := by simpa [Expr.segments, hl] using hh.1
    refine ⟨⟨by simp [hseg, hl], ?_⟩, by rw [Expr.fullName, hseg, intercalate_splitDots]⟩
    intro x hx
    rw [hseg, hl] at hx
    rcases List.mem_cons.mp hx with rfl | hx
    · exact hi
    · exact hh.2 x hx

end Syntax

end Hydration
