import Hydration.Proofs.ExpressionNames
import Hydration.Syntax.Printer
import Mathlib.Data.List.Induction

/-! Dotted names and their expressions. Identifiers joined by dots are built into an expression that is
written in the same way, and a name among the segments that is no identifier is refused. Reading the
name of an expression and building it again gives the expression without its blanks and brackets. -/

namespace Hydration.Syntax

/-- A chain of attributes without blanks around its dots and without brackets. What is no chain is not
changed. -/
def Expr.bare : Expr → Expr
  | .attribute value _ attr => .attribute value.bare {} attr
  | .paren _ inner _ => inner.bare
  | e => e

section Chains

variable {e : Expr} {path : List String}

theorem Expr.IsPath.bare (h : e.IsPath path) : e.bare.IsPath path := by
  induction h with
  | name id => exact .name id
  | member _ dot attr ih => exact .member ih {} attr
  | paren _ _ _ ih => exact ih

theorem Expr.IsPath.fullName_eq (h : e.IsPath path) : e.fullName = ".".intercalate path := by
  rw [Expr.fullName, h.segments_eq]

/-- Nothing but the names and the dots between them is written. -/
theorem Expr.IsPath.render_bare (h : e.IsPath path) (place : Place) :
    e.bare.render place = ".".intercalate path := by
  induction h with
  | name id => simp [Expr.bare, Expr.render]
  | @member value path h dot attr ih =>
    rw [String.intercalate_append_of_ne_nil h.ne_nil (List.cons_ne_nil _ _), ← ih]
    simp [Expr.bare, Expr.render, Around.render, Gap.render, Gap.empty, String.append_assoc]
  | paren _ _ _ ih => exact ih

theorem exists_isPath (h : path ≠ []) : ∃ e : Expr, e.IsPath path := by
  induction path using List.reverseRecOn with
  | nil => exact absurd rfl h
  | append_singleton path name ih =>
    by_cases hp : path = []
    · subst hp
      exact ⟨_, .name name⟩
    · obtain ⟨e, he⟩ := ih hp
      exact ⟨_, .member he {} name⟩

theorem Expr.fullName_of_no_path (h : ∀ path, ¬ e.IsPath path) : e.fullName = "" := by
  have hs : e.segments = [] := by
    by_contra hne
    exact h _ (Expr.isPath_segments hne)
  rw [Expr.fullName, hs, String.intercalate_nil]

end Chains

section Building

variable {e : Expr} {path front back : List String} {bad : String}

/-- Why a name is refused that is no identifier. -/
def nameError (name : String) : TreeError := if name = "" then .emptyName else .badName name

theorem checkName_of_identifier {name : String} (h : Text.isIdentifier name = true) :
    checkName name = .ok name := checkName_eq_ok.mpr ⟨rfl, h⟩

theorem checkName_of_bad (h : Text.isIdentifier bad = false) :
    checkName bad = .error (nameError bad) := by
  unfold checkName nameError
  by_cases he : bad = ""
  · simp [he]
  · simp [he, h]

/-- A name is built from the names before the last one, and that one. -/
theorem ofSegments_append (h : front ≠ []) (back : List String) :
    ofSegments (front ++ back) = ofSegments front >>= fun e => back.foldlM addSegment e := by
  cases front with
  | nil => exact absurd rfl h
  | cons head front => simp [ofSegments, List.foldlM_append]

theorem Expr.IsPath.ofSegments_eq (h : e.IsPath path)
    (hn : ∀ name ∈ path, Text.isIdentifier name = true) : ofSegments path = .ok e.bare := by
  induction h with
  | name id =>
    rw [ofSegments, checkName_of_identifier (hn id List.mem_cons_self)]
    rfl
  | @member value path h dot attr ih =>
    have hvalue := ih fun name hm => hn name (List.mem_append_left _ hm)
    have hattr := checkName_of_identifier (hn attr (by simp))
    rw [ofSegments_append h.ne_nil, hvalue]
    simp only [List.foldlM_cons, List.foldlM_nil, addSegment, hattr]
    rfl
  | paren _ _ _ ih => exact ih hn

/-- The first name that is no identifier is refused. -/
theorem ofSegments_of_bad (hf : ∀ name ∈ front, Text.isIdentifier name = true)
    (hb : Text.isIdentifier bad = false) (back : List String) :
    ofSegments (front ++ bad :: back) = .error (nameError bad) := by
  by_cases h : front = []
  · subst h
    rw [List.nil_append, ofSegments, checkName_of_bad hb]
    rfl
  · obtain ⟨e, he⟩ := exists_isPath h
    rw [ofSegments_append h, he.ofSegments_eq hf]
    change (bad :: back).foldlM addSegment e.bare = _
    rw [List.foldlM_cons, addSegment, checkName_of_bad hb]
    rfl

theorem exists_first_bad {names : List String} (h : ∃ name ∈ names, Text.isIdentifier name = false) :
    ∃ front bad back, names = front ++ bad :: back ∧
      (∀ name ∈ front, Text.isIdentifier name = true) ∧ Text.isIdentifier bad = false := by
  obtain ⟨bad, hfound⟩ : ∃ bad, names.find? (fun name => !Text.isIdentifier name) = some bad := by
    rw [← Option.isSome_iff_exists, List.find?_isSome]
    simpa using h
  obtain ⟨hbad, front, back, hnames, hfront⟩ := List.find?_eq_some_iff_append.mp hfound
  exact ⟨front, bad, back, hnames, by simpa using hfront, by simpa using hbad⟩

theorem Expr.IsPath.ofDottedName_fullName (h : e.IsPath path)
    (hn : ∀ name ∈ path, Text.isIdentifier name = true) :
    Expr.ofDottedName e.fullName = .ok e.bare := by
  have hsplit := splitDots_intercalate h.ne_nil fun name hm => dot_not_mem (hn name hm)
  rw [Expr.ofDottedName, h.fullName_eq, hsplit, h.ofSegments_eq hn]

/-- What is built again from its name is the expression but for blanks and brackets, if its names can
be those of an expression at all. -/
theorem ofDottedName_fullName_iff (h : e.fullName ≠ "") :
    Expr.ofDottedName e.fullName = .ok e.bare ↔ e.Named := by
  have hs : e.segments ≠ [] := fun hs => h (by rw [Expr.fullName, hs, String.intercalate_nil])
  have hp := Expr.isPath_segments hs
  constructor
  · intro hb
    have hn := (ofDottedName_eq_ok hb).1.2
    rwa [hp.bare.segments_eq, ← Expr.named_iff] at hn
  · intro hn
    exact hp.ofDottedName_fullName (hn _ hp)

end Building

/-- Dotted names and expressions. Identifiers joined by dots are built into an expression that is written
as they are and has them for its name. Of a name with a segment that is none, the first such segment is
refused. An expression with a name is built again from it, but for blanks and brackets, exactly if its
names are identifiers, and those of every expression that is read are. The name of a chain is its
segments, and what is no chain has none. -/
theorem dotted_names_round_trip :
    (∀ names : List String, names ≠ [] → (∀ name ∈ names, Text.isIdentifier name = true) →
      ∃ e, Expr.ofDottedName (".".intercalate names) = .ok e ∧
        (∀ place, e.render place = ".".intercalate names) ∧ e.fullName = ".".intercalate names) ∧
    (∀ name, (∃ segment ∈ splitDots name, Text.isIdentifier segment = false) →
      ∃ front bad back, splitDots name = front ++ bad :: back ∧
        (∀ segment ∈ front, Text.isIdentifier segment = true) ∧ Text.isIdentifier bad = false ∧
        Expr.ofDottedName name = .error (nameError bad)) ∧
    (∀ e : Expr, e.fullName ≠ "" → (Expr.ofDottedName e.fullName = .ok e.bare ↔ e.Named)) ∧
    (∀ text e, Expr.parse text = .ok e → e.Named) ∧
    (∀ (e : Expr) path, e.IsPath path → e.fullName = ".".intercalate path) ∧
    (∀ e : Expr, (∀ path, ¬ e.IsPath path) → e.fullName = "") := by
  refine ⟨?_, ?_, fun e => ofDottedName_fullName_iff, fun text e => named_of_parse,
    fun e path hp => hp.fullName_eq, fun e => Expr.fullName_of_no_path⟩
  · intro names hne hn
    obtain ⟨e, he⟩ := exists_isPath hne
    have hbuilt := he.ofDottedName_fullName hn
    rw [he.fullName_eq] at hbuilt
    exact ⟨e.bare, hbuilt, he.render_bare, he.bare.fullName_eq⟩
  · intro name hbad
    obtain ⟨front, bad, back, hsegments, hfront, hb⟩ := exists_first_bad hbad
    refine ⟨front, bad, back, hsegments, hfront, hb, ?_⟩
    rw [Expr.ofDottedName, hsegments, ofSegments_of_bad hfront hb]

/-- A name in brackets, with blanks around its dot: `( a ) . b`. -/
def spacedName : Expr :=
  .attribute (.paren .space (.name "a") .space) ⟨.space, .space⟩ "b"

/-- The name is read and built again without its blanks and brackets. -/
theorem dotted_names_round_trip_of_spaced :
    spacedName.Named ∧ spacedName.fullName ≠ "" ∧
    Expr.ofDottedName spacedName.fullName = .ok (.attribute (.name "a") {} "b") := by
  have hn : spacedName.Named :=
    ((Expr.named_name (by decide)).paren _ _).attribute _ (by decide)
  have hname : spacedName.fullName ≠ "" := by decide
  obtain ⟨-, -, hback, -⟩ := dotted_names_round_trip
  exact ⟨hn, hname, (hback _ hname).mpr hn⟩

end Hydration.Syntax
