import Hydration.Proofs.Reading

/-! The names in the expressions that a text holds. What a rule of the grammar gives is a chain of
attributes of identifiers, or no chain at all. This goes from the words to atoms, along the operators to
expressions, and by induction on the depth of the rules to whole texts. -/

namespace Hydration.Syntax

open Syntax.Parser Imports

/-- If the expression is a chain of attributes of a name, its names are identifiers. -/
def Expr.Named (e : Expr) : Prop :=
  ∀ path, e.IsPath path → ∀ name ∈ path, Text.isIdentifier name = true

section Named

variable {e : Expr}

theorem Expr.named_iff : e.Named ↔ ∀ name ∈ e.segments, Text.isIdentifier name = true := by
  constructor
  · intro h
    by_cases hs : e.segments = []
    · simp [hs]
    · exact h _ (Expr.isPath_segments hs)
  · intro h path hp
    rwa [hp.segments_eq] at h

theorem Expr.named_of_segments (h : e.segments = []) : e.Named := by
  simp [Expr.named_iff, h]

theorem Expr.named_name {id : String} (h : Text.isIdentifier id = true) : (Expr.name id).Named := by
  rintro path ⟨⟩
  simpa using h

theorem Expr.Named.attribute (he : e.Named) (dot : Around) {attr : String}
    (h : Text.isIdentifier attr = true) : (Expr.attribute e dot attr).Named := by
  rintro _ (_ | ⟨hp, dot, attr⟩)
  intro name hn
  rcases List.mem_append.mp hn with hn | hn
  · exact he _ hp name hn
  · exact List.mem_singleton.mp hn ▸ h

theorem Expr.Named.paren (he : e.Named) (before after : Gap) : (Expr.paren before e after).Named := by
  rintro path (_ | _ | ⟨_, _, hp⟩)
  exact he path hp

end Named

section Rules

variable {s : Source} {r : Rules}

theorem named_tupleOr {first : Expr} (h : first.Named) (rest : List (Around × Expr))
    (trailing : Option Around) : (tupleOr first rest trailing).Named := by
  unfold tupleOr
  split
  · exact h
  · exact Expr.named_of_segments rfl

theorem yields_namedExpression (hr : Yields s r.expression Expr.Named) :
    Yields s (namedExpression r) Expr.Named := by
  unfold namedExpression
  refine .orElse (.andThen fun _ => .andThen fun _ => .andThen fun _ => .pure ?_) ?_
  · exact Expr.named_of_segments rfl
  · exact .bind hr fun e he => .andThen fun _ => .pure he

theorem yields_starNamedExpression (hr : Yields s r.expression Expr.Named) :
    Yields s (starNamedExpression r) Expr.Named := by
  unfold starNamedExpression
  refine .orElse (.andThen fun _ => .andThen fun _ => .andThen fun _ => .pure ?_) ?_
  · exact Expr.named_of_segments rfl
  · exact yields_namedExpression hr

theorem yields_starExpressions (hr : Yields s r.expression Expr.Named) :
    Yields s (starExpressions r) Expr.Named := by
  unfold starExpressions starExpression
  refine .bind (.orElse (.andThen fun _ => .andThen fun _ => .andThen fun _ => .pure ?_) hr) ?_
  · exact Expr.named_of_segments rfl
  · intro first hf
    exact .andThen fun rest => .andThen fun trailing => .pure (named_tupleOr hf rest trailing)

theorem yields_yieldExpr : Yields s (yieldExpr r) Expr.Named := by
  unfold yieldExpr
  refine .andThen fun _ => .orElse ?_ (.andThen fun _ => .andThen fun value => ?_)
  · exact .andThen fun _ => .andThen fun _ => .andThen fun _ => .pure (Expr.named_of_segments rfl)
  · cases value with
    | some value => exact .pure (Expr.named_of_segments rfl)
    | none => exact .pure (Expr.named_of_segments rfl)

theorem segments_joinStrings {first : Gap × Expr} {rest : List (Gap × Expr)}
    (h : first.2.segments = []) : (joinStrings first rest).segments = [] := by
  cases rest with
  | nil => exact h
  | cons second rest => rfl

theorem yields_strings : Yields s (strings r) Expr.Named := by
  have hpiece : Yields s (stringPiece r) fun piece => piece.2.segments = [] := by
    unfold stringPiece formatString
    refine .andThen fun _ => .orElse (.andThen fun _ => .pure rfl) ?_
    exact .bind (.andThen fun _ => .andThen fun _ => .andThen fun _ => .pure rfl)
      fun e he => .pure he
  unfold strings
  exact .bind hpiece fun first hf => .andThen fun rest =>
    .pure (Expr.named_of_segments (segments_joinStrings hf))

theorem yields_afterParen (hr : Yields s r.expression Expr.Named) :
    Yields s (afterParen r) Expr.Named := by
  unfold afterParen
  refine .andThen fun before => ?_
  extract_lets close
  have hclose {inner : Expr} (h : inner.Named) : Yields s (close inner) Expr.Named :=
    .andThen fun _ => .pure (h.paren _ _)
  refine .orElse (.bind (yields_starNamedExpression hr) fun first hf => .andThen fun more => ?_) ?_
  · split
    · exact .andThen fun _ => hclose (Expr.named_of_segments rfl)
    · split
      · exact .andThen fun _ => .fail
      · exact .orElse (hclose hf) (.andThen fun _ => hclose (Expr.named_of_segments rfl))
  · refine .orElse (.andThen fun _ => .pure ?_) (.bind yields_yieldExpr fun e he => hclose he)
    exact (Expr.named_of_segments rfl : (Expr.tuple []).Named).paren _ _

theorem yields_afterSquare : Yields s (afterSquare r) Expr.Named := by
  unfold afterSquare
  refine .andThen fun _ => .orElse (.andThen fun _ => .orElse ?_ ?_) ?_
  · exact .andThen fun _ => .andThen fun _ => .pure (Expr.named_of_segments rfl)
  · exact .andThen fun _ => .andThen fun _ => .andThen fun _ => .pure (Expr.named_of_segments rfl)
  · exact .andThen fun _ => .pure (Expr.named_of_segments rfl)

theorem yields_afterBrace : Yields s (afterBrace r) Expr.Named := by
  unfold afterBrace
  refine .andThen fun before => ?_
  extract_lets dictWith setWith setCompWith
  have hdict (first : Member) : Yields s (dictWith first) Expr.Named :=
    .andThen fun _ => .andThen fun _ => .pure (Expr.named_of_segments rfl)
  have hset (first : Expr) : Yields s (setWith first) Expr.Named :=
    .andThen fun _ => .andThen fun _ => .pure (Expr.named_of_segments rfl)
  have hcomp (element : Expr) : Yields s (setCompWith element) Expr.Named :=
    .andThen fun _ => .andThen fun _ => .pure (Expr.named_of_segments rfl)
  refine .orElse (.andThen fun _ => .andThen fun _ => .andThen fun _ => hdict _) (.orElse ?_ ?_)
  · refine .andThen fun e => .orElse (.andThen fun _ => .andThen fun _ => .orElse (hdict _) ?_) ?_
    · exact .andThen fun _ => .andThen fun _ => .pure (Expr.named_of_segments rfl)
    · exact .andThen fun _ => .orElse (hset e) (hcomp e)
  · refine .orElse (.andThen fun _ => .andThen fun first => .orElse (hset first) ?_) ?_
    · exact .andThen fun _ => hcomp first
    · exact .andThen fun _ => .pure (Expr.named_of_segments rfl)

/-- The words that the grammar takes for constants are identifiers. -/
theorem yields_constant : Yields s (anyOf ["True", "False", "None"])
    (fun w => Text.isIdentifier w.text) := by
  intro place furthest w after reached h
  obtain ⟨-, hw, -⟩ := word_eq_ok h
  have hidentifiers : ∀ text ∈ ["True", "False", "None"], Text.isIdentifier text = true := by decide
  exact hidentifiers w.text (List.contains_iff_mem.mp hw)

theorem yields_atom (hs : NamedWords s) (hr : Yields s r.expression Expr.Named) :
    Yields s (atom r) Expr.Named := by
  unfold atom
  refine .orElse (.bind (yields_name hs) fun w hw => .pure (Expr.named_name hw)) ?_
  refine .orElse (.bind yields_constant fun w hw => .pure (Expr.named_name hw)) ?_
  refine .orElse yields_strings ?_
  refine .orElse (.andThen fun _ => .pure (Expr.named_of_segments rfl)) ?_
  refine .orElse (.andThen fun _ => yields_afterParen hr) ?_
  refine .orElse (.andThen fun _ => yields_afterSquare) ?_
  refine .orElse (.andThen fun _ => yields_afterBrace) ?_
  exact .andThen fun _ => .pure (Expr.named_of_segments rfl)

theorem yields_afterCall (func : Expr) (gap : Gap) : Yields s (afterCall r func gap) Expr.Named := by
  unfold afterCall
  refine .andThen fun before => ?_
  extract_lets close
  have hclose (args : List Member) : Yields s (close args) Expr.Named :=
    .andThen fun _ => .pure (Expr.named_of_segments rfl)
  refine .orElse (.andThen fun _ => .orElse ?_ ?_) (.orElse ?_ (hclose []))
  · exact .andThen fun _ => hclose _
  · exact .andThen fun _ => .andThen fun _ => .andThen fun _ => hclose _
  · exact .andThen fun _ => .andThen fun _ => hclose _

theorem yields_trailer (hs : NamedWords s) {value : Expr} (hv : value.Named) :
    Yields s (trailer r value) Expr.Named := by
  unfold trailer
  refine .orElse (.andThen fun dot => .bind (yields_name hs) fun w hw => .pure ?_) (.orElse ?_ ?_)
  · exact hv.attribute dot hw
  · exact .andThen fun _ => yields_afterCall value _
  · exact .andThen fun _ => .andThen fun _ => .andThen fun _ => .andThen fun _ =>
      .pure (Expr.named_of_segments rfl)

theorem yields_primary (hs : NamedWords s) (hr : Yields s r.expression Expr.Named) :
    Yields s (primary r) Expr.Named := by
  unfold primary
  refine .andThen fun count => .bind (yields_atom hs hr) fun e he => ?_
  exact yields_extend (fun value hv => yields_trailer hs hv) count he

theorem yields_factorRule (hs : NamedWords s) (hr : Yields s r.expression Expr.Named) :
    Yields s (factorRule r) Expr.Named := by
  unfold factorRule power awaitPrimary
  refine .orElse (.andThen fun _ => .andThen fun _ => .andThen fun _ => .pure ?_) ?_
  · exact Expr.named_of_segments rfl
  · refine .bind (.orElse (.andThen fun _ => .andThen fun _ => .andThen fun _ => .pure ?_)
      (yields_primary hs hr)) fun base hb => .orElse ?_ (.pure hb)
    · exact Expr.named_of_segments rfl
    · exact .andThen fun _ => .andThen fun _ => .pure (Expr.named_of_segments rfl)

/-- Operands that are put together by an operator are no chain. -/
theorem named_foldl {α : Type} {join : Expr → α → Expr} (h : ∀ left a, (join left a).Named)
    (rest : List α) {first : Expr} (hf : first.Named) : (rest.foldl join first).Named := by
  induction rest generalizing first with
  | nil => exact hf
  | cons a rest ih => exact ih (h first a)

theorem yields_leftChain {operand : Parser Expr} (h : Yields s operand Expr.Named)
    (operators : List String) : Yields s (leftChain operators operand) Expr.Named := by
  unfold leftChain
  refine .bind h fun first hf => .andThen fun rest => .pure (named_foldl ?_ rest hf)
  exact fun left a => Expr.named_of_segments rfl

theorem yields_booleanChain {operand : Parser Expr} (h : Yields s operand Expr.Named) (op : String) :
    Yields s (booleanChain op operand) Expr.Named := by
  unfold booleanChain
  refine .bind h fun first hf => .andThen fun rest => .pure (named_foldl ?_ rest hf)
  exact fun left a => Expr.named_of_segments rfl

theorem yields_bitwiseOrRule (hs : NamedWords s) (hr : Yields s r.expression Expr.Named) :
    Yields s (bitwiseOrRule r) Expr.Named := by
  unfold bitwiseOrRule
  iterate 6 apply yields_leftChain
  exact yields_factorRule hs hr

theorem yields_inversionRule (hs : NamedWords s) (hr : Yields s r.expression Expr.Named) :
    Yields s (inversionRule r) Expr.Named := by
  unfold inversionRule comparison
  refine .orElse (.andThen fun _ => .andThen fun _ => .andThen fun _ => .pure ?_) ?_
  · exact Expr.named_of_segments rfl
  · refine .bind (yields_bitwiseOrRule hs hr) fun left hl => .andThen fun rest => .pure ?_
    split
    · exact hl
    · exact Expr.named_of_segments rfl

theorem yields_expressionRule (hs : NamedWords s) (hr : Yields s r.expression Expr.Named) :
    Yields s (expressionRule r) Expr.Named := by
  unfold expressionRule disjunctionRule lambda
  have hbody := yields_booleanChain (yields_booleanChain (yields_inversionRule hs hr) "and") "or"
  refine .orElse (.bind hbody fun body hb => .orElse ?_ (.pure hb)) ?_
  · exact .andThen fun _ => .andThen fun _ => .andThen fun _ => .andThen fun _ =>
      .pure (Expr.named_of_segments rfl)
  · exact .andThen fun _ => .andThen fun _ => .andThen fun _ => .andThen fun _ => .andThen fun _ =>
      .andThen fun _ => .pure (Expr.named_of_segments rfl)

theorem yields_expression (hs : NamedWords s) (depth : Nat) :
    Yields s (Rules.upTo depth).expression Expr.Named := by
  induction depth with
  | zero => exact .fail
  | succ depth ih => exact yields_expressionRule hs ih

end Rules

/-- The names of an expression that is read from a text are identifiers. -/
theorem named_of_parse {text : String} {e : Expr} (h : Expr.parse text = .ok e) : e.Named := by
  unfold Expr.parse at h
  simp only [bind_eq_ok] at h
  obtain ⟨source, hsource, read, hrun, -, -, h⟩ := h
  obtain rfl := Except.ok.inj h
  have hs := namedWords_of_lexText hsource
  refine holds_of_run (fun depth => ?_) hrun
  refine .bind (yields_starExpressions (yields_expression hs depth)) fun e he => ?_
  exact .andThen fun _ => .andThen fun _ => .pure he

end Hydration.Syntax
