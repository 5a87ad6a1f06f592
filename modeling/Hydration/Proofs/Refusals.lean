import Hydration.Proofs.Operands

/-! Words that rules refuse. No expression starts with most of the words of the grammar, no small
statement with those that start definitions or close blocks, and no compound statement with the name of
a function or of a receiver. -/

namespace Hydration.Syntax

open Hydration.Syntax.Parser

/-- The texts that expressions and targets start with. -/
def expressionTexts : List String :=
  ["True", "False", "None", "(", "[", "\x7b", "...", "+", "-", "~", "not", "lambda", "*"]

/-- The texts that the other small statements start with. -/
def statementTexts : List String :=
  ["type", "yield", "return", "import", "from", "raise", "pass", "del", "assert", "break", "continue",
    "global", "nonlocal"]

/-- A word that no expression starts with. -/
structure StartsNoExpr (x : Lexeme) : Prop where
  name : x.1 ≠ .name ∨ x.2 ∈ keywords
  text : x.2 ∉ expressionTexts
  kind : x.1 ∉ [.string, .formatStart, .number, .awaitWord]

/-- A word that no small statement starts with either. -/
structure StartsNoSmall (x : Lexeme) : Prop extends StartsNoExpr x where
  statement : x.2 ∉ statementTexts

section Refusals

variable {s : Source} {r inner : Rules} {i : Nat} {x : Lexeme}

theorem StartsNoExpr.refuses_lit (h : StartsNoExpr x) (hx : s.At i x) {text : String}
    (ht : text ∈ expressionTexts) : Refuses s (lit text) i :=
  Parser.refuses_lit hx fun he => h.text (he ▸ ht)

theorem StartsNoExpr.refuses_kind (h : StartsNoExpr x) (hx : s.At i x) {kind : TokenKind}
    (hk : kind ∈ [TokenKind.string, .formatStart, .number, .awaitWord]) :
    Refuses s (Parser.kind kind) i :=
  Parser.refuses_kind hx fun he => h.kind (he ▸ hk)

theorem StartsNoExpr.refuses_anyOf (h : StartsNoExpr x) (hx : s.At i x)
    {texts : List String} (ht : ∀ t ∈ texts, t ∈ expressionTexts) : Refuses s (anyOf texts) i :=
  Parser.refuses_anyOf hx fun hm => h.text (ht _ hm)

theorem refuses_atom (h : StartsNoExpr x) (hx : s.At i x) : Refuses s (atom r) i := by
  have hne {kind : TokenKind} (hk : kind ∈ [TokenKind.string, .formatStart, .number, .awaitWord]) :
      x.1 ≠ kind := fun he => h.kind (he ▸ hk)
  have hstrings : Refuses s (strings r) i :=
    (refuses_stringPiece hx (hne (by decide)) (hne (by decide))).bind
  refine .orElse (refuses_name hx h.name).bind (.orElse (h.refuses_anyOf hx (by decide)).bind ?_)
  refine .orElse hstrings (.orElse (h.refuses_kind hx (by decide)).bind ?_)
  refine .orElse (h.refuses_lit hx (by decide)).bind (.orElse (h.refuses_lit hx (by decide)).bind ?_)
  exact .orElse (h.refuses_lit hx (by decide)).bind (h.refuses_lit hx (by decide)).bind

/-- No expression starts with such a word. -/
theorem refuses_expression (h : StartsNoExpr x) (hx : s.At i x) :
    Refuses s (expressionRule r) i := by
  have hprimary : Refuses s (primary r) i := by
    have hcount : Reads s wordCount i i (· = s.words.size) := fun m => ⟨_, m, rfl, rfl⟩
    exact hcount.refuses fun _ _ => (refuses_atom h hx).bind
  have hpower : Refuses s (power r) i :=
    Refuses.bind (.orElse (h.refuses_kind hx (by decide)).bind hprimary)
  have hfactor : Refuses s (factorRule r) i :=
    .orElse (h.refuses_anyOf hx (by decide)).bind hpower
  have hchain : Refuses s (bitwiseOrRule r) i := hfactor.bind.bind.bind.bind.bind.bind
  have hinversion : Refuses s (inversionRule r) i :=
    .orElse (h.refuses_lit hx (by decide)).bind hchain.bind
  exact .orElse hinversion.bind.bind.bind (h.refuses_lit hx (by decide)).bind

theorem refuses_attributeOrSubscript (h : StartsNoExpr x) (hx : s.At i x) :
    Refuses s (attributeOrSubscript r) i :=
  (refuses_atom h hx).bind.bind

variable (hr : r.expression = expressionRule inner) (ht : r.starTarget = starTargetRule inner)

include hr in
theorem refuses_starExpressions (h : StartsNoExpr x) (hx : s.At i x) :
    Refuses s (starExpressions r) i := by
  refine Refuses.bind (.orElse (h.refuses_lit hx (by decide)).bind ?_)
  rw [hr]
  exact refuses_expression h hx

include hr in
theorem refuses_starNamedExpression (h : StartsNoExpr x) (hx : s.At i x) :
    Refuses s (starNamedExpression r) i := by
  have hexpr : Refuses s r.expression i := by
    rw [hr]
    exact refuses_expression h hx
  refine .orElse (h.refuses_lit hx (by decide)).bind (.orElse ?_ hexpr.bind)
  exact (refuses_name hx h.name).bind

include ht in
theorem refuses_assignment (h : StartsNoExpr x) (hx : s.At i x) :
    Refuses s (assignment r) i := by
  have hname := refuses_name hx h.name
  have hattribute (r : Rules) : Refuses s (attributeOrSubscript r) i :=
    refuses_attributeOrSubscript h hx
  have htarget : Refuses s (starTargets r) i := by
    refine Refuses.bind ?_
    rw [ht]
    refine .orElse (h.refuses_lit hx (by decide)).bind (.orElse (hattribute inner) ?_)
    refine .orElse hname.bind (.orElse (h.refuses_lit hx (by decide)).bind ?_)
    exact (h.refuses_lit hx (by decide)).bind
  refine .orElse hname.bind (.orElse (hattribute r).bind (.orElse htarget.bind.bind.bind ?_))
  refine Refuses.bind (.orElse (hattribute r) (.orElse hname.bind ?_))
  exact (h.refuses_lit hx (by decide)).bind

include hr ht in
theorem refuses_smallStatement (h : StartsNoSmall x) (hx : s.At i x) :
    Refuses s (smallStatement r) i := by
  have hlit {text : String} (hm : text ∈ statementTexts) {f : Word → Parser Small} :
      Refuses s (lit text >>= f) i := (Parser.refuses_lit hx fun he => h.statement (he ▸ hm)).bind
  have htype : Refuses s (guard (nextIs "type")) i :=
    refuses_guard hx (is_not_of_lexeme fun he => h.statement (he ▸ by decide))
  have hyield : Refuses s (yieldExpr r) i :=
    (Parser.refuses_lit hx fun he => h.statement (he ▸ by decide)).bind
  refine .orElse htype.bind (.orElse (refuses_assignment ht h.toStartsNoExpr hx) ?_)
  refine .orElse (refuses_starExpressions hr h.toStartsNoExpr hx).bind (.orElse (hlit (by decide)) ?_)
  refine .orElse (hlit (by decide)) (.orElse (hlit (by decide)) (.orElse (hlit (by decide)) ?_))
  refine .orElse (hlit (by decide)) (.orElse (hlit (by decide)) (.orElse hyield.bind ?_))
  refine .orElse (hlit (by decide)) (.orElse (hlit (by decide)) (.orElse (hlit (by decide)) ?_))
  exact .orElse (hlit (by decide)) (hlit (by decide))

include hr ht in
theorem refuses_lineStatement (h : StartsNoSmall x) (hx : s.At i x) :
    Refuses s (lineStatement r) i :=
  (reads_peek hx).refuses fun _ _ => (refuses_smallStatement hr ht h hx).bind.bind

end Refusals

/-- The texts that compound statements start with, without the word that is no keyword elsewhere. -/
def compoundTexts : List String := ["def", "@", "class", "if", "with", "for", "try", "while"]

section Compound

variable {s : Source} {r inner deep : Rules} {i : Nat} {x y : Lexeme} {e : Expr} {root : String}
  {segments : List String} {xs ts : List Lexeme} {es : List Expr}

theorem refuses_compoundStatement (hx : s.At i x) (ht : x.2 ∉ compoundTexts) (hk : x.1 ≠ .asyncWord)
    (hm : Refuses s (matchStatement r) i) : Refuses s (compoundStatement r) i := by
  have hne (text : String) (hm : text ∈ compoundTexts) (w : Word) (hw : w.lexeme = x) :
      (w.text == text) = false :=
    is_not_of_lexeme (fun he => ht (he ▸ hm)) w hw
  have hasync (w : Word) (hw : w.lexeme = x) : (w.kind == .asyncWord) = false := by
    subst hw
    exact beq_eq_false_iff_ne.mpr hk
  have hguard {test : Word → Bool} {p : Parser Stmt}
      (h : ∀ w : Word, w.lexeme = x → test w = false) :
      Refuses s (do guard (next test); p) i := (refuses_guard hx h).bind
  refine .orElse (hguard fun w hw => ?_) (.orElse (hguard (hne _ (by decide))) ?_)
  · simp [hne "def" (by decide) w hw, hne "@" (by decide) w hw,
      hne "class" (by decide) w hw, hasync w hw]
  refine .orElse (hguard fun w hw => ?_) (.orElse (hguard fun w hw => ?_) ?_)
  · simp [hne "with" (by decide) w hw, hasync w hw]
  · simp [hne "for" (by decide) w hw, hasync w hw]
  exact .orElse (hguard (hne _ (by decide))) (.orElse (hguard (hne _ (by decide))) hm)

theorem refuses_matchStatement_of_ne (hx : s.At i x) (h : x.2 ≠ "match") :
    Refuses s (matchStatement r) i :=
  (refuses_lit hx h).bind

/-- The word in front of a mark such as a dot is a name, whatever it is. -/
theorem refuses_matchStatement_of_next (hr : r.expression = expressionRule inner)
    (hf : s.Follows i (x :: y :: ts)) (hy : StartsNoExpr y) : Refuses s (matchStatement r) i := by
  by_cases h : x.2 = "match"
  · refine (reads_lit hf.at h).refuses fun _ _ => (reads_nextGap hf.tail.at).refuses fun _ _ => ?_
    have hsubject : Refuses s (matchSubject r) (i + 1) :=
      (refuses_starNamedExpression hr hy hf.tail.at).bind
    exact hsubject.bind
  · exact refuses_matchStatement_of_ne hf.at h

theorem reads_starNamedOperand (hr : r.expression = expressionRule inner) (ho : Operand x e)
    (hx : s.At i x) (hy : s.At (i + 1) y) (hend : EndsExpr y) :
    Reads s (starNamedExpression r) i (i + 1) (· = e) :=
  .second (refuses_lit hx (ne_of_not_reserved ho.not_reserved (by decide))).bind
    (reads_namedOperand hr ho hx hy hend)

theorem readsMany_operands (hr : r.expression = expressionRule inner)
    (ho : List.Forall₂ Operand xs es) (hf : s.Follows i (argumentLexemes xs ++ ts)) :
    ReadsMany s (do return (← comma, ← starNamedMember r)) i (i + 2 * xs.length) (fun _ => True) := by
  induction ho generalizing i with
  | nil => exact Refuses.readsMany (refuses_comma hf.at (by decide)).bind trivial
  | @cons x e xs es hxe ho ih =>
    obtain ⟨y, more, hy, hend⟩ := argumentLexemes_eq_cons xs ts
    rw [argumentLexemes, List.cons_append, List.cons_append] at hf
    have hrest := hf.tail.tail
    have hnext := hf.tail.tail
    rw [hy] at hnext
    have hone : Reads s (do return (← comma, ← starNamedMember r)) i (i + 2)
        (fun _ => True) := by
      refine (reads_comma hf.at rfl).bind fun comma _ => ?_
      have hmember : Reads s (starNamedMember r) (i + 1) (i + 2) (fun _ => True) :=
        (reads_starNamedOperand hr hxe hf.tail.at hnext.at hend.toEndsExpr).bind fun _ _ => .pure trivial
      exact hmember.bind fun _ _ => .pure trivial
    refine hone.readsMany hf.at (by omega) fun _ _ => ?_
    rw [List.length_cons, show i + 2 * (xs.length + 1) = i + 2 + 2 * xs.length by omega]
    exact ih hrest

/-- Behind an opening bracket, one operand is an expression in brackets and several are a tuple. -/
theorem reads_afterParen (hr : r.expression = expressionRule inner) (hxe : Operand x e)
    (ho : List.Forall₂ Operand xs es)
    (hf : s.Follows i (x :: (argumentLexemes xs ++ y :: ts))) :
    Reads s (afterParen r) i (i + 2 + 2 * xs.length) (fun e => isStarred e = false) := by
  obtain ⟨z, more, hz, hargument⟩ := argumentLexemes_eq_cons xs (y :: ts)
  have hnext := hf.tail
  rw [hz] at hnext
  have hclose := follows_closing _ hf.tail
  refine (reads_nextGap hf.at).bind fun before _ => .first ?_
  have hplain : isStarred e = false := by cases hxe <;> rfl
  refine (reads_starNamedOperand hr hxe hf.at hnext.at hargument.toEndsExpr).bind ?_
  rintro _ rfl
  -- A comma behind the first operand makes a tuple.
  cases xs with
  | nil =>
    refine (reads_next hnext.at (is_not_of_lexeme ?_)).bind ?_
    · obtain ⟨rfl, -⟩ := List.cons.inj hz
      decide
    rintro _ rfl
    rw [if_neg Bool.false_ne_true, if_neg (by simp [hplain])]
    exact .first ((reads_lit hclose.at rfl).bind fun _ _ => .pure rfl)
  | cons x' xs =>
    refine (reads_next hnext.at (is_of_lexeme ?_)).bind ?_
    · obtain ⟨rfl, -⟩ := List.cons.inj hz
      rfl
    rintro _ rfl
    rw [if_pos rfl]
    have hmembers {first : Member} :
        Reads s (separatedAfter Member.withComma first (starNamedMember r)) (i + 1)
          (i + 1 + 2 * (x' :: xs).length) (fun _ => True) := by
      refine (readsMany_operands hr ho hf.tail).many.bind fun _ _ => ?_
      exact (Refuses.optional (refuses_comma hclose.at (by decide))).bind fun _ _ => .pure trivial
    refine hmembers.bind fun members _ => ?_
    rw [show i + 2 + 2 * (x' :: xs).length = i + 1 + 2 * (x' :: xs).length + 1 by omega]
    exact (reads_lit hclose.at rfl).bind fun _ _ => .pure rfl

/-- Operands in brackets are an expression, whatever it stands for. -/
theorem reads_brackets (hr : r.expression = expressionRule inner) (hxe : Operand x e)
    (ho : List.Forall₂ Operand xs es)
    (hf : s.Follows i (markLexeme '(' :: x :: (argumentLexemes xs ++ y :: ts))) (hend : EndsExpr y) :
    Reads s (expressionRule r) i (i + 3 + 2 * xs.length) (fun e => isStarred e = false) := by
  have hparen := reads_afterParen hr hxe ho hf.tail
  rw [show i + 1 + 2 + 2 * xs.length = i + 3 + 2 * xs.length by omega] at hparen
  have hy := (follows_closing _ hf.tail.tail).tail.at
  rw [show i + 1 + 1 + 2 * xs.length + 1 = i + 3 + 2 * xs.length by omega] at hy
  refine reads_expression_of_atom (x := markLexeme '(') ?_ hf.at (by decide) nofun hy hend
  refine reads_atom_of_bracket hf.at (by decide) (.first ?_)
  exact (reads_lit hf.at rfl).bind fun _ _ => hparen

/-- The name of a function that is called is a name, whatever it is. -/
theorem refuses_matchStatement_of_call (hr : r.expression = expressionRule inner)
    (hi : inner.expression = expressionRule deep) (hxe : Operand x e)
    (ho : List.Forall₂ Operand xs es)
    (hf : s.Follows i (callLexemes root segments x xs ++ y :: ts)) (hend : EndsExpr y)
    (hcomma : y.2 ≠ ",") (hcolon : y.2 ≠ ":") : Refuses s (matchStatement r) i := by
  rw [callLexemes_append] at hf
  cases segments with
  | cons z segments =>
    exact refuses_matchStatement_of_next (y := markLexeme '.') hr hf ⟨by decide, by decide, by decide⟩
  | nil =>
    by_cases h : root = "match"
    · have hopen := hf.tail
      have hbehind := (follows_closing _ hopen.tail.tail).tail
      rw [show i + 1 + 1 + 1 + 2 * xs.length + 1 = i + 1 + 3 + 2 * xs.length by omega] at hbehind
      have hbrackets := reads_brackets (r := inner) hi hxe ho hopen hend
      rw [← hr] at hbrackets
      have hsubject : Reads s (matchSubject r) (i + 1) (i + 1 + 3 + 2 * xs.length)
          (fun _ => True) := by
        have hfirst : Reads s (starNamedExpression r) (i + 1) (i + 1 + 3 + 2 * xs.length)
            (fun e => isStarred e = false) := by
          refine .second (refuses_lit hopen.at (by decide)).bind (.second ?_ ?_)
          · exact (refuses_name hopen.at (.inl nofun)).bind
          · refine hbrackets.bind fun e he => ?_
            refine (reads_guardNot hbehind.at (is_not_of_lexeme (hend.ne (by decide)))).bind
              fun _ _ => .pure he
        refine hfirst.bind fun e he => (reads_next hbehind.at (is_not_of_lexeme hcomma)).bind ?_
        rintro _ rfl
        rw [if_neg Bool.false_ne_true, if_neg (by simp [he])]
        exact .pure trivial
      refine (reads_lit hf.at h).refuses fun _ _ => (reads_nextGap hopen.at).refuses fun _ _ => ?_
      exact hsubject.refuses fun _ _ => (refuses_lit hbehind.at hcolon).bind
    · exact refuses_matchStatement_of_ne hf.at h

end Compound

end Hydration.Syntax
