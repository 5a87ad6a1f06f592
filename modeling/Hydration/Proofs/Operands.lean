import Hydration.Proofs.Phrases
import Hydration.Proofs.Writing

/-! Expressions that are read in one way only: names, texts and numbers, dotted names, and calls of them,
when what follows does not go on with the expression. -/

namespace Hydration.Syntax

open Hydration.Syntax.Parser

theorem upTo_expression (depth : Nat) :
    (Rules.upTo (depth + 1)).expression = expressionRule (Rules.upTo depth) := rfl

theorem upTo_starTarget (depth : Nat) :
    (Rules.upTo (depth + 1)).starTarget = starTargetRule (Rules.upTo depth) := rfl

theorem upTo_statement (depth : Nat) :
    (Rules.upTo (depth + 1)).statement = statementRule (Rules.upTo depth) := rfl

/-- The texts that the grammar names, without the words that are keywords at some places only. -/
def reserved : List String :=
  keywords ++ operators.map String.ofList ++ ["(", ")", "[", "]", "\x7b", "\x7d"]

def IsPlainName (name : String) : Prop := Text.isIdentifier name = true ∧ name ∉ keywords

instance : DecidablePred IsPlainName := fun _ => inferInstanceAs (Decidable (_ ∧ _))

theorem IsPlainName.not_reserved {name : String} (h : IsPlainName name) : name ∉ reserved := by
  have hall : ∀ t ∈ reserved, t ∈ keywords ∨
      (t.toList.head?.map fun c => mayStartWord c) = some false := by decide
  intro hm
  rcases hall name hm with hk | hs
  · exact h.2 hk
  · obtain ⟨c, hc, hs⟩ := Option.map_eq_some_iff.mp hs
    have hc' : c ∈ (name.toList ++ []).head? := by rwa [List.append_nil]
    rw [mayStartWord_head h.1 [] c hc'] at hs
    cases hs

theorem not_reserved_of_head {text : String} {c : Char} (hc : c ∈ text.toList.head?)
    (h : isQuote c = true ∨ c.isDigit = true) : text ∉ reserved := by
  have hall : ∀ t ∈ reserved, (t.toList.head?.map fun c => isQuote c || c.isDigit) = some false := by
    decide
  intro hm
  have hf := hall text hm
  rw [Option.mem_def.mp hc, Option.map_some, Option.some.injEq, Bool.or_eq_false_iff] at hf
  rcases h with h | h
  · simp [hf.1] at h
  · simp [hf.2] at h

theorem quoted_not_reserved (value : String) : Text.quoted value ∉ reserved := by
  refine not_reserved_of_head (c := Text.chooseQuote value.toList) ?_ (.inl (isQuote_chooseQuote _))
  rw [Text.quoted, String.toList_ofList]
  rfl

theorem number_not_reserved (n : Nat) : toString n ∉ reserved := by
  have hdigits : ∀ d ∈ Nat.toDigits 10 n, d.isDigit = true := fun d hd =>
    Nat.isDigit_of_mem_toDigits (by decide) (by decide) hd
  rw [Nat.toString_eq_ofList_toDigits]
  cases hd : Nat.toDigits 10 n with
  | nil => exact absurd hd Nat.toDigits_ne_nil
  | cons d ds =>
    refine not_reserved_of_head (c := d) ?_ (.inr (hdigits d (hd ▸ List.mem_cons_self)))
    rw [String.toList_ofList]
    rfl

/-- A text that is not reserved is none of the texts of the grammar. -/
theorem not_mem_of_not_reserved {text : String} {texts : List String} (h : text ∉ reserved)
    (hsub : ∀ t ∈ texts, t ∈ reserved) : text ∉ texts :=
  fun hm => h (hsub text hm)

theorem ne_of_not_reserved {text word : String} (h : text ∉ reserved) (hw : word ∈ reserved) :
    text ≠ word := by
  rintro rfl
  exact h hw

/-- A word that is an expression by itself. -/
inductive Operand : Lexeme → Expr → Prop where
  | name {text : String} (h : IsPlainName text) : Operand (.name, text) (.name text)
  | string (value : String) : Operand (.string, Text.quoted value) (.string (Text.quoted value))
  | number (n : Nat) : Operand (.number, toString n) (.number (toString n))

theorem Operand.not_reserved {x : Lexeme} {e : Expr} (h : Operand x e) : x.2 ∉ reserved := by
  cases h with
  | name h => exact h.not_reserved
  | string value => exact quoted_not_reserved value
  | number n => exact number_not_reserved n

/-- The texts that may go on with an expression. -/
def linkTexts : List String :=
  [".", "(", "[", "**", "*", "/", "//", "%", "@", "+", "-", "<<", ">>", "&", "^", "|", "==", "!=", "<=",
    "<", ">=", ">", "not", "in", "is", "and", "or", "if", ":="]

/-- A word that does not go on with the expression before it. -/
structure EndsExpr (x : Lexeme) : Prop where
  text : x.2 ∉ linkTexts
  string : x.1 ≠ .string
  format : x.1 ≠ .formatStart

theorem EndsExpr.ne {x : Lexeme} {text : String} (h : EndsExpr x) (ht : text ∈ linkTexts) :
    x.2 ≠ text := by
  intro he
  exact h.text (he ▸ ht)

theorem EndsExpr.not_mem {x : Lexeme} {texts : List String} (h : EndsExpr x)
    (ht : ∀ t ∈ texts, t ∈ linkTexts) : x.2 ∉ texts :=
  fun hm => h.text (ht _ hm)

section Reading

variable {s : Source} {r : Rules} {i j k : Nat} {x y : Lexeme} {e : Expr} {P : Expr → Prop}
  {text : String}

theorem reads_name (hx : s.At i (.name, text)) (h : text ∉ keywords) :
    Reads s name i (i + 1) (·.lexeme = (.name, text)) := by
  have hfree : Reads s (guardNot (nextIsOf keywords)) i i (fun _ => True) :=
    reads_guardNot hx (not_among_of_lexeme h)
  exact hfree.bind fun _ _ => reads_kind hx rfl

theorem refuses_name (hx : s.At i x) (h : x.1 ≠ .name ∨ x.2 ∈ keywords) : Refuses s name i := by
  by_cases hk : x.2 ∈ keywords
  · have hkey : Refuses s (guardNot (nextIsOf keywords)) i :=
      refuses_guardNot hx (among_of_lexeme hk)
    exact hkey.bind
  · have hfree : Reads s (guardNot (nextIsOf keywords)) i i (fun _ => True) :=
      reads_guardNot hx (not_among_of_lexeme hk)
    exact hfree.refuses fun _ _ => refuses_kind hx (h.resolve_right hk)

theorem refuses_stringPiece (hx : s.At i x) (hs : x.1 ≠ .string) (hf : x.1 ≠ .formatStart) :
    Refuses s (stringPiece r) i := by
  refine (reads_nextGap hx).refuses fun gap _ => .orElse ?_ ?_
  · exact (refuses_kind hx hs).bind
  · have hformat : Refuses s (formatString r) i := (refuses_kind hx hf).bind
    exact hformat.bind

theorem reads_strings (hx : s.At i (.string, text)) (hy : s.At (i + 1) y) (he : EndsExpr y) :
    Reads s (strings r) i (i + 1) (· = .string text) := by
  have hfirst : Reads s (stringPiece r) i (i + 1) (fun piece => piece.2 = .string text) := by
    refine (reads_nextGap hx).bind fun gap _ => .first ?_
    refine (reads_kind hx rfl).bind fun w hw => .pure ?_
    rw [show w.text = text from congrArg Prod.snd hw]
  refine hfirst.bind fun first hf => ?_
  refine (refuses_stringPiece hy he.string he.format).many.bind ?_
  rintro _ rfl
  exact .pure hf

theorem reads_nameAtom (hx : s.At i (.name, text)) (h : text ∉ keywords) :
    Reads s (atom r) i (i + 1) (· = .name text) := by
  refine .first ((reads_name hx h).bind fun w hw => .pure ?_)
  rw [show w.text = text from congrArg Prod.snd hw]

theorem reads_atom (ho : Operand x e) (hx : s.At i x) (hy : s.At (i + 1) y) (hend : EndsExpr y) :
    Reads s (atom r) i (i + 1) (· = e) := by
  have hfixed : Refuses s (anyOf ["True", "False", "None"]) i :=
    refuses_anyOf hx (not_mem_of_not_reserved ho.not_reserved (by decide))
  cases ho with
  | name h => exact reads_nameAtom hx h.2
  | string value =>
    refine .second (refuses_name hx (.inl nofun)).bind ?_
    exact .second hfixed.bind (.first (reads_strings hx hy hend))
  | number n =>
    refine .second (refuses_name hx (.inl nofun)).bind (.second hfixed.bind ?_)
    have hstrings : Refuses s (strings r) i :=
      (refuses_stringPiece hx nofun nofun).bind
    refine .second hstrings (.first ((reads_kind hx rfl).bind fun w hw => .pure ?_))
    rw [show w.text = _ from congrArg Prod.snd hw]

theorem refuses_trailer (hy : s.At j y) (hend : EndsExpr y) : Refuses s (trailer r e) j := by
  refine .orElse ?_ (.orElse ?_ ?_)
  · exact (refuses_mark hy (hend.ne (by decide))).bind
  · exact (refuses_lit hy (hend.ne (by decide))).bind
  · exact (refuses_lit hy (hend.ne (by decide))).bind

theorem reads_leftChain {operators : List String} {operand : Parser Expr}
    (h : Reads s operand i j P) (hy : s.At j y) (ho : y.2 ∉ operators) :
    Reads s (leftChain operators operand) i j P := by
  refine h.bind fun first hf => ?_
  refine (Refuses.many (refuses_anyOf hy ho).bind).bind ?_
  rintro _ rfl
  exact .pure hf

theorem reads_booleanChain {op : String} {operand : Parser Expr} (h : Reads s operand i j P)
    (hy : s.At j y) (ho : y.2 ≠ op) : Reads s (booleanChain op operand) i j P := by
  refine h.bind fun first hf => ?_
  refine (Refuses.many (refuses_mark hy ho).bind).bind ?_
  rintro _ rfl
  exact .pure hf

theorem refuses_comparisonTail (hy : s.At j y) (hend : EndsExpr y) :
    Refuses s (comparisonTail r) j := by
  have single {op : String} (ho : op ∈ linkTexts) {f : Around → Parser Comparison} :
      Refuses s (mark op >>= f) j := (refuses_mark hy (hend.ne ho)).bind
  have double {op : String} (ho : op ∈ linkTexts) {f : Word → Parser Comparison} :
      Refuses s (lit op >>= f) j := (refuses_lit hy (hend.ne ho)).bind
  unfold comparisonTail
  dsimp only
  iterate 6 refine .orElse (single (by decide)) ?_
  refine .orElse (double (by decide)) (.orElse (single (by decide)) ?_)
  exact .orElse (double (by decide)) (single (by decide))

/-- What a primary expression reads is a whole expression, where no operator stands before it or
behind it. -/
theorem reads_expression (h : Reads s (primary r) i j P) (hx : s.At i x)
    (hstart : x.2 ∉ ["+", "-", "~", "not"]) (hawait : x.1 ≠ .awaitWord) (hy : s.At j y)
    (hend : EndsExpr y) : Reads s (expressionRule r) i j P := by
  have hawaited : Reads s (awaitPrimary r) i j P := .second (refuses_kind hx hawait).bind h
  have hpower : Reads s (power r) i j P := by
    refine hawaited.bind fun base hb => .second ?_ (.pure hb)
    exact (refuses_mark hy (hend.ne (by decide))).bind
  have hfactor : Reads s (factorRule r) i j P := by
    refine .second (Refuses.bind (refuses_anyOf hx ?_)) hpower
    exact fun hm => hstart (List.mem_append_left ["not"] hm)
  have hchain : Reads s (bitwiseOrRule r) i j P := by
    unfold bitwiseOrRule
    iterate 6 refine reads_leftChain ?_ hy (hend.not_mem (by decide))
    exact hfactor
  have hcomparison : Reads s (comparison r) i j P := by
    refine hchain.bind fun left hl => ?_
    refine (refuses_comparisonTail hy hend).many.bind ?_
    rintro _ rfl
    exact .pure hl
  have hinversion : Reads s (inversionRule r) i j P := by
    refine .second (Refuses.bind (refuses_lit hx ?_)) hcomparison
    exact fun hn => hstart (by simp [hn])
  have hdisjunction : Reads s (disjunctionRule r) i j P :=
    reads_booleanChain (reads_booleanChain hinversion hy (hend.ne (by decide))) hy
      (hend.ne (by decide))
  refine .first (hdisjunction.bind fun body hb => .second ?_ (.pure hb))
  exact (refuses_mark hy (hend.ne (by decide))).bind

/-- The same for an atom, which nothing extends. -/
theorem reads_expression_of_atom (h : Reads s (atom r) i j P) (hx : s.At i x)
    (hstart : x.2 ∉ ["+", "-", "~", "not"]) (hawait : x.1 ≠ .awaitWord) (hy : s.At j y)
    (hend : EndsExpr y) : Reads s (expressionRule r) i j P := by
  refine reads_expression ?_ hx hstart hawait hy hend
  have hcount : Reads s wordCount i i (· = s.words.size) := fun m => ⟨_, m, rfl, rfl⟩
  refine hcount.bind ?_
  rintro _ rfl
  refine h.bind fun value hv => ?_
  have hstop : Extends s (trailer r) j value j P := .stop (refuses_trailer hy hend) hv
  exact hstop _ (Nat.le_add_right _ _)

/-- Only what is in brackets is tried behind an opening bracket. -/
theorem reads_atom_of_bracket {c : Char} (hx : s.At i (markLexeme c)) (hc : c ∈ ['(', '[', '\x7b'])
    (h : Reads s ((do let _ ← lit "("; afterParen r) <|> (do let _ ← lit "["; afterSquare r) <|>
      (do let _ ← lit "\x7b"; afterBrace r) <|> (do let _ ← lit "..."; return .ellipsis)) i j P) :
    Reads s (atom r) i j P := by
  have hmark : (markLexeme c).2 ∉ ["True", "False", "None"] := by
    simp only [List.mem_cons, List.not_mem_nil, or_false] at hc
    rcases hc with rfl | rfl | rfl <;> decide
  have hstrings : Refuses s (strings r) i := (refuses_stringPiece hx nofun nofun).bind
  have hnumber : Refuses s (Parser.kind .number) i := refuses_kind hx nofun
  refine .second (refuses_name hx (.inl nofun)).bind (.second (refuses_anyOf hx hmark).bind ?_)
  exact .second hstrings (.second hnumber.bind h)

end Reading

/-- The words of a dotted name behind its first segment. -/
def dottedTail : List String → List Lexeme
  | [] => []
  | x :: segments => markLexeme '.' :: (.name, x) :: dottedTail segments

theorem wordLexeme_of_plain {name : String} (h : IsPlainName name) :
    wordLexeme name.toList = (.name, name) := by
  have ha : name ≠ "async" := fun he => h.2 (he ▸ by decide)
  have hw : name ≠ "await" := fun he => h.2 (he ▸ by decide)
  have hne {word : String} (hn : name ≠ word) : (name.toList == word.toList) = false := by
    simpa [String.toList_inj] using hn
  rw [wordLexeme, wordKind, hne ha, hne hw, String.ofList_toList]
  rfl

theorem dottedLexemes_eq {x : String} {segments : List String}
    (h : ∀ y ∈ x :: segments, IsPlainName y) :
    dottedLexemes (x :: segments) = (.name, x) :: dottedTail segments := by
  induction segments generalizing x with
  | nil => simp [dottedLexemes, dottedTail, wordLexeme_of_plain (h x List.mem_cons_self)]
  | cons y segments ih =>
    have hh := ih fun z hz => h z (List.mem_cons_of_mem x hz)
    rw [dottedTail, ← hh, ← wordLexeme_of_plain (h x List.mem_cons_self)]
    rfl

section Dotted

variable {s : Source} {r : Rules} {i j : Nat} {e : Expr} {P : Expr → Prop} {ts : List Lexeme}
  {name : String}

theorem reads_attribute (hf : s.Follows i (markLexeme '.' :: (.name, name) :: ts))
    (hn : IsPlainName name) :
    Reads s (trailer r e) i (i + 2) (fun longer => ∃ dot, longer = .attribute e dot name) := by
  refine .first ((reads_mark hf.at rfl hf.tail.at).bind fun dot _ => ?_)
  refine (reads_name hf.tail.at hn.2).bind fun w hw => .pure ⟨dot, ?_⟩
  rw [show w.text = name from congrArg Prod.snd hw]

/-- A link reads the next segment of a dotted name. -/
def LinksNames (s : Source) (link : Expr → Parser Expr) : Prop :=
  ∀ e i name (y : Lexeme) ts, s.Follows i (markLexeme '.' :: (.name, name) :: y :: ts) →
    IsPlainName name → y.2 ∈ ["(", "[", "."] →
    Reads s (link e) i (i + 2) (fun longer => ∃ dot, longer = .attribute e dot name)

theorem linksNames_trailer : LinksNames s (trailer r) :=
  fun _ _ _ _ _ hf hn _ => reads_attribute hf hn

/-- A name is read segment by segment up to the bracket behind it. -/
theorem extends_dotted {link : Expr → Parser Expr} (hlink : LinksNames s link)
    {segments : List String} (hs : ∀ x ∈ segments, IsPlainName x)
    (hf : s.Follows i (dottedTail segments ++ markLexeme '(' :: ts)) (he : e.segments ≠ [])
    (h : ∀ longer, longer.segments = e.segments ++ segments →
      Extends s link (i + 2 * segments.length) longer j P) : Extends s link i e j P := by
  -- The expression read so far grows by one attribute with each segment.
  induction segments generalizing i e with
  | nil =>
    rw [List.length_nil, Nat.mul_zero, Nat.add_zero] at h
    exact h e (List.append_nil _).symm
  | cons x segments ih =>
    obtain ⟨y, more, hy, hmem⟩ : ∃ y more, dottedTail segments ++ markLexeme '(' :: ts = y :: more ∧
        y.2 ∈ ["(", "[", "."] := by
      cases segments with
      | nil => exact ⟨_, _, rfl, by decide⟩
      | cons z segments => exact ⟨_, _, rfl, by decide⟩
    have hf' := hf
    rw [dottedTail, List.cons_append, List.cons_append] at hf
    rw [dottedTail, List.cons_append, List.cons_append, hy] at hf'
    refine .step hf.at (by omega) (hlink e i x y more hf' (hs x List.mem_cons_self) hmem) ?_
    rintro _ ⟨dot, rfl⟩
    have hseg := Expr.segments_attribute he dot x
    refine ih (fun z hz => hs z (List.mem_cons_of_mem x hz)) hf.tail.tail (by simp [hseg]) ?_
    intro longer hl
    have hh := h longer (by rw [hl, hseg, List.append_assoc]; rfl)
    rwa [List.length_cons, show i + 2 * (segments.length + 1) = i + 2 + 2 * segments.length by omega]
      at hh

end Dotted

def Member.positional? : Member → Option Expr
  | .item value _ => some value
  | _ => none

/-- The call of a function with arguments that are given by position. -/
def Expr.Calls (e func : Expr) (args : List Expr) : Prop :=
  ∃ gap before members after, e = .call func gap before members after ∧
    members.map Member.positional? = args.map some

/-- The words behind the first argument of a call. -/
def argumentLexemes : List Lexeme → List Lexeme
  | [] => [markLexeme ')']
  | x :: xs => markLexeme ',' :: x :: argumentLexemes xs

/-- A word behind an argument: neither the expression nor the argument goes on. -/
structure EndsArgument (y : Lexeme) : Prop extends EndsExpr y where
  equal : y.2 ≠ "="
  loop : y.2 ≠ "for"
  async : y.1 ≠ .asyncWord

theorem argumentLexemes_eq_cons (xs ts : List Lexeme) :
    ∃ y more, argumentLexemes xs ++ ts = y :: more ∧ EndsArgument y := by
  cases xs with
  | nil => exact ⟨_, _, rfl, ⟨⟨by decide, by decide, by decide⟩, by decide, by decide, by decide⟩⟩
  | cons x xs => exact ⟨_, _, rfl, ⟨⟨by decide, by decide, by decide⟩, by decide, by decide, by decide⟩⟩

theorem positional?_withComma (comma : Option Around) (member : Member) :
    (member.withComma comma).positional? = member.positional? := by
  cases member <;> rfl

theorem positional?_attachCommas (trailing : Option Around) (members : List (Option Around × Member)) :
    (attachCommas trailing members).map Member.positional? =
      members.map fun member => member.2.positional? := by
  fun_induction attachCommas trailing members with
  | case1 => rfl
  | case2 comma last => simp [positional?_withComma]
  | case3 comma member comma' next rest ih =>
    rw [List.map_cons, ih, positional?_withComma]
    rfl

section Calls

variable {s : Source} {r inner : Rules} {i j : Nat} {x y : Lexeme} {e func : Expr}
  {P : Expr → Prop} {xs ts : List Lexeme} {es : List Expr}

theorem reads_operand (ho : Operand x e) (hx : s.At i x) (hy : s.At (i + 1) y) (hend : EndsExpr y) :
    Reads s (expressionRule r) i (i + 1) (· = e) := by
  refine reads_expression_of_atom (reads_atom ho hx hy hend) hx
    (not_mem_of_not_reserved ho.not_reserved (by decide)) ?_ hy hend
  cases ho <;> nofun

variable (hr : r.expression = expressionRule inner)

include hr in
theorem reads_namedOperand (ho : Operand x e) (hx : s.At i x) (hy : s.At (i + 1) y)
    (hend : EndsExpr y) : Reads s (namedExpression r) i (i + 1) (· = e) := by
  refine .second ?_ ?_
  · -- Only a name is tried as the target of an assignment, and no such mark stands behind it.
    have hmark : Refuses s (mark ":=") (i + 1) := refuses_mark hy (hend.ne (by decide))
    cases ho with
    | name h => exact (reads_name hx h.2).refuses fun _ _ => hmark.bind
    | string value => exact (refuses_name hx (.inl nofun)).bind
    | number n => exact (refuses_name hx (.inl nofun)).bind
  · rw [hr]
    refine (reads_operand ho hx hy hend).bind fun value hv => ?_
    exact (reads_guardNot hy (is_not_of_lexeme (hend.ne (by decide)))).bind fun _ _ => .pure hv

include hr in
theorem reads_positionalArgument (ho : Operand x e) (hx : s.At i x) (hy : s.At (i + 1) y)
    (hend : EndsArgument y) :
    Reads s (positionalArgument r) i (i + 1) (fun member => member.positional? = some e) := by
  have hitem : Reads s (do return Member.item (← namedExpression r) none) i (i + 1)
      (fun member => member.positional? = some e) := by
    refine (reads_namedOperand hr ho hx hy hend.toEndsExpr).bind ?_
    rintro _ rfl
    exact .pure rfl
  have hstar : Refuses s (starredArgument r) i :=
    (refuses_lit hx (ne_of_not_reserved ho.not_reserved (by decide))).bind
  refine (Reads.second hstar hitem).bind fun member hm => ?_
  exact (reads_guardNot hy (is_not_of_lexeme hend.equal)).bind fun _ _ => .pure hm

include hr in
theorem readsMany_arguments (ho : List.Forall₂ Operand xs es)
    (hf : s.Follows i (argumentLexemes xs ++ ts)) :
    ReadsMany s (do return (some (← comma), ← positionalArgument r)) i (i + 2 * xs.length)
      (fun members => members.map (fun member => member.2.positional?) = es.map some) := by
  induction ho generalizing i with
  | nil => exact Refuses.readsMany (refuses_comma hf.at (by decide)).bind rfl
  | @cons x e xs es hxe ho ih =>
    obtain ⟨y, more, hy, hend⟩ := argumentLexemes_eq_cons xs ts
    rw [argumentLexemes, List.cons_append, List.cons_append] at hf
    have hrest := hf.tail.tail
    have hnext := hf.tail.tail
    rw [hy] at hnext
    have hone : Reads s (do return (some (← comma), ← positionalArgument r)) i (i + 2)
        (fun member => member.2.positional? = some e) := by
      refine (reads_comma hf.at rfl).bind fun comma _ => ?_
      refine (reads_positionalArgument hr hxe hf.tail.at hnext.at hend).bind fun member hm => ?_
      exact .pure hm
    refine hone.readsMany hf.at (by omega) fun member hm => ?_
    have hh := ih hrest
    rw [List.length_cons, show i + 2 * (xs.length + 1) = i + 2 + 2 * xs.length by omega]
    intro fuel hfuel
    refine (hh fuel hfuel).mono fun members hms => ?_
    rw [List.map_cons, hm, hms, List.map_cons]

omit hr in
theorem follows_closing (xs : List Lexeme) (hf : s.Follows i (argumentLexemes xs ++ ts)) :
    s.Follows (i + 2 * xs.length) (markLexeme ')' :: ts) := by
  induction xs generalizing i with
  | nil => exact hf
  | cons x xs ih =>
    rw [argumentLexemes, List.cons_append, List.cons_append] at hf
    rw [List.length_cons, show i + 2 * (xs.length + 1) = i + 1 + 1 + 2 * xs.length by omega]
    exact ih hf.tail.tail

include hr in
theorem reads_argumentsAfter (ho : List.Forall₂ Operand xs es) {first : Member}
    (hf : s.Follows i (argumentLexemes xs ++ ts)) :
    Reads s (argumentsAfter r first) i (i + 2 * xs.length)
      (fun members => members.map (fun member => member.2.positional?) =
        first.positional? :: es.map some) := by
  have hclose := follows_closing _ hf
  refine (readsMany_arguments hr ho hf).many.bind fun rest hrest => ?_
  refine (Refuses.optional (refuses_comma hclose.at (by decide)).bind).bind ?_
  rintro _ rfl
  refine .pure ?_
  simp [hrest]

omit hr in
theorem reads_endArguments {members : List (Option Around × Member)}
    (hx : s.At i (markLexeme ')')) :
    Reads s (endArguments members) i i (fun args =>
      args.map Member.positional? = members.map fun member => member.2.positional?) := by
  refine (refuses_comma hx (by decide)).optional.bind ?_
  rintro _ rfl
  refine (reads_guard hx (is_of_lexeme rfl)).bind fun _ _ => .pure ?_
  exact positional?_attachCommas none members

include hr in
/-- The arguments of a call with the brackets around them. -/
theorem reads_call (hxe : Operand x e) (ho : List.Forall₂ Operand xs es)
    (hf : s.Follows i (markLexeme '(' :: x :: (argumentLexemes xs ++ ts))) :
    Reads s (trailer r func) i (i + 3 + 2 * xs.length) (fun call => call.Calls func (e :: es)) := by
  obtain ⟨y, more, hy, hend⟩ := argumentLexemes_eq_cons xs ts
  have hbehind := hf.tail.tail
  have hnext := hbehind
  rw [hy] at hnext
  have hclose := follows_closing _ hbehind
  refine .second (refuses_mark hf.at (by decide)).bind (.first ?_)
  refine (reads_lit hf.at rfl).bind fun w _ => (reads_nextGap hf.tail.at).bind fun before _ => ?_
  refine .first ((reads_namedOperand hr hxe hf.tail.at hnext.at hend.toEndsExpr).bind ?_)
  rintro _ rfl
  -- No comprehension follows the first argument, so the others are read.
  refine .second ?_ ?_
  · have hloop : Refuses s (compLoop r) (i + 2) := by
      refine (reads_peek hnext.at).refuses fun w _ => ?_
      refine (Refuses.optional (refuses_kind hnext.at hend.async).bind).refuses fun _ _ => ?_
      exact (refuses_lit hnext.at hend.loop).bind
    exact hloop.bind.bind.bind
  · refine (reads_guardNot hnext.at (is_not_of_lexeme hend.equal)).bind fun _ _ => ?_
    refine (reads_argumentsAfter hr ho hbehind).bind fun members hm => ?_
    refine (reads_endArguments hclose.at).bind fun args hargs => ?_
    rw [show i + 3 + 2 * xs.length = i + 1 + 1 + 2 * xs.length + 1 by omega]
    refine (reads_lit hclose.at rfl).bind fun w _ => .pure ⟨_, _, args, _, rfl, ?_⟩
    rw [hargs, hm]
    rfl

/-- The words of a call of a dotted name. -/
def callLexemes (name : String) (segments : List String) (x : Lexeme) (xs : List Lexeme) :
    List Lexeme :=
  (.name, name) :: (dottedTail segments ++ markLexeme '(' :: x :: argumentLexemes xs)

theorem callLexemes_append (name : String) (segments : List String) (x : Lexeme)
    (xs ts : List Lexeme) : callLexemes name segments x xs ++ ts =
      (.name, name) :: (dottedTail segments ++ markLexeme '(' :: x :: (argumentLexemes xs ++ ts)) := by
  simp [callLexemes]

/-- The places behind the function of a call and behind the call. -/
theorem follows_call {name : String} {segments : List String}
    (hf : s.Follows i (callLexemes name segments x xs ++ ts)) :
    s.Follows (i + 1 + 2 * segments.length)
        (markLexeme '(' :: x :: (argumentLexemes xs ++ ts)) ∧
      s.Follows (i + 1 + 2 * segments.length + 3 + 2 * xs.length) ts := by
  have hargs : s.Follows (i + 1 + 2 * segments.length)
      (markLexeme '(' :: x :: (argumentLexemes xs ++ ts)) := by
    rw [callLexemes_append] at hf
    have htail := hf.tail
    clear hf
    generalize i + 1 = k at htail
    induction segments generalizing k with
    | nil => exact htail
    | cons y segments ih =>
      have hk : k + 2 * (segments.length + 1) = k + 1 + 1 + 2 * segments.length := by omega
      rw [List.length_cons, hk]
      exact ih _ htail.tail.tail
  refine ⟨hargs, ?_⟩
  have hh := (follows_closing _ hargs.tail.tail).tail
  rwa [show i + 1 + 2 * segments.length + 1 + 1 + 2 * xs.length + 1 =
    i + 1 + 2 * segments.length + 3 + 2 * xs.length by omega] at hh

include hr in
theorem reads_dottedCall {name : String} {segments : List String}
    (hs : ∀ z ∈ name :: segments, IsPlainName z) (hxe : Operand x e)
    (ho : List.Forall₂ Operand xs es) (hf : s.Follows i (callLexemes name segments x xs ++ y :: ts))
    (hend : EndsExpr y) :
    Reads s (expressionRule r) i (i + 1 + 2 * segments.length + 3 + 2 * xs.length)
      (fun call => ∃ func, func.segments = name :: segments ∧ call.Calls func (e :: es)) := by
  obtain ⟨hopen, hbehind⟩ := follows_call hf
  have hname := hs name List.mem_cons_self
  rw [callLexemes_append] at hf
  refine reads_expression ?_ hf.at (not_mem_of_not_reserved hname.not_reserved (by decide)) nofun
    hbehind.at hend
  have hcount : Reads s wordCount i i (· = s.words.size) := fun m => ⟨_, m, rfl, rfl⟩
  refine hcount.bind ?_
  rintro _ rfl
  refine (reads_nameAtom hf.at hname.2).bind ?_
  rintro _ rfl
  have hfirst : (Expr.name name).segments = [name] := by simp [Expr.segments]
  refine extends_dotted linksNames_trailer (fun z hz => hs z (List.mem_cons_of_mem name hz)) hf.tail
    (by simp [hfirst]) ?_ _ (Nat.le_add_right _ _)
  intro func hfunc
  rw [hfirst] at hfunc
  refine .step hopen.at (by omega) (reads_call hr hxe ho hopen) fun call hcall => ?_
  exact .stop (refuses_trailer hbehind.at hend) ⟨func, hfunc, hcall⟩

end Calls

end Hydration.Syntax
