import Hydration.Proofs.LiteralPhrases
import Hydration.Proofs.Suites

/-! Lines of functions: decorators, the head with its parameters, and a line that returns a value. -/

namespace Hydration.Syntax

open Hydration.Syntax.Parser

def paramChars : List String → List Char
  | [] => [')']
  | name :: names => name.toList ++ argumentChars (names.map Argument.name)

/-- The text of a head up to its colon. -/
def headChars (name : String) (params : List String) : List Char :=
  functionChars name (paramChars params ++ [':'])

section Heads

variable {name word newline : String} {names params decorators : List String} {rest : List Char}

theorem isPlain_names (h : ∀ n ∈ names, IsPlainName n) :
    ∀ a ∈ names.map Argument.name, a.IsPlain := by
  rintro _ ha
  obtain ⟨n, hn, rfl⟩ := List.mem_map.mp ha
  exact h n hn

theorem breaks_cons {c : Char} (h : mayContinueWord c = false ∧ isQuote c = false) (rest : List Char) :
    Breaks (c :: rest) := by
  rintro d ⟨⟩
  exact h

theorem spells_paramChars (hp : ∀ p ∈ params, IsPlainName p) (rest : List Char) :
    Spells (paramChars params ++ rest) (paramLexemes params) rest := by
  cases params with
  | nil => exact .bracket rfl .done
  | cons name names =>
    obtain ⟨hname, hnames⟩ := List.forall_mem_cons.mp hp
    have hargs := spells_argumentChars (isPlain_names hnames) rest
    have hh := (Argument.spells (a := .name name) hname (closes_argumentChars _ rest)).append hargs
    rw [← List.append_assoc] at hh
    rw [List.map_map] at hh
    rw [paramLexemes]
    exact hh

theorem unbroken_paramChars (hp : ∀ p ∈ params, IsPlainName p) : Unbroken (paramChars params) := by
  cases params with
  | nil => exact unbroken_of_not_mem (by decide) (by decide)
  | cons name names =>
    obtain ⟨hname, hnames⟩ := List.forall_mem_cons.mp hp
    exact unbroken_append.mpr ⟨unbroken_identifier hname.1, unbroken_argumentChars (isPlain_names hnames)⟩

theorem nesting_paramLexemes (n : Nat) (params : List String) :
    nesting (n + 1) (paramLexemes params) = n := by
  cases params with
  | nil => rfl
  | cons name names =>
    have hh := nesting_argumentLexemes n (names.map Argument.name)
    rw [List.map_map] at hh
    exact hh

theorem isLine_headChars (hn : IsPlainName name) (hp : ∀ p ∈ params, IsPlainName p) :
    IsLine (headChars name params) (functionLexemes name params) where
  spells rest hrest := by
    have hcolon : Spells (':' :: rest) [markLexeme ':'] rest :=
      .mark (.inr (.inr (.inl rfl))) hrest.then_mark .done
    have hparams := (spells_paramChars hp (':' :: rest)).append hcolon
    have hname := spells_identifier hn.1 (breaks_cons (c := '(') (by decide) (paramChars params ++ ':' :: rest))
    rw [wordLexeme_of_plain hn] at hname
    have hh := (spells_def _).append (.gap rfl (hname.append (.bracket (c := '(') rfl hparams)))
    have htext : headChars name params ++ rest = "def".toList ++ ' ' :: (name.toList ++
        '(' :: (paramChars params ++ ':' :: rest)) := by
      simp [headChars, functionChars]
    rw [htext]
    exact hh
  starts rest c hc := by
    obtain rfl : c = 'd' := (Option.some.inj hc).symm
    rfl
  unbroken := by
    refine unbroken_append.mpr ⟨unbroken_of_not_mem (by decide) (by decide), unbroken_cons.mpr ⟨rfl, ?_⟩⟩
    refine unbroken_append.mpr ⟨unbroken_identifier hn.1, unbroken_cons.mpr ⟨rfl, ?_⟩⟩
    exact unbroken_append.mpr ⟨unbroken_paramChars hp, unbroken_of_not_mem (by decide) (by decide)⟩
  closed := by
    change nesting 1 (paramLexemes params ++ [markLexeme ':']) = 0
    rw [nesting_append, nesting_paramLexemes]
    rfl
  some_word := List.cons_ne_nil _ _

theorem isLine_decorator (hw : IsPlainName word) :
    IsLine ('@' :: word.toList) [markLexeme '@', (.name, word)] where
  spells rest hrest := by
    have hword := spells_identifier hw.1 hrest.breaks
    rw [wordLexeme_of_plain hw] at hword
    refine .mark (.inr (.inr (.inr (.inr rfl)))) (fun d hd => ?_) hword
    exact mark_then_word (mayStartWord_head hw.1 _ d hd)
  starts rest c hc := by
    obtain rfl : c = '@' := (Option.some.inj hc).symm
    rfl
  unbroken := unbroken_cons.mpr ⟨rfl, unbroken_identifier hw.1⟩
  closed := rfl
  some_word := List.cons_ne_nil _ _

def CodeLine.head (hn : IsPlainName name) (hp : ∀ p ∈ params, IsPlainName p) : CodeLine :=
  ⟨headChars name params, functionLexemes name params, isLine_headChars hn hp⟩

def CodeLine.decorator (hw : IsPlainName word) : CodeLine :=
  ⟨'@' :: word.toList, [markLexeme '@', (.name, word)], isLine_decorator hw⟩

theorem CodeLine.chars_head (hn : IsPlainName name) (hp : ∀ p ∈ params, IsPlainName p) :
    (CodeLine.head hn hp).chars "" newline = "def".toList ++ ' ' :: (name.toList ++
      '(' :: (paramChars params ++ ':' :: newline.toList)) := by
  simp [CodeLine.chars, CodeLine.head, headChars, functionChars]

theorem CodeLine.chars_decorator (hw : IsPlainName word) :
    (CodeLine.decorator hw).chars "" newline = '@' :: (word.toList ++ newline.toList) :=
  rfl

end Heads

/-- A statement that returns a value of a kind. -/
def Small.Returns (P : Expr → Prop) (small : Small) : Prop :=
  ∃ gap value, small = .return_ (some (gap, value)) ∧ P value

/-- The words are read as an expression of a kind by rules that are deep enough for them. -/
def MeansValue (words : List Lexeme) (P : Expr → Prop) : Prop :=
  ∀ s depth, words.length ≤ depth → ReadsValue s (expressionRule (Rules.upTo depth)) words P

section Returns

variable {s : Source} {r inner : Rules} {i j : Nat} {x y : Lexeme} {words ts : List Lexeme}
  {P : Expr → Prop} {newline : String} {value : List Char}

theorem startsNoExpr_return : StartsNoExpr (.name, "return") :=
  ⟨.inr (by decide), by decide, by decide⟩

theorem reads_returnLine (hr : r.expression = expressionRule inner)
    (ht : r.starTarget = starTargetRule inner) (hx : s.At i (.name, "return")) (hv : s.At (i + 1) x)
    (hstar : x.2 ≠ "*") (h : Reads s r.expression (i + 1) j P) (hy : s.At j y) (hend : IsLineEnd y) :
    Reads s (statementRule r) i (j + 1) (Stmt.IsLineOf (Small.Returns P)) := by
  have hexprs : Refuses s (starExpressions r) i := refuses_starExpressions hr startsNoExpr_return hx
  have htype : Refuses s (guard (nextIs "type")) i := refuses_guard hx (is_not_of_lexeme (by decide))
  have hsmall : Reads s (smallStatement r) i j (Small.Returns P) := by
    refine .second htype.bind (.second (refuses_assignment ht startsNoExpr_return hx) ?_)
    refine .second hexprs.bind (.first ((reads_lit hx rfl).bind fun _ _ => ?_))
    have hoperand : Reads s (operand (starExpressions r)) (i + 1) j (fun found => P found.2) :=
      (reads_nextGap hv).bind fun gap _ =>
        (reads_starExpressions h hv hstar hy (hend.ne (by decide))).bind fun e he => .pure he
    refine hoperand.optional.bind ?_
    rintro _ ⟨found, rfl, hP⟩
    exact .pure ⟨found.1, found.2, rfl, hP⟩
  refine reads_line hsmall hx hy hend (refuses_compoundStatement hx (by decide) nofun ?_)
  exact refuses_matchStatement_of_ne hx (by decide)

theorem isLine_return (h : IsLine value words) :
    IsLine ("return".toList ++ ' ' :: value) ((.name, "return") :: words) where
  spells rest hrest := by
    have hword : Spells ("return".toList ++ ' ' :: (value ++ rest)) [(.name, "return")]
        (' ' :: (value ++ rest)) := spells_identifier (by decide) (breaks_cons (by decide) _)
    have hh := hword.append (.gap rfl (h.spells rest hrest))
    rw [← List.cons_append, ← List.append_assoc] at hh
    exact hh
  starts rest c hc := by
    obtain rfl : c = 'r' := (Option.some.inj hc).symm
    rfl
  unbroken := unbroken_append.mpr
    ⟨unbroken_of_not_mem (by decide) (by decide), unbroken_cons.mpr ⟨rfl, h.unbroken⟩⟩
  closed := h.closed
  some_word := List.cons_ne_nil _ _

/-- A line that returns a value. -/
theorem exists_returnLine (hline : IsLine value words) (hm : MeansValue words P)
    (hstar : ∀ x ∈ words.head?, x.2 ≠ "*") (hn : newline ∈ ["\n", "\r\n", "\r"]) :
    ∃ line : CodeLine, line.code = "return".toList ++ ' ' :: value ∧
      line.Means newline (Stmt.IsLineOf (Small.Returns P)) := by
  obtain ⟨x, xs, rfl⟩ := List.exists_cons_of_ne_nil hline.some_word
  refine ⟨⟨_, _, isLine_return hline⟩, rfl, fun s depth hdepth i ts hf => ?_⟩
  have hlen : i + ((.name, "return") :: (x :: xs) ++ [(.newline, newline)] : List Lexeme).length =
      i + 1 + (x :: xs).length + 1 := by
    simp only [List.cons_append, List.length_cons, List.length_append, List.length_nil]
    omega
  rw [CodeLine.lexemes, List.cons_append, List.cons_append, List.append_assoc] at hf
  rw [CodeLine.lexemes, hlen]
  have hvalue := hm s depth (by simp only [List.length_cons] at hdepth ⊢; omega) (i + 1) _ _ hf.tail
    (IsLineEnd.endsExpr ⟨rfl, hn⟩)
  exact reads_returnLine (upTo_expression depth) (upTo_starTarget depth) hf.at
    hf.tail.at (hstar x rfl) hvalue hf.tail.drop.at ⟨rfl, hn⟩

end Returns

section Values

variable {literal : Literal} {newline func : String} {a : Argument} {as : List Argument}

mutual

theorem unbroken_literal (literal : Literal) : Unbroken literal.chars := by
  cases literal with
  | text value => exact unbroken_quotedChars value.toList
  | number value => exact unbroken_digits value
  | flag value => cases value <;> exact unbroken_of_not_mem (by decide) (by decide)
  | list items =>
    refine unbroken_cons.mpr ⟨rfl, unbroken_append.mpr ⟨unbroken_listChars items, ?_⟩⟩
    exact unbroken_of_not_mem (by decide) (by decide)
  | table entries =>
    refine unbroken_cons.mpr ⟨rfl, unbroken_append.mpr ⟨unbroken_tableChars entries, ?_⟩⟩
    exact unbroken_of_not_mem (by decide) (by decide)

theorem unbroken_listChars (items : List Literal) : Unbroken (Literal.listChars items) := by
  match items with
  | [] => exact List.forall_mem_nil _
  | [item] => exact unbroken_literal item
  | item :: next :: items =>
    refine unbroken_append.mpr ⟨unbroken_literal item, unbroken_cons.mpr ⟨rfl, unbroken_cons.mpr ⟨rfl, ?_⟩⟩⟩
    exact unbroken_listChars (next :: items)

theorem unbroken_tableChars (entries : List (String × Literal)) :
    Unbroken (Literal.tableChars entries) := by
  match entries with
  | [] => exact List.forall_mem_nil _
  | [(key, value)] =>
    refine unbroken_append.mpr ⟨unbroken_quotedChars key.toList, ?_⟩
    exact unbroken_cons.mpr ⟨rfl, unbroken_cons.mpr ⟨rfl, unbroken_literal value⟩⟩
  | (key, value) :: next :: entries =>
    have hpair : Unbroken (Text.quotedChars key.toList ++ ':' :: ' ' :: value.chars) :=
      unbroken_append.mpr ⟨unbroken_quotedChars key.toList,
        unbroken_cons.mpr ⟨rfl, unbroken_cons.mpr ⟨rfl, unbroken_literal value⟩⟩⟩
    refine unbroken_append.mpr ⟨hpair, unbroken_cons.mpr ⟨rfl, unbroken_cons.mpr ⟨rfl, ?_⟩⟩⟩
    exact unbroken_tableChars (next :: entries)

end

mutual

/-- Every bracket of a literal is closed. -/
theorem nesting_literal (n : Nat) (literal : Literal) : nesting n literal.lexemes = n := by
  cases literal with
  | text value => rfl
  | number value => rfl
  | flag value => cases value <;> rfl
  | list items =>
    change nesting (n + 1) (Literal.listLexemes items ++ [markLexeme ']']) = n
    rw [nesting_append, nesting_listLexemes]
    rfl
  | table entries =>
    change nesting (n + 1) (Literal.tableLexemes entries ++ [markLexeme '\x7d']) = n
    rw [nesting_append, nesting_tableLexemes]
    rfl

theorem nesting_listLexemes (n : Nat) (items : List Literal) :
    nesting n (Literal.listLexemes items) = n := by
  match items with
  | [] => rfl
  | [item] => exact nesting_literal n item
  | item :: next :: items =>
    rw [Literal.listLexemes, nesting_append, nesting_literal]
    exact nesting_listLexemes n (next :: items)

theorem nesting_tableLexemes (n : Nat) (entries : List (String × Literal)) :
    nesting n (Literal.tableLexemes entries) = n := by
  match entries with
  | [] => rfl
  | [(key, value)] => exact nesting_literal n value
  | (key, value) :: next :: entries =>
    rw [Literal.tableLexemes, nesting_append]
    change nesting (nesting n value.lexemes) (Literal.tableLexemes (next :: entries)) = n
    rw [nesting_literal]
    exact nesting_tableLexemes n (next :: entries)

end

theorem literal_ne_nil (literal : Literal) : literal.chars ≠ [] := by
  cases literal with
  | number value => exact Nat.toDigits_ne_nil
  | flag value => cases value <;> exact List.cons_ne_nil _ _
  | _ => exact List.cons_ne_nil _ _

theorem not_gap_of_head_literal {c : Char} (h : c ∈ literal.chars.head?) : isGapChar c = false := by
  cases literal with
  | text value =>
    obtain rfl := Option.some.inj h
    exact not_gap_of_isQuote (isQuote_chooseQuote _)
  | number value =>
    have hdigit := Nat.isDigit_of_mem_toDigits (by decide) (by decide) (List.mem_of_mem_head? h)
    exact not_gap_of_mayContinueWord (by simp [mayContinueWord, hdigit])
  | flag value =>
    cases value
    all_goals
      obtain rfl := Option.some.inj h
      rfl
  | list items =>
    obtain rfl := Option.some.inj h
    rfl
  | table entries =>
    obtain rfl := Option.some.inj h
    rfl

theorem isLine_literal (literal : Literal) : IsLine literal.chars literal.lexemes where
  spells rest hrest := literal.spells_chars hrest
  starts rest c hc := by
    have hhead : c ∈ literal.chars.head? := by
      obtain ⟨d, ds, hd⟩ := List.exists_cons_of_ne_nil (literal_ne_nil literal)
      rw [hd] at hc ⊢
      exact hc
    exact not_gap_of_head_literal hhead
  unbroken := unbroken_literal literal
  closed := nesting_literal 0 literal
  some_word := by
    obtain ⟨x, xs, hx, -⟩ := lexemes_eq_cons literal
    rw [hx]
    exact List.cons_ne_nil _ _

theorem exists_literalLine (hk : literal.Keyed) (hn : newline ∈ ["\n", "\r\n", "\r"]) :
    ∃ line : CodeLine, line.code = "return".toList ++ ' ' :: literal.chars ∧
      line.Means newline (Stmt.IsLineOf (Small.Returns fun e => e.literal? = some literal)) := by
  obtain ⟨x, xs, hx, hstarts⟩ := lexemes_eq_cons literal
  refine exists_returnLine (isLine_literal literal) (fun s depth hd => reads_literal hk s hd) ?_ hn
  intro y hy
  rw [hx] at hy
  obtain rfl := Option.some.inj hy
  exact fun he => hstarts.text (by simp [he])

theorem exists_returnCallLine (hf : IsPlainDotted func) (ha : ∀ b ∈ a :: as, b.IsPlain)
    (hn : newline ∈ ["\n", "\r\n", "\r"]) :
    ∃ line : CodeLine, line.code = "return".toList ++ ' ' :: callChars func a as ∧
      line.Means newline (Stmt.IsLineOf (Small.Returns fun call => ∃ f, f.segments = splitDots func ∧
        call.Calls f ((a :: as).map Argument.expr))) := by
  obtain ⟨root, segments, hsplit⟩ := List.exists_cons_of_ne_nil (splitDots_ne_nil func)
  have hs : ∀ z ∈ root :: segments, IsPlainName z := hsplit ▸ hf
  have hline := isLine_callChars hsplit hf ha
  obtain ⟨ha, has⟩ := List.forall_mem_cons.mp ha
  rw [hsplit]
  refine exists_returnLine hline ?_ ?_ hn
  · intro s depth hd i y ts hfollows hend
    obtain ⟨depth, rfl⟩ : ∃ d, depth = d + 1 := Nat.exists_eq_succ_of_ne_zero (by
      simp only [callLexemes, List.length_cons] at hd
      omega)
    rw [length_callLexemes, ← Nat.add_assoc, ← Nat.add_assoc, ← Nat.add_assoc]
    exact reads_dottedCall (upTo_expression depth) hs (Argument.operand ha)
      (Argument.operands has) hfollows hend
  · intro x hx
    obtain rfl : (.name, root) = x := Option.some.inj hx
    exact ne_of_not_reserved (hs root List.mem_cons_self).not_reserved (by decide)

end Values

end Hydration.Syntax
