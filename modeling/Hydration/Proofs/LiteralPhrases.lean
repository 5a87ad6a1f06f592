import Hydration.Proofs.Evaluation
import Hydration.Proofs.Refusals

/-! Literals that are read as expressions. The words of a literal are read as an expression with its
value, where the rules are deep enough for them. -/

namespace Hydration.Syntax

open Hydration.Syntax.Parser

/-- The words are read as an expression of a kind, wherever they stand. -/
def ReadsValue (s : Source) (parser : Parser Expr) (words : List Lexeme) (P : Expr → Prop) : Prop :=
  ∀ i y ts, s.Follows i (words ++ y :: ts) → EndsExpr y → Reads s parser i (i + words.length) P

/-- A word that a literal starts with, which is no operator and no name that could be assigned to. -/
structure StartsLiteral (x : Lexeme) : Prop where
  name : x.1 ≠ .name ∨ x.2 ∈ keywords
  text : x.2 ∉ ["*", "**", "+", "-", "~", "not"]
  await : x.1 ≠ .awaitWord

section Words

variable {items : List Literal} {entries : List (String × Literal)} {item : Literal} {key : String}

theorem startsLiteral_mark {c : Char} (h : c ∈ ['[', '\x7b']) : StartsLiteral (markLexeme c) := by
  simp only [List.mem_cons, List.not_mem_nil, or_false] at h
  rcases h with rfl | rfl
  all_goals exact ⟨.inl nofun, by decide, nofun⟩

theorem startsLiteral_operand {x : Lexeme} {e : Expr} (ho : Operand x e)
    (hk : x.1 = .string ∨ x.1 = .number) : StartsLiteral x := by
  refine ⟨.inl ?_, ?_, ?_⟩
  · rcases hk with h | h <;> simp [h]
  · refine fun hm => ho.not_reserved ?_
    have hall : ∀ t ∈ ["*", "**", "+", "-", "~", "not"], t ∈ reserved := by decide
    exact hall _ hm
  · rcases hk with h | h <;> simp [h]

theorem wordLexeme_flag (value : Bool) :
    wordLexeme (if value then "True".toList else "False".toList) =
      (.name, if value then "True" else "False") := by
  cases value <;> rfl

theorem lexemes_eq_cons (literal : Literal) :
    ∃ x xs, literal.lexemes = x :: xs ∧ StartsLiteral x := by
  cases literal with
  | text value => exact ⟨_, [], rfl, startsLiteral_operand (.string value) (.inl rfl)⟩
  | number value => exact ⟨_, [], rfl, startsLiteral_operand (.number value) (.inr rfl)⟩
  | flag value =>
    refine ⟨_, [], rfl, ?_⟩
    rw [wordLexeme_flag]
    cases value
    all_goals exact ⟨.inr (by decide), by decide, nofun⟩
  | list items => exact ⟨_, _, rfl, startsLiteral_mark (by decide)⟩
  | table entries => exact ⟨_, _, rfl, startsLiteral_mark (by decide)⟩

/-- The words of further members, each behind a comma. -/
def separatedLexemes {α : Type} (words : α → List Lexeme) : List α → List Lexeme
  | [] => []
  | a :: as => markLexeme ',' :: (words a ++ separatedLexemes words as)

def pairLexemes (entry : String × Literal) : List Lexeme :=
  (.string, Text.quoted entry.1) :: markLexeme ':' :: entry.2.lexemes

theorem listLexemes_cons (item : Literal) (items : List Literal) :
    Literal.listLexemes (item :: items) = item.lexemes ++ separatedLexemes Literal.lexemes items := by
  induction items generalizing item with
  | nil => simp [Literal.listLexemes, separatedLexemes]
  | cons next items ih => rw [Literal.listLexemes, ih, separatedLexemes]

theorem tableLexemes_cons (entry : String × Literal) (entries : List (String × Literal)) :
    Literal.tableLexemes (entry :: entries) =
      pairLexemes entry ++ separatedLexemes pairLexemes entries := by
  induction entries generalizing entry with
  | nil => simp [Literal.tableLexemes, pairLexemes, separatedLexemes]
  | cons next entries ih =>
    rw [Literal.tableLexemes, ih]
    rfl

end Words

section Members

variable {α β : Type} {s : Source} {i : Nat} {p : Parser β} {words : α → List Lexeme} {a : α}
  {as : List α} {Q : α → β → Prop} {withComma : Option Around → β → β} {first : β} {close : Char}
  {ts : List Lexeme}

theorem endsExpr_mark {c : Char} (h : c ∈ [',', ':', ']', '\x7d']) : EndsExpr (markLexeme c) := by
  simp only [List.mem_cons, List.not_mem_nil, or_false] at h
  rcases h with rfl | rfl | rfl | rfl
  all_goals exact ⟨by decide, by decide, by decide⟩

theorem separatedLexemes_eq_cons (words : α → List Lexeme) (as : List α) (hclose : close ∈ [']', '\x7d'])
    (ts : List Lexeme) :
    ∃ y more, separatedLexemes words as ++ markLexeme close :: ts = y :: more ∧ EndsExpr y := by
  cases as with
  | nil => exact ⟨_, ts, rfl, endsExpr_mark (List.mem_cons_of_mem _ (List.mem_cons_of_mem _ hclose))⟩
  | cons a as => exact ⟨_, _, rfl, endsExpr_mark (by decide)⟩

theorem markLexeme_ne_comma (hclose : close ∈ [']', '\x7d']) : (markLexeme close).2 ≠ "," := by
  simp only [List.mem_cons, List.not_mem_nil, or_false] at hclose
  rcases hclose with rfl | rfl <;> decide

theorem readsMany_separated (hclose : close ∈ [']', '\x7d'])
    (h : ∀ a ∈ as, ∀ i y ts, s.Follows i (words a ++ y :: ts) → EndsExpr y →
      Reads s p i (i + (words a).length) (Q a))
    (hf : s.Follows i (separatedLexemes words as ++ markLexeme close :: ts)) :
    ReadsMany s (do return (← comma, ← p)) i (i + (separatedLexemes words as).length)
      (fun ms => List.Forall₂ Q as (ms.map Prod.snd)) := by
  induction as generalizing i with
  | nil => exact Refuses.readsMany (refuses_comma hf.at (markLexeme_ne_comma hclose)).bind .nil
  | cons a as ih =>
    obtain ⟨ha, has⟩ := List.forall_mem_cons.mp h
    rw [separatedLexemes, List.cons_append, List.append_assoc] at hf
    obtain ⟨y, more, hy, hend⟩ := separatedLexemes_eq_cons words as hclose ts
    have hmember := hf.tail
    rw [hy] at hmember
    have hone : Reads s (do return (← comma, ← p)) i (i + 1 + (words a).length)
        (fun m => Q a m.2) :=
      (reads_comma hf.at rfl).bind fun _ _ => (ha _ _ _ hmember hend).bind fun _ hm => .pure hm
    refine hone.readsMany hf.at (by omega) fun m hm => ?_
    have hlen : i + (separatedLexemes words (a :: as)).length =
        i + 1 + (words a).length + (separatedLexemes words as).length := by
      rw [separatedLexemes, List.length_cons, List.length_append]
      omega
    rw [hlen]
    intro fuel hfuel
    exact (ih has hf.tail.drop fuel hfuel).mono fun ms hms => .cons hm hms

theorem forall₂_joinCommas (hcomma : ∀ a b comma, Q a b → Q a (withComma comma b))
    {rest : List (Around × β)} {trailing : Option Around} (hfirst : Q a first)
    (hrest : List.Forall₂ Q as (rest.map Prod.snd)) :
    List.Forall₂ Q (a :: as) (joinCommas withComma first rest trailing) := by
  induction rest generalizing a as first with
  | nil =>
    obtain rfl := List.forall₂_nil_right_iff.mp hrest
    exact .cons (hcomma _ _ _ hfirst) .nil
  | cons item rest ih =>
    obtain ⟨b, bs, hb, hbs, rfl⟩ := List.forall₂_cons_right_iff.mp hrest
    exact .cons (hcomma _ _ _ hfirst) (ih hb hbs)

/-- Further members up to a closing bracket. -/
theorem reads_separatedAfter (hclose : close ∈ [']', '\x7d'])
    (hcomma : ∀ a b comma, Q a b → Q a (withComma comma b))
    (h : ∀ a ∈ as, ∀ i y ts, s.Follows i (words a ++ y :: ts) → EndsExpr y →
      Reads s p i (i + (words a).length) (Q a)) (hfirst : Q a first)
    (hf : s.Follows i (separatedLexemes words as ++ markLexeme close :: ts)) :
    Reads s (separatedAfter withComma first p) i (i + (separatedLexemes words as).length)
      (List.Forall₂ Q (a :: as)) := by
  refine (readsMany_separated hclose h hf).many.bind fun rest hrest => ?_
  refine (refuses_comma hf.drop.at (markLexeme_ne_comma hclose)).optional.bind fun trailing _ => ?_
  exact .pure (forall₂_joinCommas hcomma hfirst hrest)

end Members

def Member.IsItem (item : Literal) (m : Member) : Prop :=
  ∃ value comma, m = .item value comma ∧ value.literal? = some item

def Member.IsPair (entry : String × Literal) (m : Member) : Prop :=
  ∃ key colon value comma, m = .pair key colon value comma ∧
    key.literal? = some (.text entry.1) ∧ value.literal? = some entry.2

section Values

variable {members : List Member} {items : List Literal} {entries : List (String × Literal)}

theorem Member.IsItem.withComma {item : Literal} {m : Member} (h : m.IsItem item)
    (comma : Option Around) : (m.withComma comma).IsItem item := by
  obtain ⟨value, old, rfl, hv⟩ := h
  exact ⟨value, comma, rfl, hv⟩

theorem Member.IsPair.withComma {entry : String × Literal} {m : Member} (h : m.IsPair entry)
    (comma : Option Around) : (m.withComma comma).IsPair entry := by
  obtain ⟨key, colon, value, old, rfl, hk, hv⟩ := h
  exact ⟨key, colon, value, comma, rfl, hk, hv⟩

theorem itemLiterals?_eq (h : List.Forall₂ (fun item m => m.IsItem item) items members) :
    itemLiterals? members = some items := by
  induction h with
  | nil => rfl
  | cons hm _ ih =>
    obtain ⟨value, comma, rfl, hv⟩ := hm
    rw [itemLiterals?, hv, ih]
    rfl

theorem pairLiterals?_eq (h : List.Forall₂ (fun entry m => m.IsPair entry) entries members) :
    pairLiterals? members = some entries := by
  induction h with
  | nil => rfl
  | cons hm _ ih =>
    obtain ⟨key, colon, value, comma, rfl, hk, hv⟩ := hm
    rw [pairLiterals?, hk, hv, ih]
    rfl

end Values

section Literals

variable {s : Source} {r inner : Rules} {i j : Nat} {x y : Lexeme} {words ts : List Lexeme}
  {P : Expr → Prop} {item : Literal} {items : List Literal} {entry : String × Literal}
  {entries : List (String × Literal)}

theorem reads_item (h : ReadsValue s r.expression item.lexemes (fun e => e.literal? = some item))
    (hf : s.Follows i (item.lexemes ++ y :: ts)) (hend : EndsExpr y) :
    Reads s (starNamedExpression r) i (i + item.lexemes.length) (fun e => e.literal? = some item) := by
  have hvalue := h i y ts hf hend
  have hbehind := hf.drop
  obtain ⟨x, xs, hx, hstarts⟩ := lexemes_eq_cons item
  rw [hx, List.cons_append] at hf
  have hstar : x.2 ≠ "*" := fun he => hstarts.text (by simp [he])
  refine .second (refuses_lit hf.at hstar).bind (.second (refuses_name hf.at hstarts.name).bind ?_)
  refine hvalue.bind fun e he => ?_
  exact (reads_guardNot hbehind.at (is_not_of_lexeme (hend.ne (by decide)))).bind fun _ _ => .pure he

theorem reads_textLiteral (value : String) :
    ReadsValue s (expressionRule r) [(.string, Text.quoted value)]
      (fun e => e.literal? = some (.text value)) := by
  intro i y ts hf hend
  refine (reads_operand (.string value) hf.at hf.tail.at hend).mono ?_
  rintro _ rfl
  rw [Expr.literal?, Text.unquote?_quoted]
  rfl

theorem reads_flag (value : Bool) :
    ReadsValue s (expressionRule r) (Literal.flag value).lexemes
      (fun e => e.literal? = some (.flag value)) := by
  intro i y ts hf hend
  rw [Literal.lexemes, wordLexeme_flag] at hf ⊢
  have hname : Refuses s name i := refuses_name hf.at (.inr (by cases value <;> decide))
  have hatom : Reads s (atom r) i (i + 1) (fun e => e.literal? = some (.flag value)) := by
    refine .second hname.bind (.first ?_)
    have hword : Reads s (anyOf ["True", "False", "None"]) i (i + 1)
        (·.lexeme = (.name, if value then "True" else "False")) := by
      refine reads_word hf.at fun w hw => ?_
      rw [show w.text = if value then "True" else "False" from congrArg Prod.snd hw]
      cases value <;> rfl
    refine hword.bind fun w hw => .pure ?_
    rw [show w.text = if value then "True" else "False" from congrArg Prod.snd hw]
    cases value <;> rfl
  refine reads_expression_of_atom hatom hf.at ?_ nofun hf.tail.at hend
  cases value <;> decide

theorem reads_bracket {c : Char} (hc : c ∈ ['[', '\x7b']) (hx : s.At i (markLexeme c))
    (hinside : Reads s (if c = '[' then afterSquare r else afterBrace r) (i + 1) j P)
    (hy : s.At j y) (hend : EndsExpr y) : Reads s (expressionRule r) i j P := by
  simp only [List.mem_cons, List.not_mem_nil, or_false] at hc
  rcases hc with rfl | rfl
  · refine reads_expression_of_atom (reads_atom_of_bracket hx (by decide) ?_) hx (by decide) nofun hy hend
    refine .second (refuses_lit hx (by decide)).bind (.first ?_)
    exact (reads_lit hx rfl).bind fun _ _ => hinside
  · refine reads_expression_of_atom (reads_atom_of_bracket hx (by decide) ?_) hx (by decide) nofun hy hend
    refine .second (refuses_lit hx (by decide)).bind (.second (refuses_lit hx (by decide)).bind (.first ?_))
    exact (reads_lit hx rfl).bind fun _ _ => hinside

theorem startsNoExpr_close {c : Char} (hc : c ∈ [']', '\x7d']) : StartsNoExpr (markLexeme c) := by
  simp only [List.mem_cons, List.not_mem_nil, or_false] at hc
  rcases hc with rfl | rfl
  all_goals exact ⟨by decide, by decide, by decide⟩

theorem reads_emptyList (hr : r.expression = expressionRule inner) :
    ReadsValue s (expressionRule r) (Literal.list []).lexemes
      (fun e => e.literal? = some (.list [])) := by
  intro i y ts hf hend
  have hclose := hf.tail
  refine reads_bracket (by decide) hf.at ?_ hclose.tail.at hend
  refine (reads_nextGap hclose.at).bind fun before _ => ?_
  have hnone : Refuses s (starNamedExpression r) (i + 1) :=
    refuses_starNamedExpression hr (startsNoExpr_close (by decide)) hclose.at
  exact .second hnone.bind ((reads_lit hclose.at rfl).bind fun _ _ => .pure rfl)

theorem reads_items (h : ∀ a ∈ items,
      ReadsValue s r.expression a.lexemes (fun e => e.literal? = some a)) {first : Member}
    (hfirst : first.IsItem item)
    (hf : s.Follows i (separatedLexemes Literal.lexemes items ++ markLexeme ']' :: ts)) :
    Reads s (separatedAfter Member.withComma first (starNamedMember r)) i
      (i + (separatedLexemes Literal.lexemes items).length)
      (fun ms => itemLiterals? ms = some (item :: items)) := by
  refine (reads_separatedAfter (Q := fun item m => m.IsItem item) (show ']' ∈ [']', '\x7d'] by decide)
    (fun _ _ comma hm => hm.withComma comma) ?_ hfirst hf).mono fun ms hms => itemLiterals?_eq hms
  intro a ha j y ts hf hend
  exact (reads_item (h a ha) hf hend).bind fun e he => .pure ⟨e, none, rfl, he⟩

theorem reads_list (h : ∀ a ∈ item :: items,
      ReadsValue s r.expression a.lexemes (fun e => e.literal? = some a)) :
    ReadsValue s (expressionRule r) (Literal.list (item :: items)).lexemes
      (fun e => e.literal? = some (.list (item :: items))) := by
  intro i y ts hf hend
  obtain ⟨hitem, hitems⟩ := List.forall_mem_cons.mp h
  have hlen : i + (Literal.list (item :: items)).lexemes.length =
      i + 1 + item.lexemes.length + (separatedLexemes Literal.lexemes items).length + 1 := by
    rw [Literal.lexemes, listLexemes_cons]
    simp only [List.cons_append, List.length_cons, List.length_append, List.length_nil]
    omega
  rw [Literal.lexemes, listLexemes_cons, List.cons_append, List.cons_append, List.append_assoc,
    List.append_assoc] at hf
  have hinside := hf.tail
  obtain ⟨z, more, hz, hnext⟩ := separatedLexemes_eq_cons Literal.lexemes items
    (show ']' ∈ [']', '\x7d'] by decide) (y :: ts)
  have hmember := hinside
  rw [List.singleton_append, hz] at hmember
  obtain ⟨x, xs, hx, -⟩ := lexemes_eq_cons item
  have hstart := hinside
  rw [hx, List.cons_append] at hstart
  have hclose := hinside.drop.drop
  rw [hlen]
  refine reads_bracket (by decide) hf.at ?_ hclose.tail.at hend
  refine (reads_nextGap hstart.at).bind fun before _ => .first ?_
  refine (reads_item hitem hmember hnext).bind fun e he => .first ?_
  refine (reads_items hitems ⟨e, none, rfl, he⟩ hinside.drop).bind fun ms hms => ?_
  refine (reads_lit hclose.at rfl).bind fun _ _ => .pure ?_
  rw [Expr.literal?, hms]
  rfl

/-- A test that is made in front of a phrase does not change that it is refused. -/
theorem refuses_behind_guard {β : Type} {test : Parser Bool} {p : Parser β}
    (ht : Reads s test i i (fun _ => True)) (hp : Refuses s p i) :
    Refuses s (do guard test; p) i := by
  intro m
  obtain ⟨b, m', hb, -⟩ := ht m
  change ∃ n, Parser.bind (Parser.bind test _) _ s i m = .fail n
  rw [Parser.bind, Parser.bind, hb]
  cases b with
  | false => exact ⟨m', rfl⟩
  | true => exact hp m'

theorem reads_emptyTable (hr : r.expression = expressionRule inner) :
    ReadsValue s (expressionRule r) (Literal.table []).lexemes
      (fun e => e.literal? = some (.table [])) := by
  intro i y ts hf hend
  have hclose := hf.tail
  have hstarts : StartsNoExpr (markLexeme '\x7d') := startsNoExpr_close (by decide)
  refine reads_bracket (by decide) hf.at ?_ hclose.tail.at hend
  refine (reads_nextGap hclose.at).bind fun before _ => ?_
  have hexpr : Refuses s r.expression (i + 1) := by
    rw [hr]
    exact refuses_expression hstarts hclose.at
  have htest : Reads s startsStarOrAssigned (i + 1) (i + 1) (fun _ => True) := by
    refine (reads_next hclose.at (is_not_of_lexeme (by decide))).bind ?_
    rintro _ rfl
    exact fun m => ⟨_, m, rfl, trivial⟩
  refine .second (refuses_lit hclose.at (by decide)).bind (.second hexpr.bind (.second ?_ ?_))
  · exact refuses_behind_guard htest (refuses_starNamedExpression hr hstarts hclose.at).bind
  · exact (reads_lit hclose.at rfl).bind fun _ _ => .pure rfl

theorem follows_pair (hf : s.Follows i (pairLexemes entry ++ y :: ts)) :
    s.At i (.string, Text.quoted entry.1) ∧ s.At (i + 1) (markLexeme ':') ∧
      s.Follows (i + 2) (entry.2.lexemes ++ y :: ts) ∧ ∃ x, s.At (i + 2) x := by
  refine ⟨hf.at, hf.tail.at, hf.tail.tail, ?_⟩
  obtain ⟨x, xs, hx, -⟩ := lexemes_eq_cons entry.2
  have hvalue := hf.tail.tail
  rw [hx] at hvalue
  exact ⟨x, hvalue.at⟩

theorem reads_key (hr : r.expression = expressionRule inner)
    (hf : s.Follows i (pairLexemes entry ++ y :: ts)) :
    Reads s r.expression i (i + 1) (fun e => e.literal? = some (.text entry.1)) := by
  rw [hr]
  exact reads_textLiteral entry.1 i _ _ hf (endsExpr_mark (by decide))

theorem reads_dictMember (hr : r.expression = expressionRule inner)
    (h : ReadsValue s r.expression entry.2.lexemes (fun e => e.literal? = some entry.2))
    (hf : s.Follows i (pairLexemes entry ++ y :: ts)) (hend : EndsExpr y) :
    Reads s (dictMember r) i (i + (pairLexemes entry).length) (fun m => m.IsPair entry) := by
  obtain ⟨hkey, hcolon, hvalue, x, hx⟩ := follows_pair hf
  have hspread : Text.quoted entry.1 ≠ "**" :=
    ne_of_not_reserved (Operand.string entry.1).not_reserved (by decide)
  have hlen : i + (pairLexemes entry).length = i + 2 + entry.2.lexemes.length := by
    rw [pairLexemes, List.length_cons, List.length_cons]
    omega
  rw [hlen]
  refine .second (refuses_lit hkey hspread).bind ((reads_key hr hf).bind fun key hk => ?_)
  refine (reads_mark hcolon rfl hx).bind fun colon _ => (h _ _ _ hvalue hend).bind fun value hv => ?_
  exact .pure ⟨key, colon, value, none, rfl, hk, hv⟩

theorem reads_entries (hr : r.expression = expressionRule inner) (h : ∀ a ∈ entries,
      ReadsValue s r.expression a.2.lexemes (fun e => e.literal? = some a.2)) {first : Member}
    (hfirst : first.IsPair entry)
    (hf : s.Follows i (separatedLexemes pairLexemes entries ++ markLexeme '\x7d' :: ts)) :
    Reads s (separatedAfter Member.withComma first (dictMember r)) i
      (i + (separatedLexemes pairLexemes entries).length)
      (fun ms => pairLiterals? ms = some (entry :: entries)) := by
  refine (reads_separatedAfter (Q := fun entry m => m.IsPair entry) (show '\x7d' ∈ [']', '\x7d'] by decide)
    (fun _ _ comma hm => hm.withComma comma) ?_ hfirst hf).mono fun ms hms => pairLiterals?_eq hms
  intro a ha j y ts hf hend
  exact reads_dictMember hr (h a ha) hf hend

theorem reads_table (hr : r.expression = expressionRule inner)
    (hn : ((entry :: entries).map Prod.fst).Nodup) (h : ∀ a ∈ entry :: entries,
      ReadsValue s r.expression a.2.lexemes (fun e => e.literal? = some a.2)) :
    ReadsValue s (expressionRule r) (Literal.table (entry :: entries)).lexemes
      (fun e => e.literal? = some (.table (entry :: entries))) := by
  intro i y ts hf hend
  obtain ⟨hentry, hentries⟩ := List.forall_mem_cons.mp h
  have hlen : i + (Literal.table (entry :: entries)).lexemes.length =
      i + 1 + (pairLexemes entry).length + (separatedLexemes pairLexemes entries).length + 1 := by
    rw [Literal.lexemes, tableLexemes_cons]
    simp only [List.cons_append, List.length_cons, List.length_append, List.length_nil]
    omega
  rw [Literal.lexemes, tableLexemes_cons, List.cons_append, List.cons_append, List.append_assoc,
    List.append_assoc] at hf
  have hinside := hf.tail
  obtain ⟨z, more, hz, hnext⟩ := separatedLexemes_eq_cons pairLexemes entries
    (show '\x7d' ∈ [']', '\x7d'] by decide) (y :: ts)
  have hmember := hinside
  rw [List.singleton_append, hz] at hmember
  obtain ⟨hkey, hcolon, hvalue, x, hx⟩ := follows_pair hmember
  have hclose := hinside.drop.drop
  have hspread : Text.quoted entry.1 ≠ "**" :=
    ne_of_not_reserved (Operand.string entry.1).not_reserved (by decide)
  have hbehind : i + 1 + (pairLexemes entry).length = i + 1 + 2 + entry.2.lexemes.length := by
    rw [pairLexemes, List.length_cons, List.length_cons]
    omega
  rw [hlen]
  refine reads_bracket (by decide) hf.at ?_ hclose.tail.at hend
  refine (reads_nextGap hkey).bind fun before _ => .second (refuses_lit hkey hspread).bind (.first ?_)
  refine (reads_key hr hmember).bind fun key hk => .first ?_
  refine (reads_mark hcolon rfl hx).bind fun colon _ => ?_
  refine (hentry _ _ _ hvalue hnext).bind fun value hv => .first ?_
  rw [← hbehind]
  refine (reads_entries hr hentries ⟨key, colon, value, none, rfl, hk, hv⟩ hinside.drop).bind
    fun ms hms => ?_
  refine (reads_lit hclose.at rfl).bind fun _ _ => .pure ?_
  rw [Expr.literal?, hms]
  exact congrArg (fun entries => some (Literal.table entries)) (Literal.putAll_of_nodup hn)

end Literals

theorem length_le_of_mem {α : Type} (words : α → List Lexeme) {a : α} {as : List α} (h : a ∈ as) :
    (words a).length ≤ (separatedLexemes words as).length := by
  induction as with
  | nil => cases h
  | cons b as ih =>
    rw [separatedLexemes, List.length_cons, List.length_append]
    rcases List.mem_cons.mp h with rfl | h
    · omega
    · have hlen := ih h
      omega

theorem length_lt_of_mem_list {item : Literal} {items : List Literal} (h : item ∈ items) :
    item.lexemes.length < (Literal.list items).lexemes.length := by
  obtain ⟨first, items, rfl⟩ := List.exists_cons_of_ne_nil (List.ne_nil_of_mem h)
  rw [Literal.lexemes, listLexemes_cons]
  simp only [List.cons_append, List.length_cons, List.length_append, List.length_nil]
  rcases List.mem_cons.mp h with rfl | h
  · omega
  · have hlen := length_le_of_mem Literal.lexemes h
    omega

theorem length_lt_of_mem_table {entry : String × Literal} {entries : List (String × Literal)}
    (h : entry ∈ entries) : entry.2.lexemes.length < (Literal.table entries).lexemes.length := by
  obtain ⟨first, entries, rfl⟩ := List.exists_cons_of_ne_nil (List.ne_nil_of_mem h)
  rw [Literal.lexemes, tableLexemes_cons]
  simp only [List.cons_append, List.length_cons, List.length_append, List.length_nil, pairLexemes]
  rcases List.mem_cons.mp h with rfl | h
  · omega
  · have hlen := length_le_of_mem pairLexemes h
    simp only [pairLexemes, List.length_cons] at hlen
    omega

/-- A literal is read as an expression with its value. -/
theorem reads_literal {literal : Literal} (hk : literal.Keyed) (s : Source) {depth : Nat}
    (hd : literal.lexemes.length ≤ depth) :
    ReadsValue s (expressionRule (Rules.upTo depth)) literal.lexemes
      (fun e => e.literal? = some literal) := by
  -- Each bracket takes one level of the rules, and what it holds has fewer words than the whole.
  induction hk generalizing depth with
  | text value => exact reads_textLiteral value
  | number value =>
    intro i y ts hf hend
    refine (reads_operand (.number value) hf.at hf.tail.at hend).mono ?_
    rintro _ rfl
    exact congrArg (Option.map Literal.number) (Text.decimalValue?_toString value)
  | flag value => exact reads_flag value
  | @list items _ ih =>
    obtain ⟨depth, rfl⟩ : ∃ d, depth = d + 1 := Nat.exists_eq_succ_of_ne_zero (by
      simp only [Literal.lexemes, List.cons_append, List.length_cons] at hd
      omega)
    cases items with
    | nil => exact reads_emptyList (upTo_expression depth)
    | cons item items =>
      refine reads_list fun a ha => ih a ha ?_
      have hlen := length_lt_of_mem_list ha
      omega
  | @table entries hn _ ih =>
    obtain ⟨depth, rfl⟩ : ∃ d, depth = d + 1 := Nat.exists_eq_succ_of_ne_zero (by
      simp only [Literal.lexemes, List.cons_append, List.length_cons] at hd
      omega)
    cases entries with
    | nil => exact reads_emptyTable (upTo_expression depth)
    | cons entry entries =>
      refine reads_table (upTo_expression depth) hn fun a ha => ih a ha ?_
      have hlen := length_lt_of_mem_table ha
      omega

end Hydration.Syntax
