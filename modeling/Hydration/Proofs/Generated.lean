import Hydration.Proofs.Address
import Hydration.Proofs.Rules
import Hydration.Proofs.Writing
import Hydration.Syntax.Reading
import Hydration.Transform.Class
import Mathlib.Data.List.Chain

/-! The generated members of a hydrated class declare no class, as long as the names that go into
them are names. -/

namespace Hydration.Syntax

open Hydration.Syntax.Parser

/-- No name follows the word that starts a class. -/
def ClassFree (ts : List Lexeme) : Prop :=
  ts.IsChain fun a b => a.2 = "class" → b.1 ≠ .name

/-- The same for the words of a source. -/
def HeadFree (s : Source) : Prop :=
  ∀ i v w, s.words[i]? = some v → s.words[i + 1]? = some w → v.text = "class" → w.kind ≠ .name

theorem lexemes_eq_append {tokens : Array Token} {i : Nat} {a b : Token}
    (ha : tokens[i]? = some a) (hb : tokens[i + 1]? = some b) (hla : isLayout a.kind = false)
    (hlb : isLayout b.kind = false) :
    ∃ front back, lexemes tokens = front ++ (a.kind, a.text) :: (b.kind, b.text) :: back := by
  obtain ⟨hi, rfl⟩ := Array.getElem?_eq_some_iff.mp ha
  obtain ⟨hj, rfl⟩ := Array.getElem?_eq_some_iff.mp hb
  have hsplit : tokens.toList =
      tokens.toList.take i ++ tokens[i] :: tokens[i + 1] :: tokens.toList.drop (i + 2) := by
    have hd : tokens.toList.drop i = tokens[i] :: tokens[i + 1] :: tokens.toList.drop (i + 2) := by
      rw [List.drop_eq_getElem_cons (by simpa using hi), List.drop_eq_getElem_cons (by simpa using hj)]
      simp
    rw [← hd, List.take_append_drop]
  unfold lexemes
  rw [hsplit]
  simp only [List.filter_append, List.map_append, List.filter_cons, hla, hlb, Bool.not_false,
    if_true, List.map_cons]
  exact ⟨_, _, rfl⟩

theorem headFree_of_lexText {text : List Char} {ts : List Lexeme} {s : Source}
    (hs : Spells text ts []) (hc : ClassFree ts) (h : lexText text = .ok s) : HeadFree s := by
  unfold lexText at h
  split at h
  · simp at h
  · rename_i tokens ht
    obtain rfl := Except.ok.inj h
    obtain ⟨hread, hlayout⟩ := lexemes_of_tokenize hs ht
    intro i v w hv hw hclass hname
    simp only [Word.ofTokens, Array.getElem?_mapIdx, Option.map_eq_some_iff] at hv hw
    obtain ⟨a, ha, rfl⟩ := hv
    obtain ⟨b, hb, rfl⟩ := hw
    have hla : isLayout a.kind = false := by
      by_contra hl
      have hblank := hlayout a (Array.mem_of_getElem? ha) (by simpa using hl)
      rw [show a.text = "class" from hclass] at hblank
      exact absurd (hblank 'c' (by decide)) (by decide)
    have hlb : isLayout b.kind = false := by
      rw [show b.kind = .name from hname]
      rfl
    obtain ⟨front, back, hl⟩ := lexemes_eq_append ha hb hla hlb
    obtain ⟨rest, hr⟩ := hread
    rw [ClassFree, ← hr, hl] at hc
    have hchain := (List.isChain_append.mp (List.isChain_append.mp hc).1).2.1
    exact (List.isChain_cons_cons.mp hchain).1 hclass hname

def NotClass : Stmt → Prop
  | .class_ .. => False
  | _ => True

/-- No class is declared at any depth. -/
def Classless (body : List Stmt) : Prop := Everywhere NotClass body

variable {s : Source} {r : Rules}

theorem classStatement_fails (hs : HeadFree s) (leading : List EmptyLine)
    (decorators : List Decorator) (after : List EmptyLine) (P : Stmt → Prop) :
    Yields s (classStatement r leading decorators after) P := by
  intro place furthest stmt next reached h
  unfold classStatement at h
  obtain ⟨v, i, m, hlit, h⟩ := ok_of_bind h
  obtain ⟨gap, j, n, hgap, h⟩ := ok_of_bind h
  obtain ⟨w, k, l, hword, -⟩ := ok_of_bind h
  obtain ⟨hv, hclass, rfl⟩ := word_eq_ok hlit
  obtain rfl := place_of_nextGap hgap
  obtain ⟨hw, hname, -⟩ := name_eq_ok hword
  exact absurd hname (hs place v w hv hw (beq_iff_eq.mp hclass))

theorem classless_singleton {stmt : Stmt} :
    Classless [stmt] ↔ NotClass stmt ∧ Classless stmt.children :=
  everywhere_singleton

theorem compositional_classless :
    Compositional (fun _ => True) (fun suite => Classless suite.stmts)
      (fun stmt => Classless [stmt]) :=
  compositional_everywhere (fun _ => trivial) fun _ => trivial

theorem yields_definition_classless (hs : HeadFree s)
    (hr : Yields s r.statement fun stmt => Classless [stmt]) :
    Yields s (definition r) (fun stmt => Classless [stmt]) := by
  refine yields_definition ?_ fun leading decorators after =>
    classStatement_fails hs leading decorators after _
  refine yields_function (P := fun _ => True) compositional_classless
    (fun _ _ _ _ _ _ => trivial) hr trivial (fun _ _ _ _ _ _ _ => trivial) ?_
  exact fun head body _ hb => classless_singleton.mpr ⟨trivial, hb⟩

theorem yields_statement_classless (hs : HeadFree s) (depth : Nat) :
    Yields s (Rules.upTo depth).statement (fun stmt => Classless [stmt]) :=
  yields_upTo (fun _ hr => yields_statementRule compositional_classless
    (fun _ _ _ _ _ _ => trivial) hr (yields_definition_classless hs hr)) depth

/-- Text without the start of a class is read as a statement without classes. -/
theorem classless_parse {text : String} {ts : List Lexeme} {stmt : Stmt}
    (hs : Spells text.toList ts []) (hc : ClassFree ts) (h : Stmt.parse text = .ok stmt) :
    Classless [stmt] := by
  unfold Stmt.parse at h
  simp only [bind_eq_ok] at h
  obtain ⟨source, hsource, found, hrun, -, -, h⟩ := h
  obtain rfl := Except.ok.inj h
  have hf := headFree_of_lexText hs hc hsource
  refine holds_of_run (P := fun stmt => Classless [stmt]) (fun depth => ?_) hrun
  exact .bind (yields_statement_classless hf depth) fun stmt hstmt => .andThen fun _ => .pure hstmt

end Hydration.Syntax

namespace Hydration.Syntax

theorem classFree_cons {a : Lexeme} {ts : List Lexeme} (ha : a.2 ≠ "class") (h : ClassFree ts) :
    ClassFree (a :: ts) :=
  List.isChain_cons.mpr ⟨fun _ _ hc => absurd hc ha, h⟩

theorem classFree_cons_mark {a : Lexeme} {c : Char} {ts : List Lexeme}
    (h : ClassFree (markLexeme c :: ts)) : ClassFree (a :: markLexeme c :: ts) :=
  List.isChain_cons_cons.mpr ⟨fun _ => by simp [markLexeme], h⟩

theorem markLexeme_ne (c : Char) : (markLexeme c).2 ≠ "class" := by
  intro h
  have hl := congrArg String.length h
  rw [markLexeme, String.length_ofList] at hl
  exact absurd (show 1 = "class".length from hl) (by decide)

theorem classFree_append {front ts : List Lexeme} (hf : ∀ a ∈ front, a.2 ≠ "class")
    (h : ClassFree ts) : ClassFree (front ++ ts) := by
  induction front with
  | nil => exact h
  | cons a front ih =>
    obtain ⟨ha, hf⟩ := List.forall_mem_cons.mp hf
    exact classFree_cons ha (ih hf)

theorem classFree_dotted {segments : List String} {c : Char} {ts : List Lexeme}
    (h : ClassFree (markLexeme c :: ts)) :
    ClassFree (dottedLexemes segments ++ markLexeme c :: ts) := by
  induction segments with
  | nil => exact h
  | cons x segments ih =>
    cases segments with
    | nil => exact classFree_cons_mark h
    | cons y segments => exact classFree_cons_mark (classFree_cons (markLexeme_ne '.') ih)

theorem quoted_ne (cs : List Char) : String.ofList (Text.quotedChars cs) ≠ "class" := by
  intro h
  have hc : (Text.quotedChars cs).head? = some 'c' := by
    rw [← String.toList_ofList (l := Text.quotedChars cs), h]
    rfl
  have hq := isQuote_chooseQuote cs
  rw [show Text.chooseQuote cs = 'c' from Option.some.inj hc] at hq
  exact absurd hq (by decide)

theorem toString_ne (n : Nat) : toString n ≠ "class" := by
  intro h
  have hc : 'c' ∈ Nat.toDigits 10 n := by
    rw [← Nat.toList_repr, show n.repr = "class" from h]
    decide
  exact absurd (Nat.isDigit_of_mem_toDigits (by decide) (by decide) hc) (by decide)

mutual

theorem lexemes_ne : ∀ literal : Literal, ∀ a ∈ literal.lexemes, a.2 ≠ "class"
  | .text value => List.forall_mem_singleton.mpr (quoted_ne value.toList)
  | .number value => List.forall_mem_singleton.mpr (toString_ne value)
  | .flag value => by cases value <;> simp [Literal.lexemes, wordLexeme]
  | .list items => List.forall_mem_append.mpr
    ⟨List.forall_mem_cons.mpr ⟨markLexeme_ne '[', listLexemes_ne items⟩,
      List.forall_mem_singleton.mpr (markLexeme_ne ']')⟩
  | .table entries => List.forall_mem_append.mpr
    ⟨List.forall_mem_cons.mpr ⟨markLexeme_ne '\x7b', tableLexemes_ne entries⟩,
      List.forall_mem_singleton.mpr (markLexeme_ne '\x7d')⟩

theorem listLexemes_ne : ∀ items : List Literal, ∀ a ∈ Literal.listLexemes items, a.2 ≠ "class"
  | [] => by simp [Literal.listLexemes]
  | [item] => lexemes_ne item
  | item :: next :: items =>
    List.forall_mem_append.mpr ⟨lexemes_ne item,
      List.forall_mem_cons.mpr ⟨markLexeme_ne ',', listLexemes_ne (next :: items)⟩⟩

theorem tableLexemes_ne :
    ∀ entries : List (String × Literal), ∀ a ∈ Literal.tableLexemes entries, a.2 ≠ "class"
  | [] => by simp [Literal.tableLexemes]
  | [(key, value)] =>
    List.forall_mem_cons.mpr ⟨quoted_ne key.toList,
      List.forall_mem_cons.mpr ⟨markLexeme_ne ':', lexemes_ne value⟩⟩
  | (key, value) :: next :: entries =>
    List.forall_mem_cons.mpr ⟨quoted_ne key.toList,
      List.forall_mem_cons.mpr ⟨markLexeme_ne ':', List.forall_mem_append.mpr ⟨lexemes_ne value,
        List.forall_mem_cons.mpr ⟨markLexeme_ne ',', tableLexemes_ne (next :: entries)⟩⟩⟩⟩

end

/-- A piece of text brings no start of a class into the tokens, whatever follows it. -/
def Harmless (text : List Char) : Prop :=
  ∀ rest, ∃ ts, Spells (text ++ rest) ts rest ∧ ∀ more, ClassFree more → ClassFree (ts ++ more)

/-- Such a piece that starts with a mark, so that a word may stand before it. -/
def Marked (text : List Char) : Prop :=
  ∀ rest, Breaks (text ++ rest) ∧ ∃ c ts, Spells (text ++ rest) (markLexeme c :: ts) rest ∧
    ∀ more, ClassFree more → ClassFree (ts ++ more)

theorem Harmless.append {front back : List Char} (hf : Harmless front) (hb : Harmless back) :
    Harmless (front ++ back) := by
  intro rest
  obtain ⟨ts, hts, hfree⟩ := hf (back ++ rest)
  obtain ⟨us, hus, hfree'⟩ := hb rest
  refine ⟨ts ++ us, ?_, fun more hm => ?_⟩
  · rw [List.append_assoc]
    exact hts.append hus
  · rw [List.append_assoc]
    exact hfree _ (hfree' more hm)

theorem Marked.append {front back : List Char} (hf : Marked front) (hb : Harmless back) :
    Marked (front ++ back) := by
  intro rest
  obtain ⟨hbreaks, c, ts, hts, hfree⟩ := hf (back ++ rest)
  obtain ⟨us, hus, hfree'⟩ := hb rest
  rw [List.append_assoc]
  refine ⟨hbreaks, c, ts ++ us, hts.append hus, fun more hm => ?_⟩
  rw [List.append_assoc]
  exact hfree _ (hfree' more hm)

theorem Marked.harmless {text : List Char} (h : Marked text) : Harmless text := by
  intro rest
  obtain ⟨-, c, ts, hts, hfree⟩ := h rest
  exact ⟨_, hts, fun more hm => classFree_cons (markLexeme_ne c) (hfree more hm)⟩

theorem harmless_dotted {name : String} {tail : List Char} (hn : IsDotted name)
    (ht : Marked tail) : Harmless (name.toList ++ tail) := by
  intro rest
  obtain ⟨hb, c, ts, hts, hfree⟩ := ht rest
  refine ⟨dottedLexemes (splitDots name) ++ markLexeme c :: ts, ?_, fun more hm => ?_⟩
  · rw [List.append_assoc]
    exact (spells_dotted hn hb).append hts
  · rw [List.append_assoc]
    exact classFree_dotted (classFree_cons (markLexeme_ne c) (hfree more hm))

theorem harmless_identifier {name : String} {tail : List Char} (hn : Text.isIdentifier name = true)
    (ht : Marked tail) : Harmless (name.toList ++ tail) :=
  harmless_dotted (.of_identifier hn) ht

theorem marked_bracket {c : Char} (hc : isBracket c = true) : Marked [c] := by
  intro rest
  refine ⟨?_, c, [], .bracket hc .done, fun more hm => hm⟩
  rintro d ⟨⟩
  simp only [isBracket, Bool.or_eq_true, beq_iff_eq, or_assoc] at hc
  rcases hc with rfl | rfl | rfl | rfl | rfl | rfl <;> decide

theorem marked_mark {c : Char} {text : List Char} (hm : IsMark c) (ht : Harmless text)
    (hn : ∀ rest, ∀ d ∈ (text ++ rest).head?, d ≠ '=' ∧ d ≠ '.' ∧ d.isDigit = false) :
    Marked (c :: text) := by
  intro rest
  obtain ⟨ts, hts, hfree⟩ := ht rest
  refine ⟨?_, c, ts, .mark hm (hn rest) hts, hfree⟩
  rintro d ⟨⟩
  rcases hm with rfl | rfl | rfl | rfl | rfl <;> decide

theorem marked_gap {text : List Char} (h : Marked text) : Marked (' ' :: text) := by
  intro rest
  obtain ⟨-, c, ts, hts, hfree⟩ := h rest
  refine ⟨?_, c, ts, .gap rfl hts, hfree⟩
  rintro d ⟨⟩
  decide

theorem harmless_blank {text : List Char} (h : IsBlankText text) : Harmless text := by
  intro rest
  refine ⟨[], ?_, fun more hm => hm⟩
  induction text with
  | nil => exact .done
  | cons c text ih =>
    obtain ⟨hc, ht⟩ := List.forall_mem_cons.mp h
    exact .gap hc (ih ht)

theorem marked_comma : Marked [',', ' '] := by
  refine marked_mark (.inr (.inl rfl)) (harmless_blank (by simp [IsBlankText, isGapChar])) ?_
  rintro rest d ⟨⟩
  decide

theorem marked_equal : Marked [' ', '=', ' '] := by
  refine marked_gap (marked_mark (.inr (.inr (.inr (.inl rfl))))
    (harmless_blank (by simp [IsBlankText, isGapChar])) ?_)
  rintro rest d ⟨⟩
  decide

theorem marked_attribute {name : String} {tail : List Char} (hn : Text.isIdentifier name = true)
    (ht : Marked tail) : Marked ('.' :: (name.toList ++ tail)) := by
  refine marked_mark (.inl rfl) (harmless_identifier hn ht) fun rest d hd => ?_
  rw [List.append_assoc] at hd
  exact mark_then_word (mayStartWord_head hn _ d hd)

/-- A fixed word may stand before anything that does not continue it. -/
theorem harmless_word {word : String} {tail : List Char} (hw : Text.isIdentifier word = true)
    (hc : (wordLexeme word.toList).2 ≠ "class") (hb : ∀ rest, Breaks (tail ++ rest))
    (ht : Harmless tail) : Harmless (word.toList ++ tail) := by
  intro rest
  obtain ⟨ts, hts, hfree⟩ := ht rest
  refine ⟨wordLexeme word.toList :: ts, ?_, fun more hm => classFree_cons hc (hfree more hm)⟩
  rw [List.append_assoc]
  exact (spells_identifier hw (hb rest)).append hts

theorem harmless_keyword {word : String} {tail : List Char} (hw : Text.isIdentifier word = true)
    (hc : (wordLexeme word.toList).2 ≠ "class") (ht : Harmless tail) :
    Harmless (word.toList ++ ' ' :: tail) := by
  have hgap : Harmless [' '] := harmless_blank (by simp [IsBlankText, isGapChar])
  refine harmless_word hw hc ?_ (hgap.append ht)
  rintro rest d ⟨⟩
  decide

theorem harmless_quoted (cs : List Char) {tail : List Char} (ht : Marked tail) :
    Harmless (Text.quotedChars cs ++ tail) := by
  intro rest
  obtain ⟨hb, c, ts, hts, hfree⟩ := ht rest
  refine ⟨(.string, String.ofList (Text.quotedChars cs)) :: markLexeme c :: ts, ?_, ?_⟩
  · rw [List.append_assoc]
    exact (spells_quoted cs fun d hd => (hb d hd).2).append hts
  · exact fun more hm => classFree_cons (quoted_ne cs) (classFree_cons (markLexeme_ne c) (hfree more hm))

theorem harmless_literal (literal : Literal) {tail : List Char} (hc : ∀ rest, Closes (tail ++ rest))
    (ht : Harmless tail) : Harmless (literal.chars ++ tail) := by
  intro rest
  obtain ⟨ts, hts, hfree⟩ := ht rest
  refine ⟨literal.lexemes ++ ts, ?_, fun more hm => ?_⟩
  · rw [List.append_assoc]
    exact (literal.spells_chars (hc rest)).append hts
  · rw [List.append_assoc]
    exact classFree_append (lexemes_ne literal) (hfree more hm)

theorem Harmless.classless {text : String} {stmt : Stmt} (ht : Harmless text.toList)
    (h : Stmt.parse text = .ok stmt) : Classless [stmt] := by
  obtain ⟨ts, hts, hfree⟩ := ht []
  rw [List.append_nil] at hts
  have hc := hfree [] .nil
  rw [List.append_nil] at hc
  exact classless_parse hts hc h

end Hydration.Syntax

namespace Hydration.Transform

open Syntax

theorem toString_eq_self (s : String) : toString s = s := rfl

theorem toList_registerLine (helpers : Helpers) (receiver : String) :
    (s!"{helpers.register}({receiver}, {hostName})").toList =
      helpers.register.toList ++ '(' :: (receiver.toList ++ ',' :: ' ' :: ("host_ref".toList ++ [')'])) := by
  simp [hostName, toString_eq_self]

theorem toList_eventLine (helpers : Helpers) (receiver : String) (e : EventSpec) :
    (eventLine helpers receiver e).toList =
      receiver.toList ++ '.' :: (e.emitter.toList ++ ' ' :: '=' :: ' ' ::
        (helpers.createEvent.toList ++ '(' :: (receiver.toList ++ ',' :: ' ' ::
          (Text.quotedChars e.name.toList ++ ',' :: ' ' :: (Nat.toDigits 10 e.flags ++ [')']))))) := by
  simp [eventLine, Text.quoted, toString_eq_self]

theorem toList_elementText (plan : Plan) (name : String) :
    (elementText plan name).toList =
      '@' :: ("property".toList ++ (plan.style.newline.toList ++ ("def".toList ++ ' ' ::
        (name.toList ++ '(' :: ("self".toList ++ ')' :: ':' :: (plan.style.newline.toList ++
          (plan.style.indent.toList ++ ("return".toList ++ ' ' :: (plan.helpers.element.toList ++
            '(' :: ("self".toList ++ ')' :: plan.style.newline.toList)))))))))) := by
  delta elementText
  simp only [toString_eq_self, String.toList_append, List.append_assoc]
  rfl

theorem toList_metadataText (plan : Plan) :
    (metadataText plan).toList =
      '@' :: ("staticmethod".toList ++ (plan.style.newline.toList ++ ("def".toList ++ ' ' ::
        ("cmp_meta".toList ++ '(' :: ')' :: ':' :: (plan.style.newline.toList ++
          (plan.style.indent.toList ++ ("return".toList ++ ' ' ::
            ((metadata plan.component).chars ++ plan.style.newline.toList)))))))) := by
  delta metadataText
  simp only [Literal.render, toString_eq_self, String.toList_append, String.toList_ofList,
    List.append_assoc]
  rfl

theorem toList_constructorText (plan : Plan) :
    (constructorText plan).toList =
      "def".toList ++ ' ' :: ("__init__".toList ++ '(' :: ("self".toList ++ ',' :: ' ' ::
        ("host_ref".toList ++ ')' :: ':' :: (plan.style.newline.toList ++
          (startLines plan "self").flatMap fun line =>
            plan.style.indent.toList ++ (line.toList ++ plan.style.newline.toList))))) := by
  have hhead : (s!"def __init__(self, {hostName}):").toList = "def".toList ++ ' ' ::
      ("__init__".toList ++ '(' :: ("self".toList ++ ',' :: ' ' ::
        ("host_ref".toList ++ [')', ':']))) := by
    decide
  unfold constructorText
  rw [String.toList_append, String.toList_append, hhead, String.toList_join, List.flatMap_map]
  simp only [List.append_assoc, List.cons_append, List.nil_append, String.toList_append]

/-- The names that go into the members of a class are names, and their layout is blank. -/
structure Plan.WellNamed (plan : Plan) : Prop where
  register : IsDotted plan.helpers.register
  createEvent : IsDotted plan.helpers.createEvent
  element : IsDotted plan.helpers.element
  members : ∀ name ∈ replacedNames plan.component, Text.isIdentifier name = true
  newline : plan.style.newline ∈ ["\n", "\r\n", "\r"]
  indent : IsBlankText plan.style.indent.toList

section Texts

variable {plan : Plan} {receiver : String}

namespace Plan.WellNamed

theorem closes_newline (h : plan.WellNamed) (rest : List Char) :
    Closes (plan.style.newline.toList ++ rest) := by
  have hn := h.newline
  simp only [List.mem_cons, List.not_mem_nil, or_false] at hn
  rcases hn with hn | hn | hn <;> simp [hn, Closes]

theorem harmless_newline (h : plan.WellNamed) : Harmless plan.style.newline.toList := by
  have hn := h.newline
  simp only [List.mem_cons, List.not_mem_nil, or_false] at hn
  refine harmless_blank ?_
  rcases hn with hn | hn | hn <;> simp [hn, IsBlankText, isGapChar, isLineEndChar]

theorem marked_colon (h : plan.WellNamed) : Marked (':' :: plan.style.newline.toList) :=
  marked_mark (.inr (.inr (.inl rfl))) h.harmless_newline fun rest =>
    (h.closes_newline rest).then_mark

theorem harmless_decorator (h : plan.WellNamed) {word : String} {tail : List Char}
    (hw : Text.isIdentifier word = true) (hc : (wordLexeme word.toList).2 ≠ "class")
    (ht : Harmless tail) :
    Harmless ('@' :: (word.toList ++ (plan.style.newline.toList ++ tail))) := by
  have hb (rest : List Char) : Breaks (plan.style.newline.toList ++ tail ++ rest) := by
    rw [List.append_assoc]
    exact (h.closes_newline _).breaks
  refine (marked_mark (.inr (.inr (.inr (.inr rfl))))
    (harmless_word hw hc hb (h.harmless_newline.append ht)) fun rest d hd => ?_).harmless
  rw [List.append_assoc] at hd
  exact mark_then_word (mayStartWord_head hw _ d hd)

theorem harmless_register (h : plan.WellNamed) (hr : Text.isIdentifier receiver = true) :
    Harmless (s!"{plan.helpers.register}({receiver}, {hostName})").toList := by
  rw [toList_registerLine]
  refine harmless_dotted h.register ((marked_bracket (c := '(') rfl).append ?_)
  refine harmless_identifier hr (marked_comma.append ?_)
  have hhost : Text.isIdentifier "host_ref" = true := by decide
  exact harmless_identifier hhost (marked_bracket (c := ')') rfl)

theorem harmless_event (h : plan.WellNamed) (hr : Text.isIdentifier receiver = true) {e : EventSpec}
    (he : e ∈ plan.component.events) : Harmless (eventLine plan.helpers receiver e).toList := by
  have hn : Text.isIdentifier e.emitter = true :=
    h.members _ (List.mem_append_left _ (List.mem_map_of_mem he))
  have hclose (rest : List Char) : Closes ([')'] ++ rest) := closes_cons (c := ')') (by decide) rest
  rw [toList_eventLine]
  refine harmless_identifier hr (marked_attribute hn (marked_equal.append ?_))
  refine harmless_dotted h.createEvent ((marked_bracket (c := '(') rfl).append ?_)
  refine harmless_identifier hr (marked_comma.append ?_)
  refine harmless_quoted _ (marked_comma.append ?_)
  exact harmless_literal (.number e.flags) hclose (marked_bracket (c := ')') rfl).harmless

theorem harmless_startLines (h : plan.WellNamed) (hr : Text.isIdentifier receiver = true) :
    ∀ line ∈ startLines plan receiver, Harmless line.toList := by
  refine List.forall_mem_cons.mpr ⟨h.harmless_register hr, ?_⟩
  intro line hl
  obtain ⟨e, he, rfl⟩ := List.mem_map.mp hl
  exact h.harmless_event hr he

theorem harmless_elementText (h : plan.WellNamed) {name : String}
    (hn : name ∈ plan.component.elementMember) : Harmless (elementText plan name).toList := by
  have hname : Text.isIdentifier name = true :=
    h.members _ (List.mem_append_right _ (Option.mem_toList.mpr hn))
  have hself : Text.isIdentifier "self" = true := by decide
  rw [toList_elementText]
  refine h.harmless_decorator (by decide) (by decide) (harmless_keyword (by decide) (by decide) ?_)
  refine harmless_identifier hname ((marked_bracket (c := '(') rfl).append ?_)
  refine harmless_identifier hself ((marked_bracket (c := ')') rfl).append ?_)
  refine (h.marked_colon.append ((harmless_blank h.indent).append ?_)).harmless
  refine harmless_keyword (by decide) (by decide) (harmless_dotted h.element ?_)
  refine (marked_bracket (c := '(') rfl).append (harmless_identifier hself ?_)
  exact (marked_bracket (c := ')') rfl).append h.harmless_newline

theorem harmless_metadataText (h : plan.WellNamed) : Harmless (metadataText plan).toList := by
  have hname : Text.isIdentifier "cmp_meta" = true := by decide
  rw [toList_metadataText]
  refine h.harmless_decorator (by decide) (by decide) (harmless_keyword (by decide) (by decide) ?_)
  refine harmless_identifier hname ((marked_bracket (c := '(') rfl).append ?_)
  refine ((marked_bracket (c := ')') rfl).append ?_).harmless
  refine (h.marked_colon.append ((harmless_blank h.indent).append ?_)).harmless
  refine harmless_keyword (by decide) (by decide) ?_
  exact harmless_literal _ h.closes_newline h.harmless_newline

theorem harmless_flatMap {lines : List String} {f : String → List Char}
    (hl : ∀ line ∈ lines, Harmless (f line)) : Harmless (lines.flatMap f) := by
  induction lines with
  | nil => exact harmless_blank (by simp [IsBlankText])
  | cons line lines ih =>
    obtain ⟨h, hl⟩ := List.forall_mem_cons.mp hl
    exact h.append (ih hl)

theorem harmless_constructorText (h : plan.WellNamed) :
    Harmless (constructorText plan).toList := by
  have hself : Text.isIdentifier "self" = true := by decide
  have hinit : Text.isIdentifier "__init__" = true := by decide
  have hhost : Text.isIdentifier "host_ref" = true := by decide
  rw [toList_constructorText]
  refine harmless_keyword (by decide) (by decide) ?_
  refine harmless_identifier hinit ((marked_bracket (c := '(') rfl).append ?_)
  refine harmless_identifier hself (marked_comma.append ?_)
  refine harmless_identifier hhost ((marked_bracket (c := ')') rfl).append ?_)
  refine (h.marked_colon.append (harmless_flatMap fun line hl => ?_)).harmless
  exact (harmless_blank h.indent).append
    ((h.harmless_startLines hself line hl).append h.harmless_newline)

end Plan.WellNamed

end Texts

end Hydration.Transform
