import Hydration.Proofs.OpeningTexts

/-! Definitions of functions. A text that starts with `def`, or with a decorator on the line above it,
is read as a function with this decorator and with the name that follows. -/

namespace Hydration.Syntax

open Hydration.Syntax.Parser

/-- A word that only a definition of a function starts with. -/
structure StartsDefinition (x : Lexeme) : Prop extends StartsNoSmall x where
  starts : x.2 ∈ ["def", "@"]
  async : x.1 ≠ .asyncWord

theorem startsDefinition_def : StartsDefinition (.name, "def") :=
  ⟨⟨⟨by decide, by decide, by decide⟩, by decide⟩, by decide, by decide⟩

theorem startsDefinition_at : StartsDefinition (markLexeme '@') :=
  ⟨⟨⟨by decide, by decide, by decide⟩, by decide⟩, by decide, by decide⟩

section Statements

variable {s : Source} {r inner : Rules} {i j : Nat} {x : Lexeme} {P : Stmt → Prop}

theorem StartsDefinition.reads_guard (h : StartsDefinition x) (hx : s.At i x) :
    Reads s (guard startsDefinition) i i (fun _ => True) := by
  refine Parser.reads_guard hx fun w hw => ?_
  have hm := h.starts
  rw [← hw] at hm
  rcases List.mem_cons.mp hm with he | he
  · simp [show w.text = "def" from he]
  · simp [show w.text = "@" from List.mem_singleton.mp he]

theorem reads_definitionStatement (h : StartsDefinition x) (hx : s.At i x)
    (hd : Reads s (definition r) i j P) : Reads s (statementRule r) i j P :=
  .first (.first ((h.reads_guard hx).bind fun _ _ => hd))

/-- Where a statement starts with such a word, it is the definition that the word starts. -/
theorem gives_statement (hr : r.expression = expressionRule inner)
    (ht : r.starTarget = starTargetRule inner) (h : StartsDefinition x) (hx : s.At i x)
    (hd : Gives s (definition r) i P) : Gives s (statementRule r) i P := by
  have hother : ∀ t ∈ ["if", "with", "for", "try", "while", "match"], t ∉ ["def", "@"] := by decide
  have hne {text : String} (hm : text ∈ ["if", "with", "for", "try", "while", "match"]) (w : Word)
      (hw : w.lexeme = x) : (w.text == text) = false :=
    is_not_of_lexeme (fun he : x.2 = text => hother text hm (he ▸ h.starts)) w hw
  have hasync (w : Word) (hw : w.lexeme = x) : (w.kind == .asyncWord) = false := by
    subst hw
    exact beq_eq_false_iff_ne.mpr h.async
  have hguard {test : Word → Bool} {p : Parser Stmt} (ht : ∀ w : Word, w.lexeme = x → test w = false) :
      Refuses s (do guard (next test); p) i := (refuses_guard hx ht).bind
  have hmatch : Refuses s (matchStatement r) i :=
    refuses_matchStatement_of_ne hx fun he => hother _ (by decide) (he ▸ h.starts)
  refine .orElse (.orElse ((h.reads_guard hx).gives fun _ _ => hd) ?_)
    (refuses_lineStatement hr ht h.toStartsNoSmall hx).gives
  refine Refuses.gives (.orElse (hguard (hne (by decide))) (.orElse (hguard fun w hw => ?_) ?_))
  · rw [hne (by decide) w hw, hasync w hw]
    rfl
  refine .orElse (hguard fun w hw => ?_) (.orElse (hguard (hne (by decide))) ?_)
  · rw [hne (by decide) w hw, hasync w hw]
    rfl
  · exact .orElse (hguard (hne (by decide))) hmatch

end Statements

/-- A function with decorators that are names, and with a name that has a property. -/
def Stmt.IsFunction (decorators : List String) (P : String → Prop) (stmt : Stmt) : Prop :=
  ∃ head body, stmt = .func head body ∧
    head.decorators.map Decorator.value = decorators.map Expr.name ∧ P head.name

section Functions

variable {s : Source} {r inner : Rules} {i j : Nat} {y : Lexeme} {ts : List Lexeme} {word : String}
  {words : List String} {P : String → Prop}

theorem gives_nextGap {β : Type} {f : Gap → Parser β} {Q : β → Prop}
    (h : ∀ gap, Gives s (f gap) i Q) : Gives s (nextGap >>= f) i Q := by
  intro m b k m' hb
  obtain ⟨gap, j, m'', hgap, hrest⟩ := ok_of_bind hb
  obtain rfl := place_of_nextGap hgap
  exact h gap _ _ _ _ hrest

/-- A function behind its decorators. -/
theorem gives_function {leading afterDecorators : List EmptyLine} {decorators : List Decorator}
    (hx : s.At i (.name, "def")) (hname : Gives s name (i + 1) (fun w => P w.text)) :
    Gives s (function r leading decorators afterDecorators) i (fun stmt =>
      ∃ head body, stmt = .func head body ∧ head.decorators = decorators ∧ P head.name) := by
  have hasync : Refuses s (Parser.kind .asyncWord) i := refuses_kind hx nofun
  refine hasync.bind.optional.gives fun _ _ => (reads_lit hx rfl).gives fun _ _ => ?_
  refine gives_nextGap fun gap => hname.bind fun target _ htarget => ?_
  iterate 9 refine .behind fun _ _ => ?_
  exact .pure ⟨_, _, rfl, rfl, htarget⟩

/-- A decorator that is a name, up to the end of its line. -/
theorem reads_decorator (hr : r.expression = expressionRule inner) (hw : IsPlainName word)
    (hf : s.Follows i (markLexeme '@' :: (.name, word) :: y :: ts)) (hend : IsLineEnd y) :
    Reads s (decorator r) i (i + 3) (fun d => d.value = .name word) := by
  have hvalue := hf.tail
  have hnext := hvalue.tail
  refine (reads_lit hf.at rfl).bind fun _ _ => (reads_nextGap hvalue.at).bind fun _ _ => ?_
  refine (reads_namedOperand hr (.name hw) hvalue.at hnext.at hend.endsExpr).bind ?_
  rintro _ rfl
  exact (reads_kind hnext.at hend.1).bind fun _ _ => .pure rfl

theorem gives_definition
    (hd : Reads s (many (decorator r)) i j fun ds =>
      ds.map Decorator.value = words.map Expr.name)
    (hx : s.At j (.name, "def")) (hname : Gives s name (j + 1) (fun w => P w.text)) :
    Gives s (definition r) i (Stmt.IsFunction words P) := by
  refine hd.gives fun ds hds => (reads_peek hx).gives fun _ _ => ?_
  have hclass {leading afterDecorators : List EmptyLine} {decorators : List Decorator} :
      Refuses s (classStatement r leading decorators afterDecorators) j :=
    (refuses_lit hx (by decide)).bind
  refine .orElse ?_ hclass.gives
  intro m stmt k m' hstmt
  obtain ⟨head, body, rfl, hdecorators, hP⟩ := gives_function hx hname _ _ _ _ hstmt
  refine ⟨head, body, rfl, ?_, hP⟩
  rw [hdecorators, ← hds]
  cases ds <;> rfl

end Functions

section Texts

variable {newline text name word : String} {rest : List Char} {stmt : Stmt}

def functionChars (name : String) (rest : List Char) : List Char :=
  "def".toList ++ ' ' :: (name.toList ++ '(' :: rest)

theorem spells_def (rest : List Char) :
    Spells ("def".toList ++ ' ' :: rest) [(.name, "def")] (' ' :: rest) := by
  have hb : Breaks (' ' :: rest) := by
    rintro d ⟨⟩
    decide
  exact spells_identifier (by decide) hb

/-- The words of a function up to its name. A text in the place of the name need not be a name. -/
theorem exists_spells_functionChars (name : String) (rest : List Char) :
    ∃ ts last, Spells (functionChars name rest) ((.name, "def") :: ts) last ∧
      OneLine (functionChars name rest) last ∧ (IsPlainName name → ts = [(.name, name)]) := by
  by_cases hn : IsPlainName name
  · have hb : Breaks ('(' :: rest) := by
      rintro d ⟨⟩
      decide
    have hname := spells_identifier hn.1 hb
    rw [wordLexeme_of_plain hn] at hname
    refine ⟨_, '(' :: rest, (spells_def _).append (.gap rfl hname), ?_, fun _ => rfl⟩
    have hcode : ∀ c ∈ "def".toList ++ ' ' :: name.toList, isLineEndChar c = false :=
      unbroken_append.mpr ⟨unbroken_of_not_mem (by decide) (by decide),
        unbroken_cons.mpr ⟨rfl, unbroken_identifier hn.1⟩⟩
    have hh : OneLine ("def".toList ++ ' ' :: name.toList ++ '(' :: rest) ('(' :: rest) :=
      oneLine_of_code hcode
    rwa [List.append_assoc] at hh
  · refine ⟨[], _, spells_def _, ?_, fun h => absurd h hn⟩
    exact oneLine_of_code (unbroken_of_not_mem (by decide) (by decide))

theorem gives_name {s : Source} {i : Nat} {ts : List Lexeme}
    (hf : s.Follows i ((.name, "def") :: ts)) (hts : IsPlainName name → ts = [(.name, name)]) :
    Gives s Syntax.name (i + 1) (fun w => IsPlainName name → w.text = name) := by
  by_cases hn : IsPlainName name
  · have hx := hf.tail
    rw [hts hn] at hx
    exact ((reads_name hx.at hn.2).mono fun w hw _ => congrArg Prod.snd hw).only
  · exact fun _ _ _ _ _ h => absurd h hn

theorem isFunction_of_parse (htext : text.toList = functionChars name rest)
    (h : Stmt.parse text = .ok stmt) :
    stmt.IsFunction [] (fun id => IsPlainName name → id = name) := by
  refine holds_of_parse h fun s hsource depth _ => ?_
  rw [htext] at hsource
  obtain ⟨ts, last, hspells, hline, hts⟩ := exists_spells_functionChars name rest
  have hhead : ∀ c ∈ (functionChars name rest).head?, isGapChar c = false := by
    rintro c ⟨⟩
    rfl
  have hf : s.Follows 0 ((.name, "def") :: ts) := Source.follows_of_lexText hsource fun tokens ht =>
    starts_of_tokenize hspells hline hhead ht
  have hnone : Reads s (many (decorator (Rules.upTo (depth + 2)))) 0 0
      fun ds => ds.map Decorator.value = [].map Expr.name :=
    (Refuses.many (refuses_lit hf.at (by decide)).bind).mono fun _ hds => by rw [hds]; rfl
  refine gives_statement (upTo_expression _) (upTo_starTarget _) startsDefinition_def hf.at ?_
  exact gives_definition hnone hf.at (gives_name hf hts)

/-- The words of a decorator on a line of its own and of a function. -/
theorem follows_decorated {s : Source} {ts : List Lexeme} {last : List Char} (hw : IsPlainName word)
    (hn : newline ∈ ["\n", "\r\n", "\r"])
    (hspells : Spells (functionChars name rest) ((.name, "def") :: ts) last)
    (hline : OneLine (functionChars name rest) last)
    (hsource : lexText ('@' :: (word.toList ++ (newline.toList ++ functionChars name rest))) = .ok s) :
    s.Follows 0 (markLexeme '@' :: (.name, word) :: (.newline, newline) :: (.name, "def") :: ts) := by
  have hend : takeLineEnd (newline.toList ++ functionChars name rest) =
      some (newline, functionChars name rest) := by
    refine takeLineEnd_append hn ?_
    rintro c ⟨⟩
    decide
  have hdecorator : Spells ('@' :: (word.toList ++ (newline.toList ++ functionChars name rest)))
      [markLexeme '@', (.name, word)] (newline.toList ++ functionChars name rest) := by
    have hword := spells_identifier hw.1 (closes_newline_append hn (functionChars name rest)).breaks
    rw [wordLexeme_of_plain hw] at hword
    refine .mark (.inr (.inr (.inr (.inr rfl)))) (fun d hd => ?_) hword
    exact mark_then_word (mayStartWord_head hw.1 _ d hd)
  have honeLine : OneLine ('@' :: word.toList ++ (newline.toList ++ functionChars name rest))
      (newline.toList ++ functionChars name rest) :=
    oneLine_of_code (unbroken_cons.mpr ⟨rfl, unbroken_identifier hw.1⟩)
  refine Source.follows_of_lexText hsource fun tokens ht => ?_
  refine starts_of_tokenize_line hdecorator (List.cons_ne_nil _ _) honeLine rfl ?_
    hend ?_ hspells hline ht
  all_goals
    rintro c ⟨⟩
    rfl

theorem isFunction_of_parse_decorated (hw : IsPlainName word)
    (hn : newline ∈ ["\n", "\r\n", "\r"])
    (htext : text.toList = '@' :: (word.toList ++ (newline.toList ++ functionChars name rest)))
    (h : Stmt.parse text = .ok stmt) :
    stmt.IsFunction [word] (fun id => IsPlainName name → id = name) := by
  refine holds_of_parse h fun s hsource depth _ => ?_
  rw [htext] at hsource
  obtain ⟨ts, last, hspells, hline, hts⟩ := exists_spells_functionChars name rest
  have hf := follows_decorated hw hn hspells hline hsource
  have hdef := hf.tail.tail.tail
  have hone : Reads s (many (decorator (Rules.upTo (depth + 2)))) 0 3
      fun ds => ds.map Decorator.value = [word].map Expr.name := by
    have hread := reads_decorator (upTo_expression (depth + 1)) hw hf ⟨rfl, hn⟩
    refine (hread.readsMany hf.at (by decide) fun d hd => ?_).many
    refine Refuses.readsMany (refuses_lit hdef.at (by decide)).bind ?_
    rw [List.map_cons, hd]
    rfl
  refine gives_statement (upTo_expression _) (upTo_starTarget _) startsDefinition_at hf.at ?_
  exact gives_definition hone hdef.at (gives_name hdef hts)

end Texts

end Hydration.Syntax

namespace Hydration.Transform

open Syntax

section Members

variable {plan : Plan} {name : String} {stmt : Stmt}

theorem isFunction_newConstructor (h : newConstructor plan = .ok stmt) :
    stmt.IsFunction [] (· = "__init__") := by
  obtain ⟨head, body, rfl, hd, hname⟩ := isFunction_of_parse (toList_constructorText plan) h
  exact ⟨head, body, rfl, hd, hname (by decide)⟩

/-- The property for the element has its name, if this is a name. -/
theorem isFunction_elementGetter (hn : plan.style.newline ∈ ["\n", "\r\n", "\r"])
    (h : elementGetter plan name = .ok stmt) :
    stmt.IsFunction ["property"] (fun id => IsPlainName name → id = name) :=
  isFunction_of_parse_decorated (by decide) hn (toList_elementText plan name) h

theorem isFunction_metadataMethod (hn : plan.style.newline ∈ ["\n", "\r\n", "\r"])
    (h : metadataMethod plan = .ok stmt) :
    stmt.IsFunction ["staticmethod"] (· = "cmp_meta") := by
  obtain ⟨head, body, rfl, hd, hname⟩ :=
    isFunction_of_parse_decorated (by decide) hn (toList_metadataText plan) h
  exact ⟨head, body, rfl, hd, hname (by decide)⟩

end Members

end Hydration.Transform
