import Hydration.Proofs.Literals
import Hydration.Proofs.Tokens

/-! Texts and the tokens that they spell. A text of words, numbers, quoted texts and marks, with gaps
between them, spells its tokens; a scan of such a text reads these and adds only tokens of layout. -/

namespace Hydration.Syntax

abbrev Lexeme := TokenKind × String

def isGapChar (c : Char) : Bool := c == ' ' || c == '\t' || c == '\x0c' || isLineEndChar c

def isBracket (c : Char) : Bool :=
  c == '(' || c == '[' || c == '\x7b' || c == ')' || c == ']' || c == '\x7d'

def IsMark (c : Char) : Prop := c = '.' ∨ c = ',' ∨ c = ':' ∨ c = '=' ∨ c = '@'

def wordKind (text : List Char) : TokenKind :=
  if text == "async".toList then .asyncWord
  else if text == "await".toList then .awaitWord else .name

def wordLexeme (text : List Char) : Lexeme := (wordKind text, String.ofList text)

def markLexeme (c : Char) : Lexeme := (.operator, String.ofList [c])

/-- Whether letters that a string may have before its quote stand before one. -/
def startsString (cs : List Char) : Bool :=
  ((cs.drop (takeStringPrefix cs).length).head?.map isQuote).getD false

/-- A text starts with code that spells some tokens, and the rest of it follows. The rest is there
because it decides where the last of the tokens ends. -/
inductive Spells : List Char → List Lexeme → List Char → Prop where
  | done {rest : List Char} : Spells rest [] rest
  | gap {c : Char} {cs : List Char} {ts : List Lexeme} {rest : List Char}
      (hg : isGapChar c = true) (h : Spells cs ts rest) : Spells (c :: cs) ts rest
  | word {c : Char} {cs : List Char} {ts : List Lexeme} {rest : List Char}
      (hg : isGapChar c = false) (hw : mayStartWord c = true) (hs : startsString (c :: cs) = false)
      (h : Spells ((c :: cs).dropWhile mayContinueWord) ts rest) :
      Spells (c :: cs) (wordLexeme ((c :: cs).takeWhile mayContinueWord) :: ts) rest
  | number {c : Char} {cs text left : List Char} {ts : List Lexeme} {rest : List Char}
      (hg : isGapChar c = false) (hw : mayStartWord c = false) (hd : c.isDigit = true)
      (hn : takeNumber (c :: cs) = .ok (text, left)) (h : Spells left ts rest) :
      Spells (c :: cs) ((.number, String.ofList text) :: ts) rest
  | string {c : Char} {cs text left : List Char} {ts : List Lexeme} {rest : List Char}
      (hq : isQuote c = true) (ht : takeString c (c :: cs) = .ok (text, left))
      (h : Spells left ts rest) :
      Spells (c :: cs) ((.string, String.ofList text) :: ts) rest
  | bracket {c : Char} {cs : List Char} {ts : List Lexeme} {rest : List Char}
      (hb : isBracket c = true) (h : Spells cs ts rest) :
      Spells (c :: cs) (markLexeme c :: ts) rest
  | mark {c : Char} {cs : List Char} {ts : List Lexeme} {rest : List Char}
      (hm : IsMark c) (hn : ∀ d ∈ cs.head?, d ≠ '=' ∧ d ≠ '.' ∧ d.isDigit = false)
      (h : Spells cs ts rest) :
      Spells (c :: cs) (markLexeme c :: ts) rest

theorem not_gap_of_isQuote {c : Char} (h : isQuote c = true) : isGapChar c = false := by
  rcases Bool.or_eq_true_iff.mp h with h | h
  all_goals
    obtain rfl := beq_iff_eq.mp h
    rfl

theorem not_gap_of_isBracket {c : Char} (h : isBracket c = true) : isGapChar c = false := by
  simp only [isBracket, Bool.or_eq_true, beq_iff_eq] at h
  rcases h with ((((rfl | rfl) | rfl) | rfl) | rfl) | rfl <;> rfl

theorem IsMark.not_gap {c : Char} (h : IsMark c) : isGapChar c = false := by
  rcases h with rfl | rfl | rfl | rfl | rfl <;> rfl

namespace Spells

variable {c : Char} {cs middle rest : List Char} {ts us : List Lexeme}

theorem append (h : Spells cs ts middle) (h' : Spells middle us rest) :
    Spells cs (ts ++ us) rest := by
  induction h with
  | done => exact h'
  | gap hg _ ih => exact .gap hg (ih h')
  | word hg hw hs _ ih => exact .word hg hw hs (ih h')
  | number hg hw hd hn _ ih => exact .number hg hw hd hn (ih h')
  | string hq ht _ ih => exact .string hq ht (ih h')
  | bracket hb _ ih => exact .bracket hb (ih h')
  | mark hm hn _ ih => exact .mark hm hn (ih h')

/-- The rest is what is left of the text when each token has taken some of it. -/
theorem leaves {cs fin : List Char} {ts : List Lexeme} (h : Spells cs ts fin) :
    fin <:+ cs ∧ ts.length + fin.length ≤ cs.length := by
  have behind {c : Char} {cs left fin : List Char} {ts : List Lexeme} (hs : left <:+ cs)
      (ih : fin <:+ left ∧ ts.length + fin.length ≤ left.length) :
      fin <:+ c :: cs ∧ ts.length + 1 + fin.length ≤ cs.length + 1 := by
    have hl := hs.length_le
    exact ⟨(ih.1.trans hs).trans (List.suffix_cons c cs), by omega⟩
  induction h with
  | done => exact ⟨List.suffix_refl _, by simp⟩
  | @gap c cs _ _ _ _ ih => exact ⟨ih.1.trans (List.suffix_cons c cs), Nat.le_succ_of_le ih.2⟩
  | @word c cs _ _ _ hw _ _ ih =>
    have hc : mayContinueWord c = true := by simp [mayContinueWord, hw]
    rw [List.dropWhile_cons_of_pos hc] at ih
    exact behind (List.dropWhile_suffix _) ih
  | number _ _ hd hn _ ih => exact behind (suffix_of_takeNumber hd hn) ih
  | string _ ht _ ih => exact behind (suffix_of_takeString ht) ih
  | bracket _ _ ih => exact behind (List.suffix_refl _) ih
  | mark _ _ _ ih => exact behind (List.suffix_refl _) ih

/-- Neither a comment nor a joined line starts with code. -/
theorem ne_of_cons (h : Spells (c :: cs) ts rest) (hmore : ts ≠ [] ∨ rest = []) :
    c ≠ '#' ∧ c ≠ '\\' := by
  constructor <;> rintro rfl <;> cases h <;> simp_all +decide [IsMark]

theorem of_gap (hg : isGapChar c = true) (h : Spells (c :: cs) ts rest)
    (hmore : ts ≠ [] ∨ rest = []) : Spells cs ts rest := by
  cases h with
  | done => simp at hmore
  | gap _ h => exact h
  | word hn => simp [hg] at hn
  | number hn => simp [hg] at hn
  | string hq => exact absurd hg (by simp [not_gap_of_isQuote hq])
  | bracket hb => exact absurd hg (by simp [not_gap_of_isBracket hb])
  | mark hm => exact absurd hg (by simp [hm.not_gap])

theorem of_drop_takeWhile {p : Char → Bool} (hp : ∀ c, p c = true → isGapChar c = true)
    (h : Spells cs ts rest) (hmore : ts ≠ [] ∨ rest = []) :
    Spells (cs.drop (cs.takeWhile p).length) ts rest := by
  induction cs with
  | nil => simpa using h
  | cons c cs ih =>
    by_cases hc : p c = true
    · rw [List.takeWhile_cons_of_pos hc, List.length_cons, List.drop_succ_cons]
      exact ih (h.of_gap (hp c hc) hmore)
    · rw [List.takeWhile_cons_of_neg hc]
      exact h

theorem of_takeIndentation (h : Spells cs ts []) (level : IndentLevel) :
    Spells (takeIndentation cs level).2 ts [] := by
  fun_induction takeIndentation cs level with
  | case1 cs level ih => exact ih (h.of_gap rfl (.inr rfl))
  | case2 cs level ih => exact ih (h.of_gap rfl (.inr rfl))
  | case3 cs level ih => exact ih (h.of_gap rfl (.inr rfl))
  | case4 => exact h

theorem of_takeLineEnd {text : String} {after : List Char} (h : Spells cs ts [])
    (he : takeLineEnd cs = some (text, after)) : Spells after ts [] := by
  unfold takeLineEnd at he
  split at he
  · obtain ⟨rfl, rfl⟩ := Prod.mk.inj (Option.some.inj he)
    exact (h.of_gap rfl (.inr rfl)).of_gap rfl (.inr rfl)
  · obtain ⟨rfl, rfl⟩ := Prod.mk.inj (Option.some.inj he)
    exact h.of_gap rfl (.inr rfl)
  · obtain ⟨rfl, rfl⟩ := Prod.mk.inj (Option.some.inj he)
    exact h.of_gap rfl (.inr rfl)
  · simp at he

end Spells

def isLayout (kind : TokenKind) : Bool :=
  kind == .newline || kind == .indent || kind == .dedent || kind == .finish

theorem isLayout_wordKind (text : List Char) : isLayout (wordKind text) = false := by
  unfold wordKind
  split
  · rfl
  · split <;> rfl

/-- How many brackets are open behind a token. -/
def Lexeme.nest (t : Lexeme) (open_ : Nat) : Nat :=
  if t.1 == .operator && ["(", "[", "\x7b"].contains t.2 then open_ + 1
  else if t.1 == .operator && [")", "]", "\x7d"].contains t.2 then open_ - 1
  else open_

theorem nest_wordLexeme (text : List Char) (open_ : Nat) :
    (wordLexeme text).nest open_ = open_ := by
  unfold wordLexeme wordKind Lexeme.nest
  split
  · rfl
  · split <;> rfl

theorem nest_mark {c : Char} (h : IsMark c) (open_ : Nat) : (markLexeme c).nest open_ = open_ := by
  rcases h with rfl | rfl | rfl | rfl | rfl <;> rfl

/-- The tokens of code, without those of layout. -/
def lexemes (tokens : Array Token) : List Lexeme :=
  (tokens.toList.filter fun t => !isLayout t.kind).map fun t => (t.kind, t.text)

theorem lexemes_push {tokens : Array Token} {token : Token} :
    lexemes (tokens.push token) =
      lexemes tokens ++ if isLayout token.kind then [] else [(token.kind, token.text)] := by
  by_cases h : isLayout token.kind = true <;> simp [lexemes, List.filter_append, h]

def IsBlankText (text : List Char) : Prop := ∀ c ∈ text, isGapChar c = true

theorem isBlankText_takeIndentation (cs : List Char) (level : IndentLevel)
    (h : IsBlankText level.text) : IsBlankText (takeIndentation cs level).1.text := by
  fun_induction takeIndentation cs level with
  | case1 cs level ih => exact ih (List.forall_mem_cons.mpr ⟨rfl, h⟩)
  | case2 cs level ih => exact ih (List.forall_mem_cons.mpr ⟨rfl, h⟩)
  | case3 cs level ih => exact ih (List.forall_mem_cons.mpr ⟨rfl, h⟩)
  | case4 =>
    intro c hc
    exact h c (List.mem_reverse.mp hc)

theorem isBlankText_of_takeLineEnd {cs after : List Char} {text : String}
    (h : takeLineEnd cs = some (text, after)) : IsBlankText text.toList := by
  unfold takeLineEnd at h
  split at h
  · obtain ⟨rfl, -⟩ := Prod.mk.inj (Option.some.inj h)
    simp [IsBlankText, isGapChar, isLineEndChar]
  · obtain ⟨rfl, -⟩ := Prod.mk.inj (Option.some.inj h)
    simp [IsBlankText, isGapChar, isLineEndChar]
  · obtain ⟨rfl, -⟩ := Prod.mk.inj (Option.some.inj h)
    simp [IsBlankText, isGapChar, isLineEndChar]
  · simp at h

theorem takeOperator_eq_none {c : Char} (cs : List Char)
    (h : ∀ op ∈ operators, (op.head?.map (· != c)).getD false = true) :
    takeOperator (c :: cs) = none := by
  refine List.findSome?_eq_none_iff.mpr fun op hop => ?_
  have hh := h op hop
  cases op with
  | nil => simp at hh
  | cons d ds =>
    have hd : (d == c) = false := by simpa using hh
    simp [dropPrefix?, hd]

theorem takeOperator_of_mark {c : Char} {cs : List Char} (hm : IsMark c)
    (hn : ∀ d ∈ cs.head?, d ≠ '=' ∧ d ≠ '.') : takeOperator (c :: cs) = some ([c], cs) := by
  cases cs with
  | nil => rcases hm with rfl | rfl | rfl | rfl | rfl <;> rfl
  | cons d ds =>
    obtain ⟨he, hp⟩ := hn d rfl
    have he' : ('=' == d) = false := by simpa using Ne.symm he
    have hp' : ('.' == d) = false := by simpa using Ne.symm hp
    rcases hm with rfl | rfl | rfl | rfl | rfl <;>
      simp [takeOperator, operators, dropPrefix?, he', hp']

namespace Scan

variable {s t : Scan} {all : List Lexeme}

/-- A scan that has read the first of the tokens and has a text before it that spells the others. -/
structure Reads (all : List Lexeme) (s : Scan) : Prop where
  frames : s.frames = []
  layout : ∀ token ∈ s.tokens, isLayout token.kind = true → IsBlankText token.text.toList
  spells : ∃ ts, Spells s.rest ts [] ∧ lexemes s.tokens ++ ts = all

theorem rest_closeBlocks (s : Scan) (width fuel : Nat) : (s.closeBlocks width fuel).rest = s.rest := by
  induction fuel generalizing s with
  | zero => rfl
  | succ fuel ih =>
    unfold Scan.closeBlocks
    split
    · exact ih _
    · rfl

theorem wordOrString_eq_word (h : startsString s.rest = false) : s.wordOrString = s.word := by
  unfold startsString at h
  unfold Scan.wordOrString
  dsimp only
  split
  · rename_i hb
    rw [hb] at h
    rw [if_pos (by simpa using h)]
  · rfl

section Code

variable {c : Char} {rest : List Char}

theorem codeToken_of_gap (hr : s.rest = c :: rest) (hg : isGapChar c = true) :
    s.codeToken c rest = .error (.badCharacter c) := by
  simp only [isGapChar, isLineEndChar, Bool.or_eq_true, beq_iff_eq, or_assoc] at hg
  unfold Scan.codeToken
  rw [hr]
  rcases hg with rfl | rfl | rfl | rfl | rfl
  all_goals
    rw [takeOperator_eq_none rest (by decide)]
    rfl

theorem codeToken_of_word (hw : mayStartWord c = true) : s.codeToken c rest = s.wordOrString := by
  rw [Scan.codeToken, if_pos hw]

theorem codeToken_of_quote (hq : isQuote c = true) :
    s.codeToken c rest = do
      let (text, rest) ← takeString c s.rest
      return s.emit .string text rest := by
  rcases Bool.or_eq_true_iff.mp hq with h | h
  all_goals
    obtain rfl := beq_iff_eq.mp h
    rfl

theorem codeToken_of_mark (hf : s.frames = []) (hr : s.rest = c :: rest) (hm : IsMark c)
    (hn : ∀ d ∈ rest.head?, d ≠ '=' ∧ d ≠ '.' ∧ d.isDigit = false) :
    s.codeToken c rest = .ok (s.emit .operator [c] rest) := by
  have hs : s.startsSpec = false := by simp [Scan.startsSpec, hf]
  have hd : (rest.head?.map Char.isDigit).getD false = false := by
    cases rest with
    | nil => rfl
    | cons d ds => exact (hn d rfl).2.2
  unfold Scan.codeToken
  rw [hr, takeOperator_of_mark hm fun d hd => ⟨(hn d hd).1, (hn d hd).2.1⟩, hs, hd]
  rcases hm with rfl | rfl | rfl | rfl | rfl <;> rfl

theorem mapFrame_eq_self (hf : s.frames = []) (f : FormatFrame → FormatFrame) :
    s.mapFrame f = s := by
  simp [Scan.mapFrame, hf]

theorem openBracket_eq (hf : s.frames = []) :
    s.openBracket c rest =
      { s.emit .operator [c] rest with brackets := (c, s.line) :: s.brackets } := by
  simp only [Scan.openBracket, mapFrame_eq_self hf]
  rfl

theorem closeBracket_eq_ok (hf : s.frames = []) (h : s.closeBracket c rest = .ok t) :
    ∃ brackets, brackets.length = s.brackets.length - 1 ∧
      t = { s.emit .operator [c] rest with brackets } := by
  unfold Scan.closeBracket at h
  split at h
  · simp at h
  · rename_i opening line brackets hb
    split at h
    · rw [mapFrame_eq_self hf] at h
      exact ⟨brackets, by simp [hb], (Except.ok.inj h).symm⟩
    · simp at h

/-- A bracket is one token, whether it opens or closes. -/
theorem codeToken_of_bracket (hf : s.frames = []) (hb : isBracket c = true)
    (h : s.codeToken c rest = .ok t) :
    ∃ brackets, brackets.length = (markLexeme c).nest s.brackets.length ∧
      t = { s.emit .operator [c] rest with brackets } := by
  simp only [isBracket, Bool.or_eq_true, beq_iff_eq, or_assoc] at hb
  rcases hb with rfl | rfl | rfl | rfl | rfl | rfl
  iterate 3
    rw [show s.codeToken _ rest = .ok (s.openBracket _ rest) from rfl, openBracket_eq hf] at h
    exact ⟨_, rfl, (Except.ok.inj h).symm⟩
  all_goals exact closeBracket_eq_ok hf h

theorem word_eq_ok (h : s.word = .ok t) :
    t = s.emit (wordKind (s.rest.takeWhile mayContinueWord))
      (s.rest.takeWhile mayContinueWord) (s.rest.dropWhile mayContinueWord) := by
  unfold Scan.word at h
  dsimp only at h
  split at h
  · exact (Except.ok.inj h).symm
  · simp at h

/-- What a text spells first is the next token of code. -/
theorem codeToken_of_spells {ts : List Lexeme} {fin : List Char} (hf : s.frames = [])
    (hr : s.rest = c :: rest) (hs : Spells s.rest ts fin) (hmore : ts ≠ [] ∨ fin = [])
    (h : s.codeToken c rest = .ok t) :
    ∃ kind text left brackets us, ts = (kind, String.ofList text) :: us ∧
      isLayout kind = false ∧ Spells left us fin ∧ left <:+ rest ∧
      brackets.length = Lexeme.nest (kind, String.ofList text) s.brackets.length ∧
      t = { s.emit kind text left with brackets } := by
  rw [hr] at hs
  cases hs with
  | done => simp at hmore
  | gap hg => simp [codeToken_of_gap hr hg] at h
  | word _ hw hp hl =>
    rw [codeToken_of_word hw, wordOrString_eq_word (hr ▸ hp)] at h
    obtain rfl := word_eq_ok h
    rw [hr]
    have hc : mayContinueWord c = true := by simp [mayContinueWord, hw]
    have hleft : (c :: rest).dropWhile mayContinueWord <:+ rest := by
      rw [List.dropWhile_cons_of_pos hc]
      exact List.dropWhile_suffix _
    exact ⟨_, _, _, s.brackets, _, rfl, isLayout_wordKind _, hl, hleft,
      (nest_wordLexeme _ _).symm, rfl⟩
  | number _ hw hd hn hl =>
    simp only [Scan.codeToken, hw, hd, hr, hn, Bool.false_eq_true, if_false, if_true,
      Bool.true_or] at h
    obtain rfl := Except.ok.inj h
    exact ⟨_, _, _, s.brackets, _, rfl, rfl, hl, suffix_of_takeNumber hd hn, rfl, rfl⟩
  | string hq ht hl =>
    rw [codeToken_of_quote hq, hr, ht] at h
    obtain rfl := Except.ok.inj h
    exact ⟨_, _, _, s.brackets, _, rfl, rfl, hl, suffix_of_takeString ht, rfl, rfl⟩
  | bracket hb hl =>
    obtain ⟨brackets, hn, rfl⟩ := codeToken_of_bracket hf hb h
    exact ⟨_, _, _, brackets, _, rfl, rfl, hl, List.suffix_refl _, hn, rfl⟩
  | mark hm hn hl =>
    rw [codeToken_of_mark hf hr hm hn] at h
    obtain rfl := Except.ok.inj h
    exact ⟨_, _, _, s.brackets, _, rfl, rfl, hl, List.suffix_refl _, (nest_mark hm _).symm, rfl⟩

end Code

namespace Reads

/-- Text of gaps is passed over. -/
theorem pass (hs : s.Reads all) (hf : t.frames = s.frames) (ht : t.tokens = s.tokens)
    (hr : ∀ ts, Spells s.rest ts [] → Spells t.rest ts []) : t.Reads all := by
  obtain ⟨ts, hts, hall⟩ := hs.spells
  refine ⟨hf.trans hs.frames, ?_, ts, hr ts hts, ?_⟩
  · rw [ht]
    exact hs.layout
  · rw [ht]
    exact hall

theorem pushLayout {token : Token} (hs : s.Reads all) (hf : t.frames = s.frames)
    (ht : t.tokens = s.tokens.push token) (hk : isLayout token.kind = true)
    (hx : IsBlankText token.text.toList)
    (hr : ∀ ts, Spells s.rest ts [] → Spells t.rest ts []) : t.Reads all := by
  obtain ⟨ts, hts, hall⟩ := hs.spells
  refine ⟨hf.trans hs.frames, ?_, ts, hr ts hts, ?_⟩
  · rw [ht]
    intro u hu hl
    rcases Array.mem_push.mp hu with hu | rfl
    · exact hs.layout u hu hl
    · exact hx
  · rw [ht, lexemes_push, if_pos hk, List.append_nil]
    exact hall

theorem pushCode {token : Token} {ts : List Lexeme} (hs : s.Reads all) (hf : t.frames = s.frames)
    (ht : t.tokens = s.tokens.push token) (hk : isLayout token.kind = false)
    (hr : Spells t.rest ts [])
    (hall : lexemes s.tokens ++ (token.kind, token.text) :: ts = all) : t.Reads all := by
  refine ⟨hf.trans hs.frames, ?_, ts, hr, ?_⟩
  · rw [ht]
    intro u hu hl
    rcases Array.mem_push.mp hu with hu | rfl
    · exact hs.layout u hu hl
    · simp [hk] at hl
  · rw [ht, lexemes_push, if_neg (by simp [hk]), List.append_assoc]
    exact hall

theorem closeBlocks (hs : s.Reads all) (width fuel : Nat) : (s.closeBlocks width fuel).Reads all := by
  induction fuel generalizing s with
  | zero => exact hs
  | succ fuel ih =>
    unfold Scan.closeBlocks
    split
    · exact ih (hs.pushLayout rfl rfl rfl (by simp [IsBlankText]) fun _ h => h)
    · exact hs

theorem indentTo {level : IndentLevel} (hs : s.Reads all) (hl : IsBlankText level.text)
    (h : s.indentTo level = .ok t) : t.Reads all := by
  rcases indentTo_cases h with rfl | rfl | rfl
  · exact hs
  · refine hs.pushLayout rfl rfl rfl ?_ fun _ h => h
    intro c hc
    rw [String.toList_ofList] at hc
    exact hl c (List.mem_of_mem_drop hc)
  · exact hs.closeBlocks _ _

theorem startLine (hs : s.Reads all) (h : s.startLine = .ok t) : t.Reads all := by
  have ha : s.afterIndentation.Reads all := hs.pass rfl rfl fun ts h => h.of_takeIndentation {}
  rcases startLine_cases h with rfl | rfl | h
  · exact ha.pass rfl rfl fun _ h => h
  · exact ha
  · exact ha.indentTo (isBlankText_takeIndentation s.rest {} (by simp [IsBlankText])) h

theorem skipBlanks (hs : s.Reads all) : (skipBlanks s).Reads all := by
  have hr (ts : List Lexeme) (h : Spells s.rest ts []) :
      Spells (s.rest.drop (takeBlankChars s.rest).length) ts [] :=
    h.of_drop_takeWhile (fun c hc => by simp [isGapChar, hc]) (.inr rfl)
  unfold Syntax.skipBlanks
  dsimp only
  split
  · rename_i cs hcs
    obtain ⟨ts, hts, -⟩ := hs.spells
    exact absurd rfl ((hcs ▸ hr ts hts : Spells ('#' :: cs) ts []).ne_of_cons (.inr rfl)).1
  · exact hs.pass rfl rfl hr

theorem openToken (hs : s.Reads all) (h : s.openToken = .ok t) : t.Reads all := by
  rcases openToken_cases h with rfl | ⟨opened, ho, rfl⟩
  · exact hs.skipBlanks
  · exact (hs.startLine ho).skipBlanks

theorem finish (hs : s.Reads all) (hr : s.rest = []) : s.finish.Reads all := by
  unfold Scan.finish
  split
  · exact hs.pushLayout rfl rfl rfl (by simp [IsBlankText]) fun ts h => hr ▸ h
  · exact hs

theorem endText (hs : s.Reads all) (hr : s.rest = []) : s.endText.scan.Reads all := by
  unfold Scan.endText
  split
  · exact hs.finish hr
  · exact (hs.closeBlocks 0 s.indents.length).pushLayout rfl rfl rfl (by simp [IsBlankText])
      fun ts h => by rwa [rest_closeBlocks, hr] at h

theorem endLine {text : String} {after : List Char} (hs : s.Reads all)
    (he : takeLineEnd s.rest = some (text, after)) : (s.endLine text.toList after).Reads all := by
  unfold Scan.endLine
  split
  · exact hs.pass rfl rfl fun ts h => h.of_takeLineEnd he
  · refine hs.pushLayout rfl rfl rfl ?_ fun ts h => h.of_takeLineEnd he
    rw [String.toList_ofList]
    exact isBlankText_of_takeLineEnd he

theorem codeToken {c : Char} {rest : List Char} (hs : s.Reads all) (hr : s.rest = c :: rest)
    (h : s.codeToken c rest = .ok t) : t.Reads all := by
  obtain ⟨ts, hts, hall⟩ := hs.spells
  obtain ⟨kind, text, left, brackets, us, rfl, hk, hl, -, -, rfl⟩ :=
    codeToken_of_spells hs.frames hr hts (.inr rfl) h
  exact hs.pushCode rfl rfl hk hl hall

theorem formatStep (hs : s.Reads all) : s.formatStep = .ok none := by
  simp [Scan.formatStep, hs.frames]

theorem step {next : Step} (hs : s.Reads all) (h : s.step = .ok next) : next.scan.Reads all := by
  cases steps_of_step h with
  | format hf => simp [hs.formatStep] at hf
  | stop ho hr => exact (hs.openToken ho).endText hr
  | join ho hr hj =>
    obtain ⟨ts, hts, -⟩ := (hs.openToken ho).spells
    exact absurd rfl ((hr ▸ hts : Spells ('\\' :: _) ts []).ne_of_cons (.inr rfl)).2
  | lineEnd ho he => exact (hs.openToken ho).endLine he
  | code ho hr he hc => exact (hs.openToken ho).codeToken hr hc

theorem run {tokens : Array Token} {fuel : Nat} (hs : s.Reads all) (h : s.run fuel = .ok tokens) :
    lexemes tokens <+: all ∧
      ∀ token ∈ tokens, isLayout token.kind = true → IsBlankText token.text.toList := by
  obtain ⟨t, ht, rfl⟩ := exists_scan_of_run (fun hs h => hs.step h) hs h
  obtain ⟨ts, -, hall⟩ := ht.spells
  exact ⟨⟨ts, hall⟩, ht.layout⟩

end Reads

end Scan

/-- What is read of a text is what it spells, between tokens of layout. -/
theorem lexemes_of_tokenize {text : List Char} {ts : List Lexeme} {tokens : Array Token}
    (hs : Spells text ts []) (h : tokenize text = .ok tokens) :
    lexemes tokens <+: ts ∧
      ∀ token ∈ tokens, isLayout token.kind = true → IsBlankText token.text.toList := by
  have hr : ({ rest := text, lacksLineEnd := text.getLast? != some '\n' } : Scan).Reads ts :=
    ⟨rfl, by simp, ts, hs, by simp [lexemes]⟩
  exact hr.run h

end Hydration.Syntax
