import Hydration.Proofs.OpeningTexts
import Hydration.Transform.Pass

/-! Texts that end in an indented block. The lines at the margin come first, and the block opens with
one token, holds the words of its lines, and closes with another at the end of the text. -/

namespace Hydration.Syntax

/-- A line of code with the words that it spells. -/
structure CodeLine where
  code : List Char
  words : List Lexeme
  isLine : IsLine code words

namespace CodeLine

variable {indent newline : String}

def chars (indent newline : String) (line : CodeLine) : List Char :=
  indent.toList ++ (line.code ++ newline.toList)

def lexemes (newline : String) (line : CodeLine) : List Lexeme :=
  line.words ++ [(.newline, newline)]

theorem length_words_le (line : CodeLine) : line.words.length ≤ line.code.length := by
  have hs := line.isLine.spells [] (by rintro c ⟨⟩)
  simpa using hs.leaves.2

theorem length_lexemes_pos (newline : String) (line : CodeLine) : 0 < (line.lexemes newline).length := by
  simp [lexemes]

theorem length_lexemes_le (indent : String) (hn : newline ∈ ["\n", "\r\n", "\r"]) (lines : List CodeLine) :
    (lines.flatMap (lexemes newline)).length ≤ (lines.flatMap (chars indent newline)).length := by
  have hpos : 1 ≤ newline.toList.length := by
    simp only [List.mem_cons, List.not_mem_nil, or_false] at hn
    rcases hn with rfl | rfl | rfl <;> decide
  induction lines with
  | nil => exact Nat.le_refl _
  | cons line lines ih =>
    have hline := line.length_words_le
    simp only [List.flatMap_cons, List.length_append, lexemes, chars, List.length_singleton]
    omega

/-- Code starts with a character that is neither blank nor opens a comment. -/
theorem exists_head (line : CodeLine) {rest : List Char} (hr : Closes rest) :
    ∃ c cs, line.code ++ rest = c :: cs ∧ isGapChar c = false ∧ c ≠ '#' ∧ c ≠ '\\' := by
  have hs := line.isLine.spells rest hr
  have hstart := line.isLine.starts rest
  have hne : line.words ≠ [] ∨ rest = [] := .inl line.isLine.some_word
  cases hc : line.code ++ rest with
  | nil =>
    rw [hc] at hs
    have hlen := hs.leaves.2
    rw [List.length_nil] at hlen
    exact absurd (List.length_eq_zero_iff.mp (by omega)) line.isLine.some_word
  | cons c cs =>
    rw [hc] at hs hstart
    exact ⟨c, cs, rfl, hstart c rfl, hs.ne_of_cons hne⟩

end CodeLine

/-- Spaces and tabs, at least one. -/
def IsIndent (indent : String) : Prop :=
  indent.toList ≠ [] ∧ ∀ c ∈ indent.toList, c = ' ' ∨ c = '\t'

theorem isIndent_iff {indent : String} : IsIndent indent ↔ Transform.isPlainIndent indent = true := by
  simp [IsIndent, Transform.isPlainIndent]

def levelOf (indent : List Char) : IndentLevel := (takeIndentation indent {}).1

section Indentation

variable {indent rest : List Char}

theorem takeIndentation_append (hi : ∀ c ∈ indent, c = ' ' ∨ c = '\t')
    (hr : ∀ c ∈ rest.head?, isGapChar c = false) (level : IndentLevel) :
    takeIndentation (indent ++ rest) level = ((takeIndentation indent level).1, rest) := by
  induction indent generalizing level with
  | nil =>
    cases rest with
    | nil => rfl
    | cons c rest =>
      have hc := hr c rfl
      unfold takeIndentation
      split <;> simp_all [isGapChar]
  | cons c indent ih =>
    obtain ⟨hc, htail⟩ := List.forall_mem_cons.mp hi
    rcases hc with rfl | rfl
    · exact ih htail _
    · exact ih htail _

theorem text_takeIndentation (hi : ∀ c ∈ indent, c = ' ' ∨ c = '\t') (level : IndentLevel) :
    (takeIndentation indent level).1.text = level.text.reverse ++ indent := by
  induction indent generalizing level with
  | nil => simp [takeIndentation]
  | cons c indent ih =>
    obtain ⟨hc, htail⟩ := List.forall_mem_cons.mp hi
    rcases hc with rfl | rfl
    · simp [takeIndentation, ih htail]
    · simp [takeIndentation, ih htail]

theorem width_takeIndentation (hi : ∀ c ∈ indent, c = ' ' ∨ c = '\t') (level : IndentLevel) :
    level.width + indent.length ≤ (takeIndentation indent level).1.width ∧
      level.narrowWidth + indent.length ≤ (takeIndentation indent level).1.narrowWidth := by
  induction indent generalizing level with
  | nil => simp [takeIndentation]
  | cons c indent ih =>
    obtain ⟨hc, htail⟩ := List.forall_mem_cons.mp hi
    rcases hc with rfl | rfl
    · have hh := ih htail ⟨level.width + 1, level.narrowWidth + 1, ' ' :: level.text⟩
      simp only [takeIndentation, List.length_cons] at hh ⊢
      omega
    · have hh := ih htail ⟨(level.width / 8 + 1) * 8, level.narrowWidth + 1, '\t' :: level.text⟩
      simp only [takeIndentation, List.length_cons] at hh ⊢
      omega

end Indentation

theorem IsIndent.level {indent : String} (h : IsIndent indent) :
    (levelOf indent.toList).text = indent.toList ∧ 0 < (levelOf indent.toList).width ∧
      0 < (levelOf indent.toList).narrowWidth := by
  have hlen := List.length_pos_iff.mpr h.1
  obtain ⟨hwidth, hnarrow⟩ := width_takeIndentation h.2 {}
  refine ⟨text_takeIndentation h.2 {}, ?_, ?_⟩
  · exact Nat.lt_of_lt_of_le hlen ((Nat.le_add_left _ _).trans hwidth)
  · exact Nat.lt_of_lt_of_le hlen ((Nat.le_add_left _ _).trans hnarrow)

namespace Scan

variable {s t : Scan} {indent newline : String} {levels : List IndentLevel} {rest : List Char}
  {tokens : Array Token}

/-- Once the start of a line has been read, a step goes on as from there. -/
theorem step_of_startLine (hs : s.frames = []) (ht : t.frames = []) (hstart : s.atLineStart = true)
    (hstarted : t.atLineStart = false) (h : s.startLine = .ok t) : s.step = t.step := by
  have hopen : s.openToken = t.openToken := by
    rw [Scan.openToken, Scan.openToken, hstart, hstarted, h]
    rfl
  simp only [Scan.step, Scan.formatStep, hs, ht, hopen]

/-- What a scan has read of the start of a line of code. -/
structure Starts (s t : Scan) (levels : List IndentLevel) (rest : List Char) : Prop where
  startLine : s.startLine = .ok t
  frames : t.frames = []
  brackets : t.brackets = []
  indents : t.indents = levels
  started : t.atLineStart = false
  rest : t.rest = rest

theorem Starts.stands (h : s.Starts t levels rest) : t.Stands 0 where
  frames := h.frames
  brackets := by rw [h.brackets, List.length_nil]
  fresh hstart := absurd (h.started.symm.trans hstart) Bool.false_ne_true

theorem startLine_eq (hs : s.StartsLine levels (indent.toList ++ rest))
    (hi : ∀ c ∈ indent.toList, c = ' ' ∨ c = '\t')
    (hc : ∃ c cs, rest = c :: cs ∧ isGapChar c = false ∧ c ≠ '#' ∧ c ≠ '\\') :
    s.startLine = ({ s.skip (levelOf indent.toList).text rest with
      atLineStart := false } : Scan).indentTo (levelOf indent.toList) := by
  obtain ⟨c, cs, rfl, hg, hcomment, hjoin⟩ := hc
  have hhead : ∀ d ∈ (c :: cs).head?, isGapChar d = false := by
    rintro d ⟨⟩
    exact hg
  have htake := takeIndentation_append hi hhead {}
  have hend : (c == '#' || c == '\n' || c == '\r' || c == '\\') = false := by
    simp only [isGapChar, isLineEndChar, Bool.or_eq_false_iff] at hg
    simp [hcomment, hjoin, hg.2]
  have hbrackets : (s.skip (levelOf indent.toList).text (c :: cs)).brackets = [] := hs.brackets
  unfold Scan.startLine
  simp only [hs.rest, htake, hend, Bool.false_eq_true, if_false]
  rw [if_pos (by exact List.isEmpty_iff.mpr hbrackets)]
  rfl

/-- A line with the indentation in force opens no block. -/
theorem StartsLine.goes_on (hs : s.StartsLine levels (indent.toList ++ rest))
    (hi : ∀ c ∈ indent.toList, c = ' ' ∨ c = '\t') (hl : levels.headD {} = levelOf indent.toList)
    (hc : ∃ c cs, rest = c :: cs ∧ isGapChar c = false ∧ c ≠ '#' ∧ c ≠ '\\') :
    ∃ t, s.Starts t levels rest ∧ t.tokens = s.tokens := by
  have hlevel : ({ s.skip (levelOf indent.toList).text rest with atLineStart := false } : Scan).level =
      levelOf indent.toList := by
    rw [← hl, ← hs.indents]
    rfl
  refine ⟨{ s.skip (levelOf indent.toList).text rest with atLineStart := false }, ?_, rfl⟩
  refine ⟨?_, hs.frames, hs.brackets, hs.indents, rfl, rfl⟩
  rw [startLine_eq hs hi hc, Scan.indentTo, hlevel]
  simp

/-- A line with more indentation opens a block. -/
theorem StartsLine.opens_block (hs : s.StartsLine [] (indent.toList ++ rest)) (hi : IsIndent indent)
    (hc : ∃ c cs, rest = c :: cs ∧ isGapChar c = false ∧ c ≠ '#' ∧ c ≠ '\\') :
    ∃ t token, s.Starts t [levelOf indent.toList] rest ∧ t.tokens = s.tokens.push token ∧
      token.lexeme = (.indent, indent) := by
  obtain ⟨htext, hwidth, hnarrow⟩ := hi.level
  have hlevel : ({ s.skip (levelOf indent.toList).text rest with atLineStart := false } : Scan).level =
      {} := by
    change s.indents.headD {} = _
    rw [hs.indents]
    rfl
  have hindents : ({ s.skip (levelOf indent.toList).text rest with
      atLineStart := false } : Scan).indents = [] := hs.indents
  refine ⟨({ s.skip (levelOf indent.toList).text rest with
    atLineStart := false } : Scan).emitIndent (levelOf indent.toList), _,
    ⟨?_, hs.frames, hs.brackets, ?_, rfl, rfl⟩, rfl, ?_⟩
  · rw [startLine_eq hs hi.2 hc, Scan.indentTo, hlevel, hindents]
    have hne : ((levelOf indent.toList).width == 0) = false := by simpa using hwidth.ne'
    have hnot : ¬ (levelOf indent.toList).narrowWidth ≤ 0 := by omega
    have hfew : ¬ 0 + 1 ≥ maxIndents := by decide
    simp only [hne, List.length_nil, Bool.false_eq_true, if_false, hwidth, if_true, hnot, hfew,
      dropPrefix?, Option.isNone_some]
  · change levelOf indent.toList :: s.indents = _
    rw [hs.indents]
  · change (TokenKind.indent, String.ofList _) = _
    rw [hlevel, htext]
    exact congrArg _ String.ofList_toList

theorem Starts.run_eq (h : s.Starts t levels rest) (hf : s.frames = []) (hstart : s.atLineStart = true)
    {fuel : Nat} (hfuel : 0 < fuel) : s.run fuel = t.run fuel := by
  obtain ⟨fuel, rfl⟩ := Nat.exists_eq_succ_of_ne_zero hfuel.ne'
  rw [Scan.run, Scan.run, step_of_startLine hf h.frames hstart h.started h.startLine]

/-- A line of code from its first word to its end. -/
theorem Starts.line {line : CodeLine} {fuel : Nat} {after : List Char}
    (h : s.Starts t levels (line.code ++ (newline.toList ++ after)))
    (hn : newline ∈ ["\n", "\r\n", "\r"]) (ha : ∀ c ∈ after.head?, c ≠ '\n')
    (hrun : t.run ((line.lexemes newline).length + fuel) = .ok tokens) :
    ∃ (u : Scan) (read : List Token), u.run fuel = .ok tokens ∧ u.StartsLine levels after ∧
      u.tokens.toList = t.tokens.toList ++ read ∧ read.map Token.lexeme = line.lexemes newline := by
  have hl := line.isLine
  have hspells := hl.spells _ (closes_newline_append hn after)
  have hone : OneLine (line.code ++ (newline.toList ++ after)) (newline.toList ++ after) :=
    oneLine_of_code hl.unbroken
  rw [← h.rest] at hspells hone
  rw [CodeLine.lexemes, List.length_append, List.length_singleton, Nat.add_assoc, Nat.add_comm 1] at hrun
  obtain ⟨u, read, hu, hstands, hstart, hind, hread, hmap, hleft, hline⟩ :=
    h.stands.run hspells hone hrun
  rw [hl.closed] at hstands
  obtain ⟨hstarted, hblank⟩ := hstart (.inl hl.some_word)
  obtain ⟨next, hstep, hu⟩ := bind_eq_ok.mp hu
  obtain ⟨v, token, rfl, hv, hpush, htoken⟩ :=
    hstands.endLine hstarted hblank hleft hline (takeLineEnd_append hn ha) hstep
  rw [hind, h.indents] at hv
  refine ⟨v, read ++ [token], hu, hv, ?_, ?_⟩
  · rw [hpush, Array.toList_push, hread, List.append_assoc]
  · rw [List.map_append, hmap, List.map_singleton, htoken, CodeLine.lexemes]

theorem head_lines {lines : List CodeLine} {after : List Char}
    (hi : ∀ c ∈ indent.toList, c = ' ' ∨ c = '\t') (ha : ∀ c ∈ after.head?, c ≠ '\n') :
    ∀ c ∈ (lines.flatMap (CodeLine.chars indent newline) ++ after).head?, c ≠ '\n' := by
  cases lines with
  | nil => exact ha
  | cons line lines =>
    rintro c hc rfl
    rw [List.flatMap_cons, CodeLine.chars, List.append_assoc, List.append_assoc] at hc
    cases hcs : indent.toList with
    | nil =>
      rw [hcs, List.nil_append, List.append_assoc] at hc
      exact absurd (line.isLine.starts _ '\n' hc) (by decide)
    | cons d ds =>
      rw [hcs] at hc hi
      obtain rfl : d = '\n' := Option.some.inj hc
      exact absurd (hi _ List.mem_cons_self) (by decide)

/-- Further lines at the same level. -/
theorem StartsLine.run_lines {lines : List CodeLine} {fuel : Nat} {after : List Char}
    (hs : s.StartsLine levels (lines.flatMap (CodeLine.chars indent newline) ++ after))
    (hi : ∀ c ∈ indent.toList, c = ' ' ∨ c = '\t') (hl : levels.headD {} = levelOf indent.toList)
    (hn : newline ∈ ["\n", "\r\n", "\r"]) (ha : ∀ c ∈ after.head?, c ≠ '\n')
    (hrun : s.run ((lines.flatMap (CodeLine.lexemes newline)).length + fuel) = .ok tokens) :
    ∃ (u : Scan) (read : List Token), u.run fuel = .ok tokens ∧ u.StartsLine levels after ∧
      u.tokens.toList = s.tokens.toList ++ read ∧
      read.map Token.lexeme = lines.flatMap (CodeLine.lexemes newline) := by
  induction lines generalizing s with
  | nil =>
    rw [List.flatMap_nil, List.length_nil, Nat.zero_add] at hrun
    exact ⟨s, [], hrun, hs, by simp, rfl⟩
  | cons line lines ih =>
    rw [List.flatMap_cons, CodeLine.chars, List.append_assoc, List.append_assoc, List.append_assoc] at hs
    obtain ⟨t, hstarts, htokens⟩ := hs.goes_on hi hl (line.exists_head (closes_newline_append hn _))
    rw [List.flatMap_cons, List.length_append, Nat.add_assoc,
      hstarts.run_eq hs.frames hs.start ((line.length_lexemes_pos newline).trans_le (Nat.le_add_right _ _))] at hrun
    obtain ⟨u, read, hu, hustarts, hread, hmap⟩ := hstarts.line hn (head_lines hi ha) hrun
    obtain ⟨v, more, hv, hvstarts, hmore, hmap'⟩ := ih hustarts hu
    refine ⟨v, read ++ more, hv, hvstarts, ?_, ?_⟩
    · rw [hmore, hread, htokens, List.append_assoc]
    · rw [List.map_append, hmap, hmap', List.flatMap_cons]

theorem endText_of_block {level : IndentLevel} (hb : s.blankLine = true) (hi : s.indents = [level])
    (hl : 0 < level.width) :
    ∃ t, s.endText = .done t ∧ t.tokens.toList.map Token.lexeme =
      s.tokens.toList.map Token.lexeme ++ [(.dedent, ""), (.finish, "")] := by
  have hlevel : s.level = level := by
    rw [Scan.level, hi]
    rfl
  have hclose : s.closeBlocks 0 s.indents.length = s.emitDedent := by
    rw [hi, List.length_singleton, Scan.closeBlocks, hlevel, hi]
    simp [hl, Scan.closeBlocks]
  rw [Scan.endText, hb, Bool.not_true, Bool.and_false, if_neg Bool.false_ne_true, hclose]
  refine ⟨_, rfl, ?_⟩
  simp only [Scan.emit, Scan.emitDedent, Array.toList_push, List.map_append, List.append_assoc]
  rfl

/-- At the end of the text the block closes. -/
theorem StartsLine.closes_block {level : IndentLevel} {next : Step} (hs : s.StartsLine [level] [])
    (hl : 0 < level.width) (hstep : s.step = .ok next) :
    ∃ t, next = .done t ∧ t.tokens.toList.map Token.lexeme =
      s.tokens.toList.map Token.lexeme ++ [(.dedent, ""), (.finish, "")] := by
  have hstart : s.startLine = .ok { s.skip [] [] with atLineStart := false, blankLine := true } := by
    simp only [Scan.startLine, hs.rest, takeIndentation, List.reverse_nil, if_true]
  have hnext : s.step = .ok
      ({ s.skip [] [] with atLineStart := false, blankLine := true } : Scan).endText := by
    simp only [Scan.step, Scan.formatStep, hs.frames, Scan.openToken, hs.start, if_true, hstart]
    rfl
  obtain ⟨t, hdone, htokens⟩ := endText_of_block (s := { s.skip [] [] with
    atLineStart := false, blankLine := true }) rfl hs.indents hl
  rw [hnext, hdone] at hstep
  exact ⟨t, (Except.ok.inj hstep).symm, htokens⟩

/-- The lines of a block, which ends with the text. -/
theorem StartsLine.run_block {line : CodeLine} {lines : List CodeLine} {fuel : Nat}
    (hs : s.StartsLine [] ((line :: lines).flatMap (CodeLine.chars indent newline)))
    (hi : IsIndent indent) (hn : newline ∈ ["\n", "\r\n", "\r"])
    (hrun : s.run (((line :: lines).flatMap (CodeLine.lexemes newline)).length + (fuel + 1)) =
      .ok tokens) :
    tokens.toList.map Token.lexeme = s.tokens.toList.map Token.lexeme ++
      (.indent, indent) :: ((line :: lines).flatMap (CodeLine.lexemes newline) ++
        [(.dedent, ""), (.finish, "")]) := by
  obtain ⟨-, hwidth, -⟩ := hi.level
  have hnone : ∀ c ∈ ([] : List Char).head?, c ≠ '\n' := nofun
  rw [List.flatMap_cons, CodeLine.chars, List.append_assoc, List.append_assoc] at hs
  obtain ⟨t, token, hstarts, hpush, htoken⟩ :=
    hs.opens_block hi (line.exists_head (closes_newline_append hn _))
  rw [List.flatMap_cons, List.length_append, Nat.add_assoc,
    hstarts.run_eq hs.frames hs.start ((line.length_lexemes_pos newline).trans_le (Nat.le_add_right _ _))] at hrun
  rw [← List.append_nil (lines.flatMap _)] at hstarts
  obtain ⟨u, read, hu, hustarts, hread, hmap⟩ := hstarts.line hn (head_lines hi.2 hnone) hrun
  obtain ⟨v, more, hv, hvstarts, hmore, hmap'⟩ := hustarts.run_lines hi.2 rfl hn hnone hu
  obtain ⟨next, hstep, hv⟩ := bind_eq_ok.mp hv
  obtain ⟨w, rfl, hw⟩ := hvstarts.closes_block hwidth hstep
  obtain rfl := Except.ok.inj hv
  rw [hw, hmore, hread, hpush, Array.toList_push]
  simp [htoken, hmap, hmap']

end Scan

/-- Lines at the margin and lines of one block below them, up to the end of the text. -/
theorem lexemes_of_tokenize_block {indent newline : String} {heads body : List CodeLine}
    {tokens : Array Token} (hi : IsIndent indent) (hn : newline ∈ ["\n", "\r\n", "\r"])
    (hb : body ≠ [])
    (h : tokenize (heads.flatMap (CodeLine.chars "" newline) ++
      body.flatMap (CodeLine.chars indent newline)) = .ok tokens) :
    tokens.toList.map Token.lexeme = heads.flatMap (CodeLine.lexemes newline) ++
      (.indent, indent) :: (body.flatMap (CodeLine.lexemes newline) ++
        [(.dedent, ""), (.finish, "")]) := by
  obtain ⟨line, lines, rfl⟩ := List.exists_cons_of_ne_nil hb
  have hfirst : ∀ c ∈ ((line :: lines).flatMap (CodeLine.chars indent newline) ++ []).head?,
      c ≠ '\n' := Scan.head_lines hi.2 nofun
  rw [List.append_nil] at hfirst
  have hheads := CodeLine.length_lexemes_le "" hn heads
  have hlines := CodeLine.length_lexemes_le indent hn (line :: lines)
  unfold tokenize at h
  dsimp only at h
  generalize htext : heads.flatMap (CodeLine.chars "" newline) ++
    (line :: lines).flatMap (CodeLine.chars indent newline) = text at h
  have hsize := congrArg List.length htext
  rw [List.length_append] at hsize
  obtain ⟨fuel, hfuel⟩ : ∃ fuel, 2 * text.length + 4 =
      (heads.flatMap (CodeLine.lexemes newline)).length +
        (((line :: lines).flatMap (CodeLine.lexemes newline)).length + (fuel + 1)) :=
    ⟨2 * text.length + 3 - (heads.flatMap (CodeLine.lexemes newline)).length -
      ((line :: lines).flatMap (CodeLine.lexemes newline)).length, by omega⟩
  have hstart : ({ rest := text, lacksLineEnd := text.getLast? != some '\n' } : Scan).StartsLine []
      (heads.flatMap (CodeLine.chars "" newline) ++
        (line :: lines).flatMap (CodeLine.chars indent newline)) := ⟨rfl, rfl, rfl, rfl, htext.symm⟩
  rw [hfuel] at h
  obtain ⟨s, read, hs, hmargin, hread, hmap⟩ := hstart.run_lines (by simp) rfl hn hfirst h
  rw [hmargin.run_block hi hn hs, hread]
  simp [hmap]

end Hydration.Syntax
