import Hydration.Proofs.Spelling
import Hydration.Syntax.Reading

/-! Lines of code that are read from the margin. A scan on a line whose text spells some tokens reads
just these, and then the end of the line. -/

namespace Hydration.Syntax

section LineEnds

variable {c : Char} {cs fin : List Char}

/-- No line ends before the part of a text that is left. -/
def OneLine (cs fin : List Char) : Prop := cs.countP isLineEndChar ≤ fin.countP isLineEndChar

theorem OneLine.suffix {left : List Char} (h : OneLine cs fin) (hs : left <:+ cs) : OneLine left fin :=
  (hs.sublist.countP_le).trans h

theorem oneLine_of_code {code : List Char} (h : ∀ c ∈ code, isLineEndChar c = false) :
    OneLine (code ++ fin) fin := by
  have hz : code.countP isLineEndChar = 0 := List.countP_eq_zero.mpr fun c hc => by simp [h c hc]
  rw [OneLine, List.countP_append, hz, Nat.zero_add]

theorem OneLine.not_lineEnd (h : OneLine (c :: cs) fin) (hs : fin <:+ cs) : isLineEndChar c = false := by
  have hc := hs.sublist.countP_le (p := isLineEndChar)
  by_contra hn
  rw [OneLine, List.countP_cons_of_pos (by simpa using hn)] at h
  omega

theorem exists_lineEnd_of_takeLineEnd {text : String} {after : List Char}
    (h : takeLineEnd cs = some (text, after)) :
    ∃ c rest, cs = c :: rest ∧ isLineEndChar c = true ∧ after <:+ rest := by
  unfold takeLineEnd at h
  split at h
  · obtain ⟨-, rfl⟩ := Prod.mk.inj (Option.some.inj h)
    exact ⟨_, _, rfl, rfl, List.suffix_cons _ _⟩
  · obtain ⟨-, rfl⟩ := Prod.mk.inj (Option.some.inj h)
    exact ⟨_, _, rfl, rfl, List.suffix_refl _⟩
  · obtain ⟨-, rfl⟩ := Prod.mk.inj (Option.some.inj h)
    exact ⟨_, _, rfl, rfl, List.suffix_refl _⟩
  · simp at h

end LineEnds

def Token.lexeme (token : Token) : Lexeme := (token.kind, token.text)

/-- How many brackets are open behind some tokens. -/
def nesting (open_ : Nat) (ts : List Lexeme) : Nat := ts.foldl (fun n t => Lexeme.nest t n) open_

theorem takeIndentation_of_code {c : Char} (hg : isGapChar c = false) (cs : List Char) :
    takeIndentation (c :: cs) {} = ({}, c :: cs) := by
  unfold takeIndentation
  split
  · simp_all [isGapChar]
  · simp_all [isGapChar]
  · simp_all [isGapChar]
  · rfl

namespace Scan

variable {s t opened : Scan} {c : Char} {cs fin : List Char} {x : Lexeme} {ts : List Lexeme} {n : Nat}

/-- A scan outside formatted strings, with some brackets open. If it is at the start of a line, it is
outside blocks, and no blanks stand before it. -/
structure Stands (s : Scan) (n : Nat) : Prop where
  frames : s.frames = []
  brackets : s.brackets.length = n
  fresh : s.atLineStart = true → s.indents = [] ∧ ∀ c ∈ s.rest.head?, isGapChar c = false

/-- A scan at the start of a line, outside formatted strings and brackets. -/
structure StartsLine (s : Scan) (levels : List IndentLevel) (rest : List Char) : Prop where
  frames : s.frames = []
  brackets : s.brackets = []
  indents : s.indents = levels
  start : s.atLineStart = true
  rest : s.rest = rest

theorem StartsLine.stands {rest : List Char} (h : s.StartsLine [] rest)
    (hr : ∀ c ∈ rest.head?, isGapChar c = false) : s.Stands 0 where
  frames := h.frames
  brackets := by rw [h.brackets, List.length_nil]
  fresh _ := ⟨h.indents, h.rest ▸ hr⟩

/-- A scan that has passed over blanks at most. -/
structure Opens (s opened : Scan) : Prop where
  frames : opened.frames = s.frames
  indents : opened.indents = s.indents
  brackets : opened.brackets = s.brackets
  tokens : opened.tokens = s.tokens
  blankLine : opened.blankLine = s.blankLine
  started : opened.atLineStart = false
  rest : opened.rest = s.rest.drop (takeBlankChars s.rest).length

theorem startLine_of_code (hi : s.indents = []) (hr : s.rest = c :: cs) (hg : isGapChar c = false)
    (hc : c ≠ '#' ∧ c ≠ '\\') : s.startLine = .ok { s with atLineStart := false } := by
  have hskip : s.skip [] (c :: cs) = s := by
    rw [← hr]
    rfl
  have hend : (c == '#' || c == '\n' || c == '\r' || c == '\\') = false := by
    simp only [isGapChar, isLineEndChar, Bool.or_eq_false_iff] at hg
    simp [hc.1, hc.2, hg.2]
  simp only [Scan.startLine, hr, takeIndentation_of_code hg, hskip, hend, Bool.false_eq_true, if_false]
  simp [Scan.indentTo, Scan.level, hi]

theorem opens_skipBlanks (hstart : s.atLineStart = false)
    (h : ∀ c ∈ (s.rest.drop (takeBlankChars s.rest).length).head?, c ≠ '#') :
    s.Opens (skipBlanks s) := by
  unfold Syntax.skipBlanks
  dsimp only
  split
  · rename_i cs hcs
    exact absurd rfl (h '#' (by rw [show s.rest.drop (takeBlankChars s.rest).length = _ from hcs]; rfl))
  · exact ⟨rfl, rfl, rfl, rfl, rfl, hstart, rfl⟩

theorem Stands.opens (hs : s.Stands n) (h : Spells s.rest (x :: ts) fin)
    (ho : s.openToken = .ok opened) : s.Opens opened ∧ Spells opened.rest (x :: ts) fin := by
  have hd : Spells (s.rest.drop (takeBlankChars s.rest).length) (x :: ts) fin :=
    h.of_drop_takeWhile (fun c hc => by simp [isGapChar, hc]) (.inl (List.cons_ne_nil x ts))
  have hhead : ∀ c ∈ (s.rest.drop (takeBlankChars s.rest).length).head?, c ≠ '#' := by
    intro c hc
    obtain ⟨cs, hcs⟩ := List.head?_eq_some_iff.mp hc
    rw [hcs] at hd
    exact (hd.ne_of_cons (.inl (List.cons_ne_nil x ts))).1
  have hopens : s.Opens opened := by
    unfold Scan.openToken at ho
    split at ho
    · rename_i hstart
      cases hr : s.rest with
      | nil => simp [hr] at h; cases h
      | cons c cs =>
        rw [hr] at h
        obtain ⟨hindents, hgap⟩ := hs.fresh hstart
        have hg := hgap c (by rw [hr]; rfl)
        rw [startLine_of_code hindents hr hg (h.ne_of_cons (.inl (List.cons_ne_nil x ts)))] at ho
        obtain rfl := Except.ok.inj ho
        obtain ⟨h1, h2, h3, h4, h5, h6, h7⟩ :=
          opens_skipBlanks (s := { s with atLineStart := false }) rfl hhead
        exact ⟨h1, h2, h3, h4, h5, h6, h7⟩
    · rename_i hstart
      obtain rfl := Except.ok.inj ho
      exact opens_skipBlanks (by simpa using hstart) hhead
  exact ⟨hopens, hopens.rest ▸ hd⟩

/-- Code behind the blanks is read as one token, and the scan stands behind that. -/
theorem Opens.code {rest : List Char} (hpast : s.Opens opened) (hs : s.Stands n)
    (hopen : Spells opened.rest (x :: ts) fin) (hl : OneLine s.rest fin)
    (hr : opened.rest = c :: rest) (hc : opened.codeToken c rest = .ok t) :
    ∃ token, t.Stands (Lexeme.nest x n) ∧ t.atLineStart = false ∧ t.blankLine = false ∧
      t.indents = s.indents ∧ t.tokens = s.tokens.push token ∧ token.lexeme = x ∧
      Spells t.rest ts fin ∧ OneLine t.rest fin := by
  obtain ⟨kind, text, left, brackets, us, he, -, hleft, hsuffix, hb, rfl⟩ :=
    codeToken_of_spells (hpast.frames.trans hs.frames) hr hopen (.inl (List.cons_ne_nil x ts)) hc
  obtain ⟨rfl, rfl⟩ := List.cons.inj he
  have hrest : left <:+ s.rest := by
    have hmid : opened.rest <:+ s.rest := hpast.rest ▸ List.drop_suffix _ _
    rw [hr] at hmid
    exact hsuffix.trans ((List.suffix_cons c rest).trans hmid)
  have hstands : Stands { opened.emit kind text left with brackets }
      (Lexeme.nest (kind, String.ofList text) n) := by
    refine ⟨hpast.frames.trans hs.frames, ?_, ?_⟩
    · rw [← hs.brackets, ← hpast.brackets]
      exact hb
    · intro hstart
      exact absurd (hpast.started.symm.trans hstart) Bool.false_ne_true
  have hpush : (opened.emit kind text left).tokens = s.tokens.push
      { kind, text := String.ofList text, line := opened.line, column := opened.column
        before := opened.skipped.reverse, margin := opened.level.text
        atEnd := opened.rest.isEmpty } := hpast.tokens ▸ rfl
  exact ⟨_, hstands, hpast.started, rfl, hpast.indents, hpush, rfl, hleft, hl.suffix hrest⟩

/-- A step of a scan before code reads the first token that the code spells. -/
theorem Stands.step {next : Step} (hs : s.Stands n) (h : Spells s.rest (x :: ts) fin)
    (hl : OneLine s.rest fin) (hstep : s.step = .ok next) :
    ∃ t token, next = .again t ∧ t.Stands (Lexeme.nest x n) ∧ t.atLineStart = false ∧
      t.blankLine = false ∧ t.indents = s.indents ∧ t.tokens = s.tokens.push token ∧
      token.lexeme = x ∧ Spells t.rest ts fin ∧ OneLine t.rest fin := by
  have hne : x :: ts ≠ [] := List.cons_ne_nil x ts
  cases steps_of_step hstep with
  | format hf => simp [Scan.formatStep, hs.frames] at hf
  | stop ho hr =>
    have hopen := (hs.opens h ho).2
    rw [hr] at hopen
    cases hopen
  | join ho hr =>
    have hopen := (hs.opens h ho).2
    rw [hr] at hopen
    exact absurd rfl (hopen.ne_of_cons (.inl hne)).2
  | lineEnd ho he =>
    obtain ⟨hpast, hopen⟩ := hs.opens h ho
    obtain ⟨c, rest, hr, hc, -⟩ := exists_lineEnd_of_takeLineEnd he
    have hg : isGapChar c = true := by simp [isGapChar, hc]
    have hline := hl.suffix (hpast.rest ▸ List.drop_suffix _ _)
    rw [hr] at hopen hline
    have hn := hline.not_lineEnd (hopen.of_gap hg (.inl hne)).leaves.1
    rw [hc] at hn
    contradiction
  | @code opened t c rest ho hr _ hc =>
    obtain ⟨hpast, hopen⟩ := hs.opens h ho
    obtain ⟨token, hcode⟩ := hpast.code hs hopen hl hr hc
    exact ⟨t, token, rfl, hcode⟩

/-- A run on a line reads the tokens that the line spells. -/
theorem Stands.run {fuel : Nat} {tokens : Array Token} (hs : s.Stands n) (h : Spells s.rest ts fin)
    (hl : OneLine s.rest fin) (hrun : s.run (ts.length + fuel) = .ok tokens) :
    ∃ (t : Scan) (read : List Token), t.run fuel = .ok tokens ∧ t.Stands (nesting n ts) ∧
      (ts ≠ [] ∨ s.atLineStart = false ∧ s.blankLine = false →
        t.atLineStart = false ∧ t.blankLine = false) ∧ t.indents = s.indents ∧
      t.tokens.toList = s.tokens.toList ++ read ∧ read.map Token.lexeme = ts ∧
      Spells t.rest [] fin ∧ OneLine t.rest fin := by
  -- A step leaves a scan that stands before the words that are left, so the next one applies to it.
  induction ts generalizing s n with
  | nil =>
    rw [List.length_nil, Nat.zero_add] at hrun
    exact ⟨s, [], hrun, hs, fun hne => hne.resolve_left (by simp), rfl, by simp, rfl, h, hl⟩
  | cons x ts ih =>
    rw [List.length_cons, Nat.add_right_comm, Scan.run] at hrun
    obtain ⟨next, hstep, hrun⟩ := bind_eq_ok.mp hrun
    obtain ⟨t, token, rfl, ht, hstart, hblank, hind, hpush, rfl, hspells, hline⟩ := hs.step h hl hstep
    obtain ⟨u, read, hu, hstands, hlater, hinds, hread, hmap, hrest⟩ := ih ht hspells hline hrun
    refine ⟨u, token :: read, hu, hstands, fun _ => hlater (.inr ⟨hstart, hblank⟩), hinds.trans hind,
      ?_, ?_, hrest⟩
    · rw [hread, hpush, Array.toList_push, List.append_assoc]
      rfl
    · rw [List.map_cons, hmap]

/-- Only blanks are left before the end of a line. -/
theorem drop_blanks (h : Spells cs [] fin) (hl : OneLine cs fin)
    (hf : ∀ c ∈ fin.head?, isLineEndChar c = true) : cs.drop (takeBlankChars cs).length = fin := by
  generalize hts : ([] : List Lexeme) = ts at h
  induction h with
  | @done fin =>
    cases fin with
    | nil => rfl
    | cons c fin =>
      have hc : (c == ' ' || c == '\t' || c == '\x0c') = false := by
        rcases Bool.or_eq_true_iff.mp (hf c rfl) with h | h
        all_goals
          obtain rfl := beq_iff_eq.mp h
          rfl
      simp [takeBlankChars, hc]
  | @gap c cs ts fin hg h ih =>
    have hn := hl.not_lineEnd h.leaves.1
    have hc : (c == ' ' || c == '\t' || c == '\x0c') = true := by
      simpa [isGapChar, hn] using hg
    have hh := ih (hl.suffix (List.suffix_cons c cs)) hf hts
    simpa [takeBlankChars, hc] using hh
  | _ => simp at hts

/-- In front of the end of a line, blanks are all that is passed over. -/
theorem opens_beforeLineEnd {rest : List Char} (hstart : s.atLineStart = false)
    (h : Spells s.rest [] fin) (hl : OneLine s.rest fin) (hfin : fin = c :: rest)
    (hc : isLineEndChar c = true) : s.Opens (skipBlanks s) ∧ (skipBlanks s).rest = fin := by
  have hhead : ∀ d ∈ fin.head?, isLineEndChar d = true := by
    intro d hd
    rw [hfin] at hd
    obtain rfl := Option.some.inj hd
    exact hc
  have hdrop := drop_blanks h hl hhead
  have hopens : s.Opens (skipBlanks s) := by
    refine opens_skipBlanks hstart fun d hd => ?_
    rintro rfl
    exact absurd (hhead '#' (hdrop ▸ hd)) (by decide)
  exact ⟨hopens, hopens.rest.trans hdrop⟩

/-- Outside brackets the end of a line is a token, and the next line starts. -/
theorem Opens.endLine {text : String} {after : List Char} (hopens : s.Opens opened) (hs : s.Stands 0)
    (hblank : s.blankLine = false) :
    ∃ token, (opened.endLine text.toList after).StartsLine s.indents after ∧
      (opened.endLine text.toList after).tokens = s.tokens.push token ∧
      token.lexeme = (.newline, text) := by
  have hb : opened.brackets = [] := by
    rw [hopens.brackets]
    exact List.length_eq_zero_iff.mp hs.brackets
  have hend : opened.endLine text.toList after =
      { opened.emit .newline text.toList after with atLineStart := true } := by
    rw [Scan.endLine, hopens.blankLine, hblank, hb]
    rfl
  have hpush : (opened.emit .newline text.toList after).tokens = s.tokens.push
      { kind := .newline, text := String.ofList text.toList, line := opened.line
        column := opened.column, before := opened.skipped.reverse
        margin := opened.level.text, atEnd := opened.rest.isEmpty } :=
    hopens.tokens ▸ rfl
  rw [hend]
  refine ⟨_, ⟨hopens.frames.trans hs.frames, hb, hopens.indents, rfl, rfl⟩, hpush, ?_⟩
  rw [Token.lexeme, String.ofList_toList]

theorem Stands.endLine {text : String} {after : List Char} {next : Step} (hs : s.Stands 0)
    (hstart : s.atLineStart = false) (hblank : s.blankLine = false) (h : Spells s.rest [] fin)
    (hl : OneLine s.rest fin) (he : takeLineEnd fin = some (text, after))
    (hstep : s.step = .ok next) :
    ∃ t token, next = .again t ∧ t.StartsLine s.indents after ∧ t.tokens = s.tokens.push token ∧
      token.lexeme = (.newline, text) := by
  obtain ⟨c, rest, hfin, hc, -⟩ := exists_lineEnd_of_takeLineEnd he
  obtain ⟨hopens, hrest⟩ := opens_beforeLineEnd hstart h hl hfin hc
  have hopened (opened : Scan) (ho : s.openToken = .ok opened) : opened = skipBlanks s := by
    rw [Scan.openToken, hstart] at ho
    exact (Except.ok.inj ho).symm
  cases steps_of_step hstep with
  | format hf => simp [Scan.formatStep, hs.frames] at hf
  | stop ho hr =>
    rw [hopened _ ho, hrest, hfin] at hr
    exact absurd hr (List.cons_ne_nil c rest)
  | join ho hr =>
    rw [hopened _ ho, hrest, hfin] at hr
    obtain ⟨rfl, -⟩ := List.cons.inj hr
    exact absurd hc (by decide)
  | @lineEnd opened found left ho hfound =>
    obtain rfl := hopened _ ho
    rw [hrest, he] at hfound
    obtain ⟨rfl, rfl⟩ := Prod.mk.inj (Option.some.inj hfound)
    obtain ⟨token, hnext⟩ := hopens.endLine hs hblank
    exact ⟨_, token, rfl, hnext⟩
  | code ho hr he' _ =>
    rw [hopened _ ho, hrest, he] at he'
    simp at he'

end Scan

/-- What the start of a text spells comes first among its tokens. -/
theorem starts_of_tokenize {cs fin : List Char} {ts : List Lexeme} {tokens : Array Token}
    (hs : Spells cs ts fin) (hl : OneLine cs fin) (hhead : ∀ c ∈ cs.head?, isGapChar c = false)
    (h : tokenize cs = .ok tokens) : ts <+: tokens.toList.map Token.lexeme := by
  have hsize := hs.leaves.2
  have hstands : ({ rest := cs, lacksLineEnd := cs.getLast? != some '\n' } : Scan).Stands 0 :=
    ⟨rfl, rfl, fun _ => ⟨rfl, hhead⟩⟩
  unfold tokenize at h
  dsimp only at h
  rw [show 2 * cs.length + 4 = ts.length + (2 * cs.length + 4 - ts.length) by omega] at h
  obtain ⟨t, read, ht, -, -, -, hread, rfl, -⟩ := hstands.run hs hl h
  obtain ⟨added, hadded, -⟩ := (Scan.adds_self t).run ht
  rw [hadded, hread]
  simp

/-- A line of code, its end, and what the next line starts with. -/
theorem starts_of_tokenize_line {cs fin after last : List Char} {text : String}
    {ts us : List Lexeme} {tokens : Array Token} (hs : Spells cs ts fin) (hne : ts ≠ [])
    (hl : OneLine cs fin) (hn : nesting 0 ts = 0) (hhead : ∀ c ∈ cs.head?, isGapChar c = false)
    (he : takeLineEnd fin = some (text, after)) (hafter : ∀ c ∈ after.head?, isGapChar c = false)
    (hs' : Spells after us last) (hl' : OneLine after last) (h : tokenize cs = .ok tokens) :
    ts ++ (.newline, text) :: us <+: tokens.toList.map Token.lexeme := by
  have hsize := hs.leaves.2
  have hsize' := hs'.leaves.2
  have hstands : ({ rest := cs, lacksLineEnd := cs.getLast? != some '\n' } : Scan).Stands 0 :=
    ⟨rfl, rfl, fun _ => ⟨rfl, hhead⟩⟩
  have hshort : after.length < fin.length := by
    obtain ⟨c, rest, rfl, -, hsuffix⟩ := exists_lineEnd_of_takeLineEnd he
    exact Nat.lt_succ_of_le hsuffix.length_le
  unfold tokenize at h
  dsimp only at h
  rw [show 2 * cs.length + 4 =
    ts.length + ((us.length + (2 * cs.length + 3 - ts.length - us.length)) + 1) by omega] at h
  obtain ⟨t, read, ht, hstands', hstart, hind, hread, hmap, hspells, hline⟩ := hstands.run hs hl h
  rw [hn] at hstands'
  obtain ⟨next, hstep, ht⟩ := bind_eq_ok.mp ht
  obtain ⟨u, token, rfl, hu, hpush, htoken⟩ :=
    hstands'.endLine (hstart (.inl hne)).1 (hstart (.inl hne)).2 hspells hline he hstep
  rw [hind] at hu
  have hnext := hu.stands hafter
  obtain rfl := hu.rest
  obtain ⟨v, read', hv, -, -, -, hread', hmap', -⟩ := hnext.run hs' hl' ht
  obtain ⟨added, hadded, -⟩ := (Scan.adds_self v).run hv
  rw [hadded, hread', hpush, Array.toList_push, hread]
  simp [hmap, hmap', htoken]

def Word.lexeme (w : Word) : Lexeme := (w.kind, w.text)

theorem map_lexeme_ofTokens (newline : String) (tokens : Array Token) :
    (Word.ofTokens newline tokens).toList.map Word.lexeme = tokens.toList.map Token.lexeme := by
  apply List.ext_getElem
  · simp [Word.ofTokens]
  · intro i hi hj
    simp [Word.ofTokens, Word.ofToken, Word.lexeme, Token.lexeme]

namespace Source

variable {s : Source} {text : List Char} {i : Nat} {x : Lexeme} {ts : List Lexeme}

/-- The word at a place. -/
def At (s : Source) (i : Nat) (x : Lexeme) : Prop := s.words[i]?.map Word.lexeme = some x

/-- The words from a place on. -/
def Follows (s : Source) (i : Nat) (ts : List Lexeme) : Prop :=
  ts <+: (s.words.toList.map Word.lexeme).drop i

theorem Follows.at (h : s.Follows i (x :: ts)) : s.At i x := by
  obtain ⟨rest, h⟩ := h
  have hx := congrArg (·[0]?) h
  simpa [At] using hx.symm

theorem Follows.tail (h : s.Follows i (x :: ts)) : s.Follows (i + 1) ts := by
  obtain ⟨rest, h⟩ := h
  refine ⟨rest, ?_⟩
  have ht := congrArg List.tail h
  simpa using ht

theorem Follows.drop {us : List Lexeme} (h : s.Follows i (ts ++ us)) : s.Follows (i + ts.length) us := by
  induction ts generalizing i with
  | nil => exact h
  | cons x ts ih =>
    have hh := ih h.tail
    rwa [show i + 1 + ts.length = i + (x :: ts).length by rw [List.length_cons]; omega] at hh

theorem lexText_eq_ok (h : lexText text = .ok s) :
    ∃ tokens, tokenize text = .ok tokens ∧
      s.words.toList.map Word.lexeme = tokens.toList.map Token.lexeme := by
  unfold lexText at h
  split at h
  · simp at h
  · rename_i tokens ht
    obtain rfl := Except.ok.inj h
    exact ⟨tokens, ht, map_lexeme_ofTokens _ _⟩

theorem follows_of_lexText (h : lexText text = .ok s)
    (hs : ∀ tokens, tokenize text = .ok tokens → ts <+: tokens.toList.map Token.lexeme) :
    s.Follows 0 ts := by
  obtain ⟨tokens, ht, hw⟩ := lexText_eq_ok h
  rw [Follows, List.drop_zero, hw]
  exact hs tokens ht

end Source

end Hydration.Syntax
