import Hydration.Proofs.Success
import Hydration.Syntax.Token.Lexer
import Hydration.Syntax.Word
import Mathlib.Data.List.TakeWhile

/-! The tokens that a scan takes for names are identifiers. Every reader of the scan adds at most
one kind of token, and only the reader of words adds names. -/

namespace Hydration.Syntax

open Hydration.Text

theorem isIdentifierStart_of_mayStartWord {c : Char} (hc : c.toNat < 128)
    (h : mayStartWord c = true) : isIdentifierStart c = true := by
  have hn : ¬ c.toNat ≥ 128 := by omega
  simpa [isIdentifierStart, mayStartWord, hc, hn] using h

theorem isIdentifierContinuation_of_mayContinueWord {c : Char} (hc : c.toNat < 128)
    (h : mayContinueWord c = true) : isIdentifierContinuation c = true := by
  have hn : ¬ c.toNat ≥ 128 := by omega
  simp only [mayContinueWord, mayStartWord, hn, decide_false, Bool.or_false, Bool.or_eq_true] at h
  simp only [isIdentifierContinuation, if_pos hc, Char.isAlphanum, Bool.or_eq_true]
  tauto

theorem isIdentifierChars_takeWhile {c : Char} {rest : List Char} (hs : mayStartWord c = true)
    (h : ((c :: rest).takeWhile mayContinueWord).all (·.toNat < 128) = true) :
    isIdentifierChars ((c :: rest).takeWhile mayContinueWord) = true := by
  have hw : (c :: rest).takeWhile mayContinueWord = c :: rest.takeWhile mayContinueWord := by
    simp [mayContinueWord, hs]
  rw [hw] at h ⊢
  simp only [List.all_cons, Bool.and_eq_true, decide_eq_true_eq, List.all_eq_true] at h
  simp only [isIdentifierChars, Bool.and_eq_true, List.all_eq_true]
  refine ⟨isIdentifierStart_of_mayStartWord h.1 hs, ?_⟩
  intro d hd
  exact isIdentifierContinuation_of_mayContinueWord (h.2 d hd) (List.mem_takeWhile_imp hd)

def Step.scan : Step → Scan
  | .again s => s
  | .done s => s

namespace Scan

variable {s t : Scan}

theorem indentTo_cases {level : IndentLevel} (h : s.indentTo level = .ok t) :
    t = s ∨ t = s.emitIndent level ∨ t = s.closeBlocks level.width s.indents.length := by
  unfold Scan.indentTo at h
  simp only at h
  split at h
  · split at h
    · exact .inl (Except.ok.inj h).symm
    · simp at h
  · split at h
    · split at h
      · simp at h
      · split at h
        · simp at h
        · split at h
          · simp at h
          · exact .inr (.inl (Except.ok.inj h).symm)
    · split at h
      · simp at h
      · split at h
        · simp at h
        · exact .inr (.inr (Except.ok.inj h).symm)

/-- The scan behind the indentation of a line. -/
def afterIndentation (s : Scan) : Scan :=
  { s.skip (takeIndentation s.rest {}).1.text (takeIndentation s.rest {}).2 with
    atLineStart := false }

theorem startLine_cases (h : s.startLine = .ok t) :
    t = { s.afterIndentation with blankLine := true } ∨ t = s.afterIndentation ∨
      s.afterIndentation.indentTo (takeIndentation s.rest {}).1 = .ok t := by
  unfold Scan.startLine at h
  simp only at h
  split at h
  · exact .inl (Except.ok.inj h).symm
  · split at h
    · exact .inl (Except.ok.inj h).symm
    · split at h
      · exact .inr (.inr h)
      · exact .inr (.inl (Except.ok.inj h).symm)

theorem openToken_cases (h : s.openToken = .ok t) :
    t = skipBlanks s ∨ ∃ opened, s.startLine = .ok opened ∧ t = skipBlanks opened := by
  unfold Scan.openToken at h
  split at h
  · cases hl : s.startLine with
    | error e => simp [hl, Except.map] at h
    | ok opened =>
      rw [hl] at h
      exact .inr ⟨opened, rfl, (Except.ok.inj h).symm⟩
  · exact .inl (Except.ok.inj h).symm

/-- What stands before a scan decides its step: a formatted string, the end of the text, a joined
line, the end of a line or code. -/
inductive Steps (s : Scan) : Step → Prop where
  | format {t : Scan} (h : s.formatStep = .ok (some t)) : Steps s (.again t)
  | stop {opened : Scan} (h : s.openToken = .ok opened) (hr : opened.rest = []) :
      Steps s opened.endText
  | join {opened t : Scan} {rest : List Char} (h : s.openToken = .ok opened)
      (hr : opened.rest = '\\' :: rest) (hj : opened.joinLine rest = .ok t) : Steps s (.again t)
  | lineEnd {opened : Scan} {text : String} {after : List Char} (h : s.openToken = .ok opened)
      (he : takeLineEnd opened.rest = some (text, after)) :
      Steps s (.again (opened.endLine text.toList after))
  | code {opened t : Scan} {c : Char} {rest : List Char} (h : s.openToken = .ok opened)
      (hr : opened.rest = c :: rest) (he : takeLineEnd opened.rest = none)
      (hc : opened.codeToken c rest = .ok t) : Steps s (.again t)

theorem steps_of_step {next : Step} (h : s.step = .ok next) : s.Steps next := by
  unfold Scan.step at h
  obtain ⟨found, hf, h⟩ := bind_eq_ok.mp h
  cases found with
  | some t =>
    obtain rfl := Except.ok.inj h
    exact .format hf
  | none =>
    obtain ⟨opened, ho, h⟩ := bind_eq_ok.mp h
    split at h
    · rename_i hr
      obtain rfl := Except.ok.inj h
      exact .stop ho hr
    · rename_i rest hr
      obtain ⟨joined, hj, h⟩ := bind_eq_ok.mp h
      obtain rfl := Except.ok.inj h
      exact .join ho hr hj
    · rename_i c rest _ hr
      split at h
      · rename_i he
        obtain rfl := Except.ok.inj h
        exact .lineEnd ho he
      · rename_i he
        obtain ⟨read, hc, h⟩ := bind_eq_ok.mp h
        obtain rfl := Except.ok.inj h
        exact .code ho hr he hc

/-- What a scan has added behind some tokens; the names in it are identifiers. -/
def Adds (front : List Token) (s : Scan) : Prop :=
  ∃ added, s.tokens.toList = front ++ added ∧
    ∀ t ∈ added, t.kind = .name → isIdentifier t.text = true

variable {front : List Token}

theorem adds_self (s : Scan) : s.Adds s.tokens.toList :=
  ⟨[], (List.append_nil _).symm, by simp⟩

theorem Adds.of_eq (hs : s.Adds front) (ht : t.tokens = s.tokens) : t.Adds front := by
  unfold Adds
  rw [ht]
  exact hs

theorem Adds.push {token : Token} (hs : s.Adds front) (ht : t.tokens = s.tokens.push token)
    (hk : token.kind = .name → isIdentifier token.text = true) : t.Adds front := by
  obtain ⟨added, he, hn⟩ := hs
  refine ⟨added ++ [token], by simp [ht, he], ?_⟩
  rw [List.forall_mem_append]
  exact ⟨hn, List.forall_mem_singleton.mpr hk⟩

theorem Adds.closeBlocks (hs : s.Adds front) (width fuel : Nat) :
    (s.closeBlocks width fuel).Adds front := by
  induction fuel generalizing s with
  | zero => exact hs
  | succ fuel ih =>
    unfold Scan.closeBlocks
    split
    · exact ih (hs.push rfl (by simp))
    · exact hs

theorem Adds.indentTo {level : IndentLevel} (hs : s.Adds front) (h : s.indentTo level = .ok t) :
    t.Adds front := by
  rcases indentTo_cases h with rfl | rfl | rfl
  · exact hs
  · exact hs.push rfl (by simp)
  · exact hs.closeBlocks _ _

theorem Adds.startLine (hs : s.Adds front) (h : s.startLine = .ok t) : t.Adds front := by
  have ha : s.afterIndentation.Adds front := hs.of_eq rfl
  rcases startLine_cases h with rfl | rfl | h
  · exact ha.of_eq rfl
  · exact ha
  · exact ha.indentTo h

theorem Adds.formatToken {frame : FormatFrame} {found : Option Scan} (hs : s.Adds front)
    (h : s.formatToken frame = .ok found) : ∀ t ∈ found, t.Adds front := by
  unfold Scan.formatToken at h
  simp only [bind_eq_ok] at h
  obtain ⟨⟨text, rest⟩, -, h⟩ := h
  split at h
  · obtain rfl := Except.ok.inj h
    rintro t ⟨⟩
    exact hs.push rfl (by simp)
  · split at h
    · obtain rfl := Except.ok.inj h
      rintro t ⟨⟩
      exact hs.push rfl (by simp)
    · obtain rfl := Except.ok.inj h
      simp

theorem Adds.word {c : Char} {rest : List Char} (hs : s.Adds front) (hr : s.rest = c :: rest)
    (hc : mayStartWord c = true) (h : s.word = .ok t) : t.Adds front := by
  unfold Scan.word at h
  simp only at h
  split at h
  · rename_i ht
    obtain rfl := Except.ok.inj h
    have hi : isIdentifierChars (s.rest.takeWhile mayContinueWord) = true := by
      rcases Bool.or_eq_true_iff.mp ht with ht | ht
      · rw [hr] at ht ⊢
        exact isIdentifierChars_takeWhile hc ht
      · exact ht
    exact hs.push rfl fun _ => by simpa [isIdentifier] using hi
  · simp at h

theorem Adds.wordOrString {c : Char} {rest : List Char} (hs : s.Adds front)
    (hr : s.rest = c :: rest) (hc : mayStartWord c = true) (h : s.wordOrString = .ok t) :
    t.Adds front := by
  unfold Scan.wordOrString at h
  simp only at h
  split at h
  · split at h
    · exact hs.word hr hc h
    · split at h
      · obtain rfl := Except.ok.inj h
        exact hs.push rfl (by simp)
      · simp only [bind_eq_ok] at h
        obtain ⟨⟨text, rest⟩, -, h⟩ := h
        obtain rfl := Except.ok.inj h
        exact hs.push rfl (by simp)
  · exact hs.word hr hc h

theorem tokens_mapFrame (s : Scan) (f : FormatFrame → FormatFrame) :
    (s.mapFrame f).tokens = s.tokens := by
  unfold Scan.mapFrame
  split <;> rfl

theorem Adds.mapFrame (hs : s.Adds front) (f : FormatFrame → FormatFrame) :
    (s.mapFrame f).Adds front :=
  hs.of_eq (tokens_mapFrame s f)

theorem Adds.openBracket (hs : s.Adds front) (c : Char) (rest : List Char) :
    (s.openBracket c rest).Adds front :=
  (hs.mapFrame FormatFrame.openBracket).push rfl (by simp)

theorem Adds.closeBracket {c : Char} {rest : List Char} (hs : s.Adds front)
    (h : s.closeBracket c rest = .ok t) : t.Adds front := by
  unfold Scan.closeBracket at h
  split at h
  · simp at h
  · split at h
    · obtain rfl := Except.ok.inj h
      exact (hs.mapFrame FormatFrame.closeBracket).push rfl (by simp)
    · simp at h

theorem Adds.skipBlanks (hs : s.Adds front) : (skipBlanks s).Adds front := by
  unfold Syntax.skipBlanks
  simp only
  split <;> exact hs.of_eq rfl

theorem Adds.finish (hs : s.Adds front) : s.finish.Adds front := by
  unfold Scan.finish
  split
  · exact hs.push rfl (by simp)
  · exact hs

theorem Adds.endLine (hs : s.Adds front) (text after : List Char) :
    (s.endLine text after).Adds front := by
  unfold Scan.endLine
  split
  · exact hs.of_eq rfl
  · exact hs.push rfl (by simp)

theorem Adds.joinLine {rest : List Char} (hs : s.Adds front) (h : s.joinLine rest = .ok t) :
    t.Adds front := by
  unfold Scan.joinLine at h
  split at h
  · split at h <;> simp at h
  · split at h
    · simp at h
    · obtain rfl := Except.ok.inj h
      exact hs.of_eq rfl

theorem Adds.codeToken {c : Char} {rest : List Char} (hs : s.Adds front) (hr : s.rest = c :: rest)
    (h : s.codeToken c rest = .ok t) : t.Adds front := by
  unfold Scan.codeToken at h
  split at h
  · rename_i hc
    exact hs.wordOrString hr hc h
  · split at h
    · obtain ⟨⟨text, rest⟩, -, h⟩ := bind_eq_ok.mp h
      obtain rfl := Except.ok.inj h
      exact hs.push rfl (by simp)
    · split at h
      · obtain ⟨⟨text, rest⟩, -, h⟩ := bind_eq_ok.mp h
        obtain rfl := Except.ok.inj h
        exact hs.push rfl (by simp)
      · split at h
        · obtain rfl := Except.ok.inj h
          exact hs.openBracket c rest
        · split at h
          · exact hs.closeBracket h
          · split at h
            · obtain rfl := Except.ok.inj h
              exact (hs.mapFrame _).push rfl (by simp)
            · split at h
              · obtain rfl := Except.ok.inj h
                exact hs.push rfl (by simp)
              · simp at h

theorem Adds.formatStep {found : Option Scan} (hs : s.Adds front) (h : s.formatStep = .ok found) :
    ∀ t ∈ found, t.Adds front := by
  unfold Scan.formatStep at h
  split at h
  · split at h
    · obtain rfl := Except.ok.inj h
      simp
    · exact hs.formatToken h
  · obtain rfl := Except.ok.inj h
    simp

theorem Adds.openToken (hs : s.Adds front) (h : s.openToken = .ok t) : t.Adds front := by
  rcases openToken_cases h with rfl | ⟨opened, ho, rfl⟩
  · exact hs.skipBlanks
  · exact (hs.startLine ho).skipBlanks

theorem Adds.endText (hs : s.Adds front) : s.endText.scan.Adds front := by
  unfold Scan.endText
  split
  · exact hs.finish
  · exact (hs.closeBlocks 0 s.indents.length).push rfl (by simp)

theorem Adds.step {next : Step} (hs : s.Adds front) (h : s.step = .ok next) :
    next.scan.Adds front := by
  cases steps_of_step h with
  | format hf => exact hs.formatStep hf _ rfl
  | stop ho => exact (hs.openToken ho).endText
  | join ho _ hj => exact (hs.openToken ho).joinLine hj
  | lineEnd ho => exact (hs.openToken ho).endLine _ _
  | code ho hr _ hc => exact (hs.openToken ho).codeToken hr hc

/-- What every step keeps holds of the scan that a run ends with. -/
theorem exists_scan_of_run {P : Scan → Prop} {tokens : Array Token} {fuel : Nat}
    (hstep : ∀ {s : Scan} {next : Step}, P s → s.step = .ok next → P next.scan) (hs : P s)
    (h : s.run fuel = .ok tokens) : ∃ t : Scan, P t ∧ t.tokens = tokens := by
  induction fuel generalizing s with
  | zero => exact ⟨s, hs, Except.ok.inj h⟩
  | succ fuel ih =>
    unfold Scan.run at h
    obtain ⟨next, hn, h⟩ := bind_eq_ok.mp h
    have hnext := hstep hs hn
    cases next with
    | again t => exact ih hnext h
    | done t => exact ⟨t, hnext, Except.ok.inj h⟩

/-- A run keeps the tokens that a scan has, and the names that it adds are identifiers. -/
theorem Adds.run {tokens : Array Token} {fuel : Nat} (hs : s.Adds front)
    (h : s.run fuel = .ok tokens) : ∃ added, tokens.toList = front ++ added ∧
      ∀ t ∈ added, t.kind = .name → isIdentifier t.text = true := by
  obtain ⟨t, ht, rfl⟩ := exists_scan_of_run (fun hs h => hs.step h) hs h
  exact ht

end Scan

theorem isIdentifier_of_tokenize {text : List Char} {tokens : Array Token}
    (h : tokenize text = .ok tokens) :
    ∀ t ∈ tokens, t.kind = .name → isIdentifier t.text = true := by
  obtain ⟨added, he, hn⟩ := (Scan.adds_self _).run h
  intro t ht
  refine hn t ?_
  rwa [← Array.mem_toList_iff, he] at ht

theorem isIdentifier_of_ofTokens {newline : String} {tokens : Array Token}
    (h : ∀ t ∈ tokens, t.kind = .name → isIdentifier t.text = true) :
    ∀ w ∈ Word.ofTokens newline tokens, w.kind = .name → isIdentifier w.text = true := by
  intro w hw hn
  obtain ⟨i, hi, rfl⟩ := Array.mem_mapIdx.mp hw
  exact h _ (Array.getElem_mem hi) hn

end Hydration.Syntax
