import Hydration.Literal
import Hydration.Proofs.Naming
import Hydration.Proofs.Spelling

/-! What the pieces of generated code spell: identifiers and dotted names, numbers, quoted texts and
whole literals. Each is read as it was meant, whatever stands behind it. -/

namespace Hydration.Syntax

open Hydration.Text

theorem mayStartWord_of_isIdentifierStart {c : Char} (h : isIdentifierStart c = true) :
    mayStartWord c = true := by
  by_cases hc : c.toNat < 128
  · simp only [isIdentifierStart, if_pos hc, Bool.or_eq_true] at h
    simp only [mayStartWord, Bool.or_eq_true]
    exact .inl h
  · simp [mayStartWord, Nat.le_of_not_lt hc]

theorem mayContinueWord_of_isIdentifierContinuation {c : Char}
    (h : isIdentifierContinuation c = true) : mayContinueWord c = true := by
  by_cases hc : c.toNat < 128
  · simp only [isIdentifierContinuation, if_pos hc, Char.isAlphanum, Bool.or_eq_true] at h
    simp only [mayContinueWord, mayStartWord, Bool.or_eq_true]
    tauto
  · simp [mayContinueWord, mayStartWord, Nat.le_of_not_lt hc]

theorem not_gap_of_mayContinueWord {c : Char} (h : mayContinueWord c = true) :
    isGapChar c = false := by
  by_contra hg
  simp only [Bool.not_eq_false, isGapChar, isLineEndChar, Bool.or_eq_true, beq_iff_eq,
    or_assoc] at hg
  rcases hg with rfl | rfl | rfl | rfl | rfl <;> exact absurd h (by decide)

theorem isQuote_of_mayContinueWord {c : Char} (h : mayContinueWord c = true) :
    isQuote c = false := by
  by_contra hq
  rcases Bool.or_eq_true_iff.mp (Bool.not_eq_false _ ▸ hq) with hq | hq
  all_goals
    obtain rfl := beq_iff_eq.mp hq
    exact absurd h (by decide)

theorem isAlpha_of_toLower {c d : Char} (hd : d.isAlpha = true) (h : c.toLower = d) :
    c.isAlpha = true := by
  by_cases hu : c.isUpper = true
  · exact Bool.or_eq_true_iff.mpr (.inl hu)
  · have hc : c.toLower = c := dif_neg fun hr => hu (decide_eq_true hr)
    rw [← hc, h]
    exact hd

theorem le_toNat_of_isAlpha {c : Char} (h : c.isAlpha = true) : 65 ≤ c.toNat := by
  rcases Bool.or_eq_true_iff.mp h with hu | hl
  · exact UInt32.le_iff_toNat_le.mp (of_decide_eq_true hu).1
  · have hle : 97 ≤ c.toNat :=
      UInt32.le_iff_toNat_le.mp (of_decide_eq_true (Bool.and_eq_true_iff.mp hl).1)
    omega

def isRawLetter (c : Char) : Bool := c == 'r' || c == 'R'

def joinsRawLetter (c : Char) : Bool := c.toLower == 'b' || c.toLower == 'f' || c.toLower == 't'

theorem isAlpha_of_isRawLetter {c : Char} (h : isRawLetter c = true) : c.isAlpha = true := by
  rcases Bool.or_eq_true_iff.mp h with h | h
  all_goals
    obtain rfl := beq_iff_eq.mp h
    rfl

theorem isAlpha_of_joinsRawLetter {c : Char} (h : joinsRawLetter c = true) : c.isAlpha = true := by
  simp only [joinsRawLetter, Bool.or_eq_true, beq_iff_eq, or_assoc] at h
  rcases h with h | h | h <;> exact isAlpha_of_toLower rfl h

/-- Only letters are taken for what stands before a quote. -/
theorem takeStringPrefix_letters (cs : List Char) :
    takeStringPrefix cs <+: cs ∧ ∀ c ∈ takeStringPrefix cs, c.isAlpha = true := by
  have hu {c : Char} (h : (c.toLower == 'u') = true) : c.isAlpha = true :=
    isAlpha_of_toLower rfl (beq_iff_eq.mp h)
  have hstands {c : Char} (h : (joinsRawLetter c || isRawLetter c || c.toLower == 'u') = true) :
      c.isAlpha = true := by
    simp only [Bool.or_eq_true, or_assoc] at h
    rcases h with h | h | h
    · exact isAlpha_of_joinsRawLetter h
    · exact isAlpha_of_isRawLetter h
    · exact hu h
  have hpair {a b : Char}
      (h : (joinsRawLetter a && isRawLetter b || isRawLetter a && joinsRawLetter b) = true) :
      a.isAlpha = true ∧ b.isAlpha = true := by
    simp only [Bool.or_eq_true, Bool.and_eq_true] at h
    rcases h with ⟨ha, hb⟩ | ⟨ha, hb⟩
    · exact ⟨isAlpha_of_joinsRawLetter ha, isAlpha_of_isRawLetter hb⟩
    · exact ⟨isAlpha_of_isRawLetter ha, isAlpha_of_joinsRawLetter hb⟩
  unfold takeStringPrefix
  dsimp only
  split
  · split
    · rename_i h
      simpa using hu h
    · split
      · rename_i h
        simpa using hpair h
      · split
        · rename_i h
          simpa using hstands h
        · simp
  · split
    · rename_i h
      simpa using hstands h
    · simp
  · simp

/-- No word or quote continues what stands before. -/
def Breaks (rest : List Char) : Prop :=
  ∀ c ∈ rest.head?, mayContinueWord c = false ∧ isQuote c = false

theorem takeWhile_word {w rest : List Char} (hw : ∀ c ∈ w, mayContinueWord c = true)
    (hb : Breaks rest) : (w ++ rest).takeWhile mayContinueWord = w ∧
      (w ++ rest).dropWhile mayContinueWord = rest := by
  have hr : rest.takeWhile mayContinueWord = [] ∧ rest.dropWhile mayContinueWord = rest := by
    cases rest with
    | nil => exact ⟨rfl, rfl⟩
    | cons c cs => simp [(hb c rfl).1]
  rw [List.takeWhile_append_of_pos hw, List.dropWhile_append_of_pos hw, hr.1, hr.2]
  exact ⟨List.append_nil w, rfl⟩

theorem startsString_word {w rest : List Char} (hw : ∀ c ∈ w, mayContinueWord c = true)
    (hb : Breaks rest) : startsString (w ++ rest) = false := by
  obtain ⟨⟨after, ha⟩, hl⟩ := takeStringPrefix_letters (w ++ rest)
  have hp : ∀ c ∈ takeStringPrefix (w ++ rest), mayContinueWord c = true := by
    intro c hc
    simp [mayContinueWord, mayStartWord, hl c hc]
  -- The letters belong to the word, so what follows them is part of it or the end of it.
  obtain ⟨tail, ht⟩ : ∃ tail, takeStringPrefix (w ++ rest) ++ tail = w := by
    refine ⟨after.takeWhile mayContinueWord, ?_⟩
    rw [← List.takeWhile_append_of_pos hp, ha, (takeWhile_word hw hb).1]
  have hd : (w ++ rest).drop (takeStringPrefix (w ++ rest)).length = tail ++ rest := by
    generalize takeStringPrefix (w ++ rest) = front at ht
    rw [← ht, List.append_assoc, List.drop_left]
  rw [startsString, hd]
  cases tail with
  | nil =>
    cases rest with
    | nil => rfl
    | cons c cs => exact (hb c rfl).2
  | cons c cs =>
    exact isQuote_of_mayContinueWord (hw c (ht ▸ List.mem_append_right _ List.mem_cons_self))

theorem spells_identifier {w : String} {rest : List Char} (hw : isIdentifier w = true)
    (hb : Breaks rest) : Spells (w.toList ++ rest) [wordLexeme w.toList] rest := by
  unfold isIdentifier at hw
  cases hl : w.toList with
  | nil => simp [hl, isIdentifierChars] at hw
  | cons c cs =>
    rw [hl] at hw
    simp only [isIdentifierChars, Bool.and_eq_true, List.all_eq_true] at hw
    have hs := mayStartWord_of_isIdentifierStart hw.1
    have hall : ∀ d ∈ c :: cs, mayContinueWord d = true := by
      refine List.forall_mem_cons.mpr ⟨by simp [mayContinueWord, hs], fun d hd => ?_⟩
      exact mayContinueWord_of_isIdentifierContinuation (hw.2 d hd)
    obtain ⟨ht, hd⟩ := takeWhile_word hall hb
    have hdone : Spells ((c :: cs ++ rest).dropWhile mayContinueWord) [] rest := by
      rw [hd]
      exact .done
    have hg := not_gap_of_mayContinueWord (hall c List.mem_cons_self)
    have hh := Spells.word hg hs (startsString_word hall hb) hdone
    change Spells (c :: cs ++ rest) [wordLexeme ((c :: cs ++ rest).takeWhile mayContinueWord)] rest at hh
    rwa [ht] at hh

def dottedLexemes (segments : List String) : List Lexeme :=
  (segments.map fun x => wordLexeme x.toList).intersperse (markLexeme '.')

theorem mark_then_word {d : Char} (h : mayStartWord d = true) :
    d ≠ '=' ∧ d ≠ '.' ∧ d.isDigit = false := by
  refine ⟨?_, ?_, ?_⟩
  · rintro rfl
    exact absurd h (by decide)
  · rintro rfl
    exact absurd h (by decide)
  · rw [Bool.eq_false_iff, ne_eq, Char.isDigit_iff_toNat]
    rintro ⟨-, hle⟩
    change d.toNat ≤ 57 at hle
    simp only [mayStartWord, Bool.or_eq_true, beq_iff_eq, decide_eq_true_eq] at h
    rcases h with (h | rfl) | h
    · have hge := le_toNat_of_isAlpha h
      omega
    · exact absurd hle (by decide)
    · omega

theorem mayStartWord_head {w : String} (hw : isIdentifier w = true) (rest : List Char) :
    ∀ d ∈ (w.toList ++ rest).head?, mayStartWord d = true := by
  unfold isIdentifier at hw
  cases hl : w.toList with
  | nil => simp [hl, isIdentifierChars] at hw
  | cons c cs =>
    rw [hl] at hw
    simp only [isIdentifierChars, Bool.and_eq_true] at hw
    rintro d ⟨⟩
    exact mayStartWord_of_isIdentifierStart hw.1

theorem mayStartWord_head_segments {segments : List String} (hne : segments ≠ [])
    (hs : ∀ x ∈ segments, isIdentifier x = true) (rest : List Char) :
    ∀ d ∈ ((".".intercalate segments).toList ++ rest).head?, mayStartWord d = true := by
  cases segments with
  | nil => exact absurd rfl hne
  | cons x segments =>
    have hx := hs x List.mem_cons_self
    cases segments with
    | nil =>
      rw [String.intercalate_singleton]
      exact mayStartWord_head hx rest
    | cons y segments =>
      rw [String.intercalate_cons_of_ne_nil (by simp)]
      simp only [String.toList_append, List.append_assoc]
      exact mayStartWord_head hx _

theorem spells_segments {segments : List String} {rest : List Char} (hne : segments ≠ [])
    (hs : ∀ x ∈ segments, isIdentifier x = true) (hb : Breaks rest) :
    Spells ((".".intercalate segments).toList ++ rest) (dottedLexemes segments) rest := by
  induction segments with
  | nil => exact absurd rfl hne
  | cons x segments ih =>
    have hx := hs x List.mem_cons_self
    cases segments with
    | nil => simpa [dottedLexemes] using spells_identifier hx hb
    | cons y segments =>
      have hr := fun z hz => hs z (List.mem_cons_of_mem x hz)
      have hhead := mayStartWord_head_segments (by simp) hr rest
      have hdot : Breaks ('.' :: ((".".intercalate (y :: segments)).toList ++ rest)) := by
        rintro d ⟨⟩
        decide
      rw [String.intercalate_cons_of_ne_nil (by simp)]
      simp only [String.toList_append, List.append_assoc]
      refine (spells_identifier hx hdot).append (.mark (.inl rfl) ?_ (ih (by simp) hr))
      exact fun d hd => mark_then_word (hhead d hd)

theorem spells_dotted {name : String} {rest : List Char} (hn : IsDotted name) (hb : Breaks rest) :
    Spells (name.toList ++ rest) (dottedLexemes (splitDots name)) rest := by
  have hh := spells_segments (splitDots_ne_nil name) hn hb
  rwa [intercalate_splitDots] at hh

/-- What may stand behind a value. -/
def Closes (rest : List Char) : Prop :=
  ∀ c ∈ rest.head?, c ∈ [',', ')', ']', '\x7d', '\n', '\r']

theorem closes_cons {c : Char} (hc : c ∈ [',', ')', ']', '\x7d', '\n', '\r']) (cs : List Char) :
    Closes (c :: cs) := by
  rintro d ⟨⟩
  exact hc

/-- What holds of the end of a text and of each of the marks holds of all that may stand behind. -/
@[elab_as_elim]
theorem Closes.elim {P : List Char → Prop} {rest : List Char} (h : Closes rest) (hnil : P [])
    (hcons : ∀ c cs, c = ',' ∨ c = ')' ∨ c = ']' ∨ c = '\x7d' ∨ c = '\n' ∨ c = '\r' → P (c :: cs)) :
    P rest := by
  cases rest with
  | nil => exact hnil
  | cons c cs => exact hcons c cs (by simpa using h c rfl)

theorem Closes.breaks {rest : List Char} (h : Closes rest) : Breaks rest := by
  intro c hc
  have hm := h c hc
  simp only [List.mem_cons, List.not_mem_nil, or_false] at hm
  rcases hm with rfl | rfl | rfl | rfl | rfl | rfl <;> decide

theorem Closes.then_mark {rest : List Char} (h : Closes rest) :
    ∀ c ∈ rest.head?, c ≠ '=' ∧ c ≠ '.' ∧ c.isDigit = false := by
  intro c hc
  have hm := h c hc
  simp only [List.mem_cons, List.not_mem_nil, or_false] at hm
  rcases hm with rfl | rfl | rfl | rfl | rfl | rfl <;> decide

theorem takeGrouped_digits {ds rest : List Char} (hd : ∀ d ∈ ds, d.isDigit = true)
    (hr : Closes rest) : takeGrouped Char.isDigit (ds ++ rest) = (ds, rest) := by
  induction ds with
  | nil =>
    refine hr.elim rfl fun c cs hc => ?_
    rcases hc with rfl | rfl | rfl | rfl | rfl | rfl <;> rfl
  | cons d ds ih =>
    have hdigit := hd d List.mem_cons_self
    have hn : d ≠ '_' := by
      rintro rfl
      exact absurd hdigit (by decide)
    have hh := ih fun e he => hd e (List.mem_cons_of_mem d he)
    simp [takeGrouped, hn, hdigit, hh]

theorem ne_zero_of_toDigits {n : Nat} {d : Char} {ds : List Char} (hn : 0 < n)
    (h : Nat.toDigits 10 n = d :: ds) : d ≠ '0' := by
  induction n using Nat.strongRecOn generalizing ds with
  | ind n ih =>
    by_cases hb : n < 10
    · rw [Nat.toDigits_of_lt_base hb] at h
      obtain ⟨rfl, -⟩ := List.cons.inj h
      have hc : ∀ k < 10, 0 < k → Nat.digitChar k ≠ '0' := by decide
      exact hc n hb hn
    · rw [Nat.toDigits_of_base_le (by decide) (by omega)] at h
      cases hq : Nat.toDigits 10 (n / 10) with
      | nil => exact absurd hq Nat.toDigits_ne_nil
      | cons e es =>
        rw [hq] at h
        obtain ⟨rfl, -⟩ := List.cons.inj h
        exact ih (n / 10) (by omega) (by omega) hq

theorem takeNumber_zero {rest : List Char} (hr : Closes rest) :
    takeNumber ('0' :: rest) = .ok (['0'], rest) := by
  refine hr.elim rfl fun c cs hc => ?_
  rcases hc with rfl | rfl | rfl | rfl | rfl | rfl <;> rfl

/-- Neither a fraction nor an exponent follows. -/
theorem takeAfterWhole_of_closes {rest : List Char} (hr : Closes rest) :
    takeAfterWhole rest = .ok ([], rest) := by
  refine hr.elim rfl fun c cs hc => ?_
  rcases hc with rfl | rfl | rfl | rfl | rfl | rfl <;> rfl

theorem takeDecimals_digits {d : Char} {ds rest : List Char}
    (hd : ∀ e ∈ d :: ds, e.isDigit = true) (hr : Closes rest) :
    takeDecimals (d :: ds ++ rest) = .ok (d :: ds, rest) := by
  obtain ⟨hdigit, hds⟩ := List.forall_mem_cons.mp hd
  have hg := takeGrouped_digits hds hr
  have hunder : rest.head? ≠ some '_' := by
    intro h
    exact absurd (hr '_' h) (by decide)
  simp [takeDecimals, hdigit, hg, hunder]

theorem takeNumber_toDigits (n : Nat) {rest : List Char} (hr : Closes rest) :
    takeNumber (Nat.toDigits 10 n ++ rest) = .ok (Nat.toDigits 10 n, rest) := by
  by_cases hn : n = 0
  · rw [hn, Nat.toDigits_zero]
    exact takeNumber_zero hr
  · have hdigits : ∀ d ∈ Nat.toDigits 10 n, d.isDigit = true := fun d hd =>
      Nat.isDigit_of_mem_toDigits (by decide) (by decide) hd
    cases hd : Nat.toDigits 10 n with
    | nil => exact absurd hd Nat.toDigits_ne_nil
    | cons d ds =>
      have hz := ne_zero_of_toDigits (Nat.pos_of_ne_zero hn) hd
      rw [hd] at hdigits
      have hwhole := takeDecimals_digits hdigits hr
      have hafter := takeAfterWhole_of_closes hr
      unfold takeNumber
      split
      iterate 7 exact absurd (List.cons.inj ‹_›).1 hz
      refine bind_eq_ok.mpr ⟨_, hwhole, bind_eq_ok.mpr ⟨_, hafter, ?_⟩⟩
      simp [pure, Except.pure]

theorem spells_number (n : Nat) {rest : List Char} (hr : Closes rest) :
    Spells (Nat.toDigits 10 n ++ rest) [(.number, toString n)] rest := by
  have hn := takeNumber_toDigits n hr
  have hdigits : ∀ d ∈ Nat.toDigits 10 n, d.isDigit = true := fun d hd =>
    Nat.isDigit_of_mem_toDigits (by decide) (by decide) hd
  rw [Nat.toString_eq_ofList_toDigits]
  cases hd : Nat.toDigits 10 n with
  | nil => exact absurd hd Nat.toDigits_ne_nil
  | cons d ds =>
    rw [hd] at hn hdigits
    have hdigit := hdigits d List.mem_cons_self
    have hc : mayContinueWord d = true := by simp [mayContinueWord, hdigit]
    have hw : mayStartWord d = false := by
      by_contra hw
      simp [(mark_then_word (Bool.not_eq_false _ ▸ hw)).2.2] at hdigit
    exact .number (not_gap_of_mayContinueWord hc) hw hdigit hn .done

/-- Characters that the reader of a text with the quote goes past. -/
def Passes (quote : Char) (piece : List Char) : Prop :=
  ∀ more body rest, takeStringBody quote false 0 more = .ok (body, rest) →
    takeStringBody quote false 0 (piece ++ more) = .ok (piece ++ body, rest)

section Passes

variable {q : Char}

theorem Passes.nil : Passes q [] := fun _ _ _ h => h

theorem Passes.append {front back : List Char} (hf : Passes q front) (hb : Passes q back) :
    Passes q (front ++ back) := by
  intro more body rest h
  rw [List.append_assoc, List.append_assoc]
  exact hf _ _ _ (hb _ _ _ h)

theorem Passes.escape {c : Char} (hc : c ≠ '\r') : Passes q ['\\', c] := by
  intro more body rest h
  simp [takeStringBody, hc, h, bind, Except.bind, pure, Except.pure]

theorem Passes.plain {c : Char} (hb : c ≠ '\\') (hq : c ≠ q) (hn : c ≠ '\n') (hr : c ≠ '\r') :
    Passes q [c] := by
  intro more body rest h
  simp [takeStringBody, hb, hq, hn, hr, h, bind, Except.bind, pure, Except.pure]

end Passes

theorem passes_hexPadded {q : Char} (hq : isQuote q = true) (width n : Nat) :
    Passes q (hexPadded width n) := by
  have hdigit : ∀ k < 16, Nat.digitChar k ≠ '\\' ∧ isQuote (Nat.digitChar k) = false ∧
      Nat.digitChar k ≠ '\n' ∧ Nat.digitChar k ≠ '\r' := by decide
  induction width generalizing n with
  | zero => exact .nil
  | succ width ih =>
    obtain ⟨hb, hnq, hn, hr⟩ := hdigit (n % 16) (Nat.mod_lt n (by decide))
    refine (ih (n / 16)).append (.plain hb ?_ hn hr)
    rintro rfl
    exact Bool.false_ne_true (hnq.symm.trans hq)

theorem passes_quoteEscape {q : Char} (hq : isQuote q = true) (c : Char) :
    Passes q (quoteEscape q c) := by
  have hex (mark : Char) (width : Nat) (hm : mark ≠ '\r') :
      Passes q ('\\' :: mark :: hexPadded width c.toNat) :=
    (Passes.escape hm).append (passes_hexPadded hq width c.toNat)
  unfold quoteEscape
  split
  · rename_i h
    refine .escape ?_
    rintro rfl
    rcases Bool.or_eq_true_iff.mp h with h | h
    · obtain rfl := beq_iff_eq.mp h
      exact absurd hq (by decide)
    · exact absurd h (by decide)
  · rename_i hqb
    simp only [Bool.or_eq_true, beq_iff_eq, not_or] at hqb
    split
    · exact .escape (by decide)
    · rename_i hn
      split
      · exact .escape (by decide)
      · rename_i hr
        split
        · exact .escape (by decide)
        · split
          · exact .plain hqb.2 hqb.1 (by simpa using hn) (by simpa using hr)
          · split
            · exact hex 'x' 2 (by decide)
            · split
              · exact hex 'u' 4 (by decide)
              · exact hex 'U' 8 (by decide)

theorem passes_flatMap {q : Char} (hq : isQuote q = true) (cs : List Char) :
    Passes q (cs.flatMap (quoteEscape q)) := by
  induction cs with
  | nil => exact .nil
  | cons c cs ih => exact (passes_quoteEscape hq c).append ih

theorem quoteEscape_head {q : Char} (hq : isQuote q = true) (c : Char) :
    ∃ d ds, quoteEscape q c = d :: ds ∧ d ≠ q := by
  have hb : '\\' ≠ q := by
    rintro rfl
    exact absurd hq (by decide)
  unfold quoteEscape
  split
  · exact ⟨_, _, rfl, hb⟩
  · rename_i hqb
    simp only [Bool.or_eq_true, beq_iff_eq, not_or] at hqb
    split_ifs
    all_goals first | exact ⟨_, _, rfl, hb⟩ | exact ⟨_, _, rfl, hqb.1⟩

theorem isQuote_chooseQuote (cs : List Char) : isQuote (chooseQuote cs) = true := by
  unfold chooseQuote
  split <;> rfl

theorem takeStringBody_quote {q : Char} (hq : isQuote q = true) (rest : List Char) :
    takeStringBody q false 0 (q :: rest) = .ok ([q], rest) := by
  rcases Bool.or_eq_true_iff.mp hq with h | h
  all_goals
    obtain rfl := beq_iff_eq.mp h
    rfl

/-- A quote behind an empty text would make the quotes three. -/
theorem startsTriple_quotedChars (cs : List Char) {rest : List Char}
    (hr : ∀ c ∈ rest.head?, isQuote c = false) :
    startsTriple (chooseQuote cs) (quotedChars cs ++ rest) = false := by
  have hq := isQuote_chooseQuote cs
  cases cs with
  | nil =>
    cases rest with
    | nil => rfl
    | cons c rest =>
      have hc : c ≠ chooseQuote [] := by
        rintro rfl
        exact absurd (hr _ rfl) (by decide)
      simp [startsTriple, quotedChars, hc]
  | cons c cs =>
    obtain ⟨d, ds, hd, hne⟩ := quoteEscape_head hq c
    simp [startsTriple, quotedChars, hd, hne]

/-- A quoted text is read as one string, whatever its characters are. -/
theorem takeString_quotedChars (cs : List Char) {rest : List Char}
    (hr : ∀ c ∈ rest.head?, isQuote c = false) :
    takeString (chooseQuote cs) (quotedChars cs ++ rest) = .ok (quotedChars cs, rest) := by
  have hq := isQuote_chooseQuote cs
  have hbody := passes_flatMap hq cs _ _ _ (takeStringBody_quote hq rest)
  have hdrop : (quotedChars cs ++ rest).drop 1 =
      cs.flatMap (quoteEscape (chooseQuote cs)) ++ chooseQuote cs :: rest := by
    simp [quotedChars]
  rw [takeString, startsTriple_quotedChars cs hr, if_neg Bool.false_ne_true, hdrop, hbody]
  rfl

theorem spells_quoted (cs : List Char) {rest : List Char}
    (hr : ∀ c ∈ rest.head?, isQuote c = false) :
    Spells (quotedChars cs ++ rest) [(.string, String.ofList (quotedChars cs))] rest :=
  .string (isQuote_chooseQuote cs) (takeString_quotedChars cs hr) .done

end Hydration.Syntax

namespace Hydration.Literal

open Syntax

mutual

def lexemes : Literal → List Lexeme
  | .text value => [(.string, Text.quoted value)]
  | .number value => [(.number, toString value)]
  | .flag value => [wordLexeme (if value then "True".toList else "False".toList)]
  | .list items => markLexeme '[' :: listLexemes items ++ [markLexeme ']']
  | .table entries => markLexeme '\x7b' :: tableLexemes entries ++ [markLexeme '\x7d']

def listLexemes : List Literal → List Lexeme
  | [] => []
  | [item] => item.lexemes
  | item :: next :: rest => item.lexemes ++ markLexeme ',' :: listLexemes (next :: rest)

def tableLexemes : List (String × Literal) → List Lexeme
  | [] => []
  | [(key, value)] => (.string, Text.quoted key) :: markLexeme ':' :: value.lexemes
  | (key, value) :: next :: rest =>
    (.string, Text.quoted key) :: markLexeme ':' :: value.lexemes ++
      markLexeme ',' :: tableLexemes (next :: rest)

end

theorem spells_comma {cs rest : List Char} {ts : List Lexeme} (h : Spells cs ts rest) :
    Spells (',' :: ' ' :: cs) (markLexeme ',' :: ts) rest := by
  refine .mark (.inr (.inl rfl)) ?_ (.gap rfl h)
  rintro d ⟨⟩
  decide

theorem spells_key (key : String) {cs rest : List Char} {ts : List Lexeme}
    (h : Spells cs ts rest) :
    Spells (Text.quotedChars key.toList ++ ':' :: ' ' :: cs)
      ((.string, Text.quoted key) :: markLexeme ':' :: ts) rest := by
  refine (spells_quoted key.toList ?_).append (.mark (.inr (.inr (.inl rfl))) ?_ (.gap rfl h))
  · rintro c ⟨⟩
    rfl
  · rintro d ⟨⟩
    decide

theorem spells_flag (value : Bool) {rest : List Char} (hr : Closes rest) :
    Spells ((flag value).chars ++ rest) (flag value).lexemes rest := by
  cases value with
  | true => exact spells_identifier (w := "True") (by decide) hr.breaks
  | false => exact spells_identifier (w := "False") (by decide) hr.breaks

mutual

theorem spells_chars (literal : Literal) {rest : List Char} (hr : Closes rest) :
    Spells (literal.chars ++ rest) literal.lexemes rest := by
  cases literal with
  | text value => exact spells_quoted value.toList fun c hc => (hr.breaks c hc).2
  | number value => exact spells_number value hr
  | flag value => exact spells_flag value hr
  | list items =>
    have hh := spells_listChars items (closes_cons (c := ']') (by decide) rest)
    simpa [chars, lexemes] using Spells.bracket rfl (hh.append (.bracket rfl .done))
  | table entries =>
    have hh := spells_tableChars entries (closes_cons (c := '\x7d') (by decide) rest)
    simpa [chars, lexemes] using Spells.bracket rfl (hh.append (.bracket rfl .done))

theorem spells_listChars (items : List Literal) {rest : List Char} (hr : Closes rest) :
    Spells (listChars items ++ rest) (listLexemes items) rest := by
  match items with
  | [] => exact .done
  | [item] => exact spells_chars item hr
  | item :: next :: items =>
    have hi := spells_chars item
      (closes_cons (c := ',') (by decide) (' ' :: listChars (next :: items) ++ rest))
    have hn := spells_listChars (next :: items) hr
    simpa [listChars, listLexemes] using hi.append (spells_comma hn)

theorem spells_tableChars (entries : List (String × Literal)) {rest : List Char}
    (hr : Closes rest) : Spells (tableChars entries ++ rest) (tableLexemes entries) rest := by
  match entries with
  | [] => exact .done
  | [(key, value)] =>
    have hv := spells_chars value hr
    simpa [tableChars, tableLexemes] using spells_key key hv
  | (key, value) :: next :: entries =>
    have hv := spells_chars value
      (closes_cons (c := ',') (by decide) (' ' :: tableChars (next :: entries) ++ rest))
    have hn := spells_tableChars (next :: entries) hr
    simpa [tableChars, tableLexemes] using spells_key key (hv.append (spells_comma hn))

end

end Hydration.Literal
