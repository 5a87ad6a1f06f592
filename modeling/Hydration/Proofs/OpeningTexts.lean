import Hydration.Proofs.Openings

/-! The texts of the statements that a constructor opens with. The text that registers the instance is
read as a call of the helper, and the text for an event as the assignment of one to its attribute. -/

namespace Hydration.Syntax

open Hydration.Syntax.Parser

def IsPlainDotted (name : String) : Prop := ∀ x ∈ splitDots name, IsPlainName x

instance : DecidablePred IsPlainDotted := fun _ => inferInstanceAs (Decidable (∀ _ ∈ _, _))

theorem IsPlainDotted.isDotted {name : String} (h : IsPlainDotted name) : IsDotted name :=
  fun x hx => (h x hx).1

def Unbroken (cs : List Char) : Prop := ∀ c ∈ cs, isLineEndChar c = false

theorem unbroken_append {cs ds : List Char} : Unbroken (cs ++ ds) ↔ Unbroken cs ∧ Unbroken ds :=
  List.forall_mem_append

theorem unbroken_cons {c : Char} {cs : List Char} :
    Unbroken (c :: cs) ↔ isLineEndChar c = false ∧ Unbroken cs :=
  List.forall_mem_cons

theorem unbroken_of_not_mem {cs : List Char} (hn : '\n' ∉ cs) (hr : '\r' ∉ cs) : Unbroken cs := by
  intro c hc
  have hcn : c ≠ '\n' := fun he => hn (he ▸ hc)
  have hcr : c ≠ '\r' := fun he => hr (he ▸ hc)
  simp [isLineEndChar, hcn, hcr]

theorem unbroken_identifier {name : String} (h : Text.isIdentifier name = true) :
    Unbroken name.toList :=
  unbroken_of_not_mem (not_mem_of_isIdentifier h (by decide) (by decide))
    (not_mem_of_isIdentifier h (by decide) (by decide))

theorem unbroken_dotted {name : String} (h : IsDotted name) : Unbroken name.toList := by
  have hmem {c : Char} (hc : c ≠ '.') (hs : Text.isIdentifierStart c = false)
      (hcont : Text.isIdentifierContinuation c = false) : c ∉ name.toList := by
    have hh := not_mem_intercalate hc fun x hx => not_mem_of_isIdentifier (h x hx) hs hcont
    rwa [intercalate_splitDots] at hh
  exact unbroken_of_not_mem (hmem (by decide) (by decide) (by decide))
    (hmem (by decide) (by decide) (by decide))

theorem unbroken_digits (n : Nat) : Unbroken (Nat.toDigits 10 n) := by
  intro c hc
  have hd := Nat.isDigit_of_mem_toDigits (by decide) (by decide) hc
  by_contra hn
  rcases Bool.or_eq_true_iff.mp (Bool.not_eq_false _ ▸ hn) with h | h
  all_goals
    obtain rfl := beq_iff_eq.mp h
    exact absurd hd (by decide)

theorem unbroken_hexPadded (width n : Nat) : Unbroken (Text.hexPadded width n) := by
  have hdigit : ∀ k < 16, isLineEndChar (Nat.digitChar k) = false := by decide
  induction width generalizing n with
  | zero => exact List.forall_mem_nil _
  | succ width ih =>
    refine unbroken_append.mpr ⟨ih (n / 16), unbroken_cons.mpr ⟨?_, List.forall_mem_nil _⟩⟩
    exact hdigit (n % 16) (Nat.mod_lt n (by decide))

/-- The quoted form of a text stands on one line, whatever the text holds. -/
theorem unbroken_quotedChars (cs : List Char) : Unbroken (Text.quotedChars cs) := by
  have hquote : isLineEndChar (Text.chooseQuote cs) = false := by
    unfold Text.chooseQuote
    split <;> rfl
  have hescape (c : Char) : Unbroken (Text.quoteEscape (Text.chooseQuote cs) c) := by
    have hnil : Unbroken [] := List.forall_mem_nil _
    have hpadded (d : Char) (hd : isLineEndChar d = false) (width : Nat) :
        Unbroken ('\\' :: d :: Text.hexPadded width c.toNat) :=
      unbroken_cons.mpr ⟨rfl, unbroken_cons.mpr ⟨hd, unbroken_hexPadded width c.toNat⟩⟩
    unfold Text.quoteEscape
    split_ifs with hown hn hr ht hp hx hu
    · refine unbroken_cons.mpr ⟨rfl, unbroken_cons.mpr ⟨?_, hnil⟩⟩
      rcases Bool.or_eq_true_iff.mp hown with h | h
      · rw [beq_iff_eq.mp h]
        exact hquote
      · rw [beq_iff_eq.mp h]
        rfl
    · exact unbroken_of_not_mem (by decide) (by decide)
    · exact unbroken_of_not_mem (by decide) (by decide)
    · exact unbroken_of_not_mem (by decide) (by decide)
    · refine unbroken_cons.mpr ⟨?_, hnil⟩
      simpa [isLineEndChar] using And.intro hn hr
    · exact hpadded 'x' rfl 2
    · exact hpadded 'u' rfl 4
    · exact hpadded 'U' rfl 8
  refine unbroken_cons.mpr ⟨hquote, unbroken_append.mpr ⟨?_, ?_⟩⟩
  · intro c hc
    obtain ⟨d, -, hd⟩ := List.mem_flatMap.mp hc
    exact hescape d c hd
  · exact unbroken_cons.mpr ⟨hquote, List.forall_mem_nil _⟩

/-- An argument as it is written in a generated statement. -/
inductive Argument where
  | name (id : String)
  | text (value : String)
  | number (n : Nat)

namespace Argument

def chars : Argument → List Char
  | name id => id.toList
  | text value => Text.quotedChars value.toList
  | number n => Nat.toDigits 10 n

def lexeme : Argument → Lexeme
  | name id => (.name, id)
  | text value => (.string, Text.quoted value)
  | number n => (.number, toString n)

def expr : Argument → Expr
  | name id => .name id
  | text value => .string (Text.quoted value)
  | number n => .number (toString n)

def IsPlain : Argument → Prop
  | name id => IsPlainName id
  | text _ => True
  | number _ => True

variable {a : Argument} {as : List Argument} {rest : List Char}

theorem operand (h : a.IsPlain) : Operand a.lexeme a.expr := by
  cases a with
  | name id => exact .name h
  | text value => exact .string value
  | number n => exact .number n

theorem operands (h : ∀ a ∈ as, a.IsPlain) :
    List.Forall₂ Operand (as.map lexeme) (as.map expr) :=
  List.forall₂_map_left_iff.mpr (List.forall₂_map_right_iff.mpr
    (List.forall₂_same.mpr fun a ha => operand (h a ha)))

theorem spells (h : a.IsPlain) (hr : Closes rest) : Spells (a.chars ++ rest) [a.lexeme] rest := by
  cases a with
  | name id =>
    have hs := spells_identifier h.1 hr.breaks
    rwa [wordLexeme_of_plain h] at hs
  | text value => exact spells_quoted value.toList fun c hc => (hr.breaks c hc).2
  | number n => exact spells_number n hr

theorem unbroken (h : a.IsPlain) : Unbroken a.chars := by
  cases a with
  | name id => exact unbroken_identifier h.1
  | text value => exact unbroken_quotedChars value.toList
  | number n => exact unbroken_digits n

theorem nest_lexeme (a : Argument) (n : Nat) : a.lexeme.nest n = n := by
  cases a <;> rfl

end Argument

def argumentChars : List Argument → List Char
  | [] => [')']
  | a :: as => ',' :: ' ' :: (a.chars ++ argumentChars as)

def callChars (func : String) (a : Argument) (as : List Argument) : List Char :=
  func.toList ++ '(' :: (a.chars ++ argumentChars as)

section Calls

variable {func root newline : String} {segments : List String} {a : Argument} {as : List Argument}
  {code rest : List Char} {ts : List Lexeme} {s : Source}

theorem closes_argumentChars (as : List Argument) (rest : List Char) :
    Closes (argumentChars as ++ rest) := by
  cases as with
  | nil => exact closes_cons (c := ')') (by decide) _
  | cons a as => exact closes_cons (c := ',') (by decide) _

theorem spells_argumentChars (h : ∀ a ∈ as, a.IsPlain) (rest : List Char) :
    Spells (argumentChars as ++ rest) (argumentLexemes (as.map Argument.lexeme)) rest := by
  induction as with
  | nil => exact .bracket rfl .done
  | cons a as ih =>
    obtain ⟨ha, has⟩ := List.forall_mem_cons.mp h
    have hh := (Argument.spells ha (closes_argumentChars as rest)).append (ih has)
    rw [← List.append_assoc] at hh
    exact Literal.spells_comma hh

theorem unbroken_argumentChars (h : ∀ a ∈ as, a.IsPlain) : Unbroken (argumentChars as) := by
  induction as with
  | nil => exact unbroken_of_not_mem (by decide) (by decide)
  | cons a as ih =>
    obtain ⟨ha, has⟩ := List.forall_mem_cons.mp h
    refine unbroken_cons.mpr ⟨rfl, unbroken_cons.mpr ⟨rfl, ?_⟩⟩
    exact unbroken_append.mpr ⟨Argument.unbroken ha, ih has⟩

theorem spells_callChars (hsplit : splitDots func = root :: segments) (hf : IsPlainDotted func)
    (ha : ∀ b ∈ a :: as, b.IsPlain) (rest : List Char) :
    Spells (callChars func a as ++ rest)
      (callLexemes root segments a.lexeme (as.map Argument.lexeme)) rest := by
  obtain ⟨ha, has⟩ := List.forall_mem_cons.mp ha
  have hb : Breaks ('(' :: (a.chars ++ argumentChars as) ++ rest) := by
    rintro d ⟨⟩
    decide
  have hname := spells_dotted hf.isDotted hb
  rw [hsplit, dottedLexemes_eq (hsplit ▸ hf)] at hname
  have hargs := (Argument.spells ha (closes_argumentChars as rest)).append
    (spells_argumentChars has rest)
  rw [← List.append_assoc] at hargs
  have hh := hname.append (.bracket (c := '(') rfl hargs)
  rw [← List.append_assoc] at hh
  exact hh

theorem unbroken_callChars (hf : IsPlainDotted func) (ha : ∀ b ∈ a :: as, b.IsPlain) :
    Unbroken (callChars func a as) := by
  obtain ⟨ha, has⟩ := List.forall_mem_cons.mp ha
  refine unbroken_append.mpr ⟨unbroken_dotted hf.isDotted, unbroken_cons.mpr ⟨rfl, ?_⟩⟩
  exact unbroken_append.mpr ⟨Argument.unbroken ha, unbroken_argumentChars has⟩

theorem nesting_append (n : Nat) (ts us : List Lexeme) :
    nesting n (ts ++ us) = nesting (nesting n ts) us :=
  List.foldl_append

theorem nesting_dottedTail (n : Nat) (segments : List String) : nesting n (dottedTail segments) = n := by
  induction segments with
  | nil => rfl
  | cons x segments ih => exact ih

theorem nesting_argumentLexemes (n : Nat) (as : List Argument) :
    nesting (n + 1) (argumentLexemes (as.map Argument.lexeme)) = n := by
  induction as with
  | nil => rfl
  | cons a as ih =>
    change nesting (a.lexeme.nest ((markLexeme ',').nest (n + 1))) _ = n
    rw [a.nest_lexeme]
    exact ih

/-- Every bracket of a call is closed. -/
theorem nesting_callLexemes (n : Nat) (root : String) (segments : List String) (a : Argument)
    (as : List Argument) :
    nesting n (callLexemes root segments a.lexeme (as.map Argument.lexeme)) = n := by
  change nesting n (dottedTail segments ++ markLexeme '(' :: a.lexeme :: _) = n
  rw [nesting_append, nesting_dottedTail]
  change nesting (a.lexeme.nest ((markLexeme '(').nest n)) _ = n
  rw [a.nest_lexeme]
  exact nesting_argumentLexemes n as

theorem closes_newline_append (hn : newline ∈ ["\n", "\r\n", "\r"]) (rest : List Char) :
    Closes (newline.toList ++ rest) := by
  simp only [List.mem_cons, List.not_mem_nil, or_false] at hn
  rcases hn with rfl | rfl | rfl <;> simp [Closes]

theorem takeLineEnd_append {rest : List Char} (hn : newline ∈ ["\n", "\r\n", "\r"])
    (hr : ∀ c ∈ rest.head?, c ≠ '\n') :
    takeLineEnd (newline.toList ++ rest) = some (newline, rest) := by
  simp only [List.mem_cons, List.not_mem_nil, or_false] at hn
  rcases hn with rfl | rfl | rfl
  · rfl
  · rfl
  · cases rest with
    | nil => rfl
    | cons c rest =>
      have hc : c ≠ '\n' := hr c rfl
      simp [takeLineEnd, hc]

/-- A line of code that spells some words. -/
structure IsLine (code : List Char) (ts : List Lexeme) : Prop where
  spells : ∀ rest, Closes rest → Spells (code ++ rest) ts rest
  starts : ∀ rest, ∀ c ∈ (code ++ rest).head?, isGapChar c = false
  unbroken : Unbroken code
  closed : nesting 0 ts = 0
  some_word : ts ≠ []

theorem IsLine.follows (h : IsLine code ts) (hn : newline ∈ ["\n", "\r\n", "\r"])
    (hs : lexText (code ++ newline.toList) = .ok s) : s.Follows 0 (ts ++ [(.newline, newline)]) := by
  refine Source.follows_of_lexText hs fun tokens ht => ?_
  rw [← List.append_nil newline.toList] at ht
  exact starts_of_tokenize_line (h.spells _ (closes_newline_append hn [])) h.some_word
    (oneLine_of_code h.unbroken) h.closed (h.starts _) (takeLineEnd_append hn nofun)
    (fun _ hc => by simp at hc) .done (Nat.le_refl _) ht

theorem isLine_callChars (hsplit : splitDots func = root :: segments) (hf : IsPlainDotted func)
    (ha : ∀ b ∈ a :: as, b.IsPlain) :
    IsLine (callChars func a as) (callLexemes root segments a.lexeme (as.map Argument.lexeme)) where
  spells rest _ := spells_callChars hsplit hf ha rest
  starts rest c hc := by
    have hhead := mayStartWord_head_segments (splitDots_ne_nil func) hf.isDotted
      ('(' :: (a.chars ++ argumentChars as) ++ rest)
    rw [intercalate_splitDots, ← List.append_assoc] at hhead
    exact not_gap_of_mayContinueWord (by simp [mayContinueWord, hhead c hc])
  unbroken := unbroken_callChars hf ha
  closed := nesting_callLexemes 0 root segments a as
  some_word := List.cons_ne_nil _ _

/-- The text of an assignment to an attribute, up to its value. -/
def assignedChars (receiver attr : String) (value : List Char) : List Char :=
  receiver.toList ++ '.' :: (attr.toList ++ ' ' :: '=' :: ' ' :: value)

def assignedLexemes (receiver attr : String) (value : List Lexeme) : List Lexeme :=
  (.name, receiver) :: markLexeme '.' :: (.name, attr) :: markLexeme '=' :: value

theorem isLine_assignedChars {receiver attr : String} (hr : IsPlainName receiver)
    (ha : IsPlainName attr) (h : IsLine code ts) :
    IsLine (assignedChars receiver attr code) (assignedLexemes receiver attr ts) where
  spells rest hrest := by
    have hvalue : Spells (' ' :: '=' :: ' ' :: code ++ rest) (markLexeme '=' :: ts) rest := by
      refine .gap rfl (.mark (.inr (.inr (.inr (.inl rfl)))) ?_ (.gap rfl (h.spells rest hrest)))
      rintro d ⟨⟩
      decide
    have hspace : Breaks (' ' :: '=' :: ' ' :: code ++ rest) := by
      rintro d ⟨⟩
      decide
    have hattr := spells_identifier ha.1 hspace
    rw [wordLexeme_of_plain ha] at hattr
    have hdot : Breaks ('.' :: (attr.toList ++ ' ' :: '=' :: ' ' :: code) ++ rest) := by
      rintro d ⟨⟩
      decide
    have hreceiver := spells_identifier hr.1 hdot
    rw [wordLexeme_of_plain hr] at hreceiver
    have hmark := hattr.append hvalue
    rw [← List.append_assoc] at hmark
    have hh := hreceiver.append (.mark (.inl rfl) (fun d hd => ?_) hmark)
    · rw [← List.append_assoc] at hh
      exact hh
    · rw [List.append_eq, List.append_assoc] at hd
      exact mark_then_word (mayStartWord_head ha.1 _ d hd)
  starts rest c hc := by
    rw [assignedChars, List.append_assoc] at hc
    exact not_gap_of_mayContinueWord (by simp [mayContinueWord, mayStartWord_head hr.1 _ c hc])
  unbroken := by
    refine unbroken_append.mpr ⟨unbroken_identifier hr.1, unbroken_cons.mpr ⟨rfl, ?_⟩⟩
    refine unbroken_append.mpr ⟨unbroken_identifier ha.1, ?_⟩
    exact unbroken_cons.mpr ⟨rfl, unbroken_cons.mpr ⟨rfl, unbroken_cons.mpr ⟨rfl, h.unbroken⟩⟩⟩
  closed := h.closed
  some_word := List.cons_ne_nil _ _

theorem isCall_of_parse {text : String} {stmt : Stmt} (hf : IsPlainDotted func)
    (ha : ∀ b ∈ a :: as, b.IsPlain) (hn : newline ∈ ["\n", "\r\n", "\r"])
    (htext : text.toList = callChars func a as ++ newline.toList) (h : Stmt.parse text = .ok stmt) :
    stmt.IsLineOf (Small.IsCall (splitDots func) ((a :: as).map Argument.expr)) := by
  obtain ⟨root, segments, hsplit⟩ := List.exists_cons_of_ne_nil (splitDots_ne_nil func)
  have hs : ∀ z ∈ root :: segments, IsPlainName z := hsplit ▸ hf
  have hline := isLine_callChars hsplit hf ha
  refine holds_of_parse h fun s hsource depth _ => ?_
  rw [htext] at hsource
  obtain ⟨ha, has⟩ := List.forall_mem_cons.mp ha
  rw [hsplit]
  exact (reads_callLine rfl rfl rfl hs (Argument.operand ha) (Argument.operands has)
    (hline.follows hn hsource) ⟨rfl, hn⟩).only

theorem assignsCall_of_parse {text receiver attr : String} {stmt : Stmt}
    (hr : IsPlainName receiver) (hattr : IsPlainName attr) (hf : IsPlainDotted func)
    (ha : ∀ b ∈ a :: as, b.IsPlain) (hn : newline ∈ ["\n", "\r\n", "\r"])
    (htext : text.toList = assignedChars receiver attr (callChars func a as) ++ newline.toList)
    (h : Stmt.parse text = .ok stmt) :
    stmt.IsLineOf
      (Small.AssignsCall receiver attr (splitDots func) ((a :: as).map Argument.expr)) := by
  obtain ⟨root, segments, hsplit⟩ := List.exists_cons_of_ne_nil (splitDots_ne_nil func)
  have hs : ∀ z ∈ root :: segments, IsPlainName z := hsplit ▸ hf
  have hline := isLine_assignedChars hr hattr (isLine_callChars hsplit hf ha)
  refine holds_of_parse h fun s hsource depth _ => ?_
  rw [htext] at hsource
  obtain ⟨ha, has⟩ := List.forall_mem_cons.mp ha
  rw [hsplit]
  exact (reads_assignLine rfl rfl rfl hr hattr hs (Argument.operand ha) (Argument.operands has)
    (hline.follows hn hsource) ⟨rfl, hn⟩).only

end Calls

end Hydration.Syntax

namespace Hydration.Transform

open Syntax

section Lines

variable {plan : Plan} {receiver : String} {stmt : Stmt}

theorem isPlainName_hostName : IsPlainName hostName := by decide

/-- The line for the instance is a call with the receiver and the host. -/
theorem isCall_registerLine (hr : IsPlainName receiver) (hf : IsPlainDotted plan.helpers.register)
    (hn : plan.style.newline ∈ ["\n", "\r\n", "\r"])
    (h : Stmt.parse (s!"{plan.helpers.register}({receiver}, {hostName})" ++ plan.style.newline) =
      .ok stmt) :
    stmt.IsLineOf (Small.IsCall (splitDots plan.helpers.register)
      [.name receiver, .name hostName]) := by
  have hargs : ∀ a ∈ [Argument.name receiver, .name hostName], a.IsPlain :=
    List.forall_mem_cons.mpr ⟨hr, List.forall_mem_singleton.mpr isPlainName_hostName⟩
  refine isCall_of_parse hf hargs hn ?_ h
  rw [String.toList_append, toList_registerLine]
  rfl

/-- The line for an event gives its attribute an emitter. -/
theorem assignsCall_eventLine {e : EventSpec} (hr : IsPlainName receiver)
    (he : IsPlainName e.emitter) (hf : IsPlainDotted plan.helpers.createEvent)
    (hn : plan.style.newline ∈ ["\n", "\r\n", "\r"])
    (h : Stmt.parse (eventLine plan.helpers receiver e ++ plan.style.newline) = .ok stmt) :
    stmt.IsLineOf (Small.AssignsCall receiver e.emitter (splitDots plan.helpers.createEvent)
      [.name receiver, .string (Text.quoted e.name), .number (toString e.flags)]) := by
  have hargs : ∀ a ∈ [Argument.name receiver, .text e.name, .number e.flags], a.IsPlain :=
    List.forall_mem_cons.mpr ⟨hr, List.forall_mem_cons.mpr
      ⟨trivial, List.forall_mem_singleton.mpr trivial⟩⟩
  refine assignsCall_of_parse hr he hf hargs hn ?_ h
  rw [String.toList_append, toList_eventLine]
  rfl

end Lines

end Hydration.Transform
