import Hydration.Literal
import Hydration.Proofs.Entries
import Hydration.Syntax.Expr
import Mathlib.Data.List.Basic
import Mathlib.Tactic.SplitIfs

/-! Values of literals. A quoted text stands for the text that it was made of, whatever this holds, and
an expression for a text, a number, a flag, a list or a table. -/

namespace Hydration.Text

def hexDigitValue? (c : Char) : Option Nat :=
  if '0' ≤ c ∧ c ≤ '9' then some (c.toNat - 48)
  else if 'a' ≤ c ∧ c ≤ 'f' then some (c.toNat - 87)
  else if 'A' ≤ c ∧ c ≤ 'F' then some (c.toNat - 55)
  else none

/-- The number that hexadecimal digits stand for, with the leading ones first. -/
def hexValue? (digits : List Char) : Option Nat :=
  digits.foldlM (fun n c => (hexDigitValue? c).map (16 * n + ·)) 0

/-- The character with a number. Numbers of surrogates have none. -/
def charOfHex? (digits : List Char) : Option Char := do
  let n ← hexValue? digits
  if n.isValidChar then some (Char.ofNat n) else none

def simpleEscape? : Char → Option Char
  | '\\' => some '\\'
  | '\'' => some '\''
  | '"' => some '"'
  | 'a' => some '\x07'
  | 'b' => some '\x08'
  | 't' => some '\t'
  | 'n' => some '\n'
  | 'v' => some '\x0b'
  | 'f' => some '\x0c'
  | 'r' => some '\r'
  | _ => none

/-- What stands behind an opening quote is read up to the closing one, with which the text must end.
Of the escapes those by octal digits and by names, and joined lines, are not read. -/
def unquoteFrom? (quote : Char) : List Char → Option (List Char)
  | [] => none
  | '\\' :: 'x' :: a :: b :: rest => do
    return (← charOfHex? [a, b]) :: (← unquoteFrom? quote rest)
  | '\\' :: 'u' :: a :: b :: c :: d :: rest => do
    return (← charOfHex? [a, b, c, d]) :: (← unquoteFrom? quote rest)
  | '\\' :: 'U' :: a :: b :: c :: d :: e :: f :: g :: h :: rest => do
    return (← charOfHex? [a, b, c, d, e, f, g, h]) :: (← unquoteFrom? quote rest)
  | '\\' :: c :: rest => do
    return (← simpleEscape? c) :: (← unquoteFrom? quote rest)
  | c :: rest =>
    if c = quote then if rest = [] then some [] else none
    else if c = '\n' ∨ c = '\r' then none
    else do return c :: (← unquoteFrom? quote rest)

/-- The text that a literal without a prefix stands for, in quotes of one character. -/
def unquote? (literal : String) : Option String :=
  match literal.toList with
  | [] => none
  | quote :: rest =>
    if quote = '\'' ∨ quote = '"' then (unquoteFrom? quote rest).map String.ofList else none

section Reading

variable {quote c : Char} {rest : List Char}

theorem hexDigitValue?_hexDigit (n : Nat) : hexDigitValue? (hexDigit n) = some (n % 16) := by
  have hdigit : ∀ d < 16, hexDigitValue? (Nat.digitChar d) = some d := by decide
  exact hdigit (n % 16) (Nat.mod_lt n (by decide))

theorem hexValue?_hexPadded (width : Nat) {n : Nat} (h : n < Nat.pow 16 width) :
    hexValue? (hexPadded width n) = some n := by
  induction width generalizing n with
  | zero =>
    obtain rfl : n = 0 := by simpa using h
    rfl
  | succ width ih =>
    have hn : n / 16 < Nat.pow 16 width := Nat.div_lt_of_lt_mul (by rwa [Nat.mul_comm])
    have hfront : (hexPadded width (n / 16)).foldlM
        (fun n c => (hexDigitValue? c).map (16 * n + ·)) 0 = some (n / 16) := ih hn
    rw [hexValue?, hexPadded, List.foldlM_append, hfront]
    simp only [Option.bind_eq_bind, Option.bind_some, List.foldlM_cons, List.foldlM_nil,
      hexDigitValue?_hexDigit, Option.map_some, Option.pure_def]
    rw [Nat.div_add_mod]

theorem charOfHex?_hexPadded (width : Nat) (h : c.toNat < Nat.pow 16 width) :
    charOfHex? (hexPadded width c.toNat) = some c := by
  have hvalid : c.toNat.isValidChar := c.valid
  rw [charOfHex?, hexValue?_hexPadded width h]
  simp only [Option.bind_eq_bind, Option.bind_some, hvalid, if_true, Char.ofNat_toNat]

theorem unquoteFrom?_plain (hb : c ≠ '\\') (hq : c ≠ quote) (hn : c ≠ '\n') (hr : c ≠ '\r') :
    unquoteFrom? quote (c :: rest) = (unquoteFrom? quote rest).map (c :: ·) := by
  rw [unquoteFrom?]
  · rw [if_neg hq, if_neg (not_or.mpr ⟨hn, hr⟩)]
    cases unquoteFrom? quote rest <;> rfl
  all_goals simp [hb]

theorem unquoteFrom?_simple {d : Char} (hd : simpleEscape? d = some c) :
    unquoteFrom? quote ('\\' :: d :: rest) = (unquoteFrom? quote rest).map (c :: ·) := by
  rw [unquoteFrom?]
  · rw [hd]
    cases unquoteFrom? quote rest <;> rfl
  all_goals
    intros
    subst_vars
    cases hd

theorem bind_charOfHex?_hexPadded (width : Nat) (h : c.toNat < Nat.pow 16 width) :
    (do return (← charOfHex? (hexPadded width c.toNat)) :: (← unquoteFrom? quote rest)) =
      (unquoteFrom? quote rest).map (c :: ·) := by
  rw [charOfHex?_hexPadded width h]
  cases unquoteFrom? quote rest <;> rfl

/-- A character is read back from its escape. -/
theorem unquoteFrom?_quoteEscape (hq : quote = '\'' ∨ quote = '"') (c : Char) (rest : List Char) :
    unquoteFrom? quote (quoteEscape quote c ++ rest) = (unquoteFrom? quote rest).map (c :: ·) := by
  unfold quoteEscape
  split_ifs with hown hn hr ht hp hx hu
  · refine unquoteFrom?_simple ?_
    rcases hq with rfl | rfl
    all_goals
      simp only [Bool.or_eq_true, beq_iff_eq] at hown
      rcases hown with rfl | rfl <;> rfl
  · obtain rfl := beq_iff_eq.mp hn
    exact unquoteFrom?_simple rfl
  · obtain rfl := beq_iff_eq.mp hr
    exact unquoteFrom?_simple rfl
  · obtain rfl := beq_iff_eq.mp ht
    exact unquoteFrom?_simple rfl
  · simp only [Bool.or_eq_true, beq_iff_eq, not_or] at hown hn hr
    exact unquoteFrom?_plain hown.2 hown.1 hn hr
  · exact bind_charOfHex?_hexPadded 2 hx
  · exact bind_charOfHex?_hexPadded 4 hu
  · have hvalid : c.toNat.isValidChar := c.valid
    have hwidth : Nat.pow 16 8 = 4294967296 := rfl
    exact bind_charOfHex?_hexPadded 8 (by unfold Nat.isValidChar at hvalid; omega)

/-- The quoted form of a text stands for the text, whatever it holds. -/
theorem unquote?_quoted (s : String) : unquote? (quoted s) = some s := by
  have hq : chooseQuote s.toList = '\'' ∨ chooseQuote s.toList = '"' := by
    unfold chooseQuote
    split
    · exact .inr rfl
    · exact .inl rfl
  have hbody (cs : List Char) : unquoteFrom? (chooseQuote s.toList)
      (cs.flatMap (quoteEscape (chooseQuote s.toList)) ++ [chooseQuote s.toList]) = some cs := by
    induction cs with
    | nil =>
      rw [List.flatMap_nil, List.nil_append]
      rcases hq with h | h <;> rw [h] <;> rfl
    | cons c cs ih =>
      rw [List.flatMap_cons, List.append_assoc, unquoteFrom?_quoteEscape hq, ih, Option.map_some]
  have hlist : (quoted s).toList = chooseQuote s.toList ::
      (s.toList.flatMap (quoteEscape (chooseQuote s.toList)) ++ [chooseQuote s.toList]) := by
    simp [quoted, quotedChars]
  unfold unquote?
  rw [hlist]
  simp only [hq, if_true, hbody, Option.map_some, String.ofList_toList]

end Reading

/-- The number that decimal digits stand for. -/
def decimalValue? (text : String) : Option Nat :=
  if text.toList.all Char.isDigit then some (Nat.ofDigitChars 10 text.toList 0) else none

theorem decimalValue?_toString (n : Nat) : decimalValue? (toString n) = some n := by
  have hdigits : (Nat.toDigits 10 n).all Char.isDigit = true := by
    rw [List.all_eq_true]
    exact fun d hd => Nat.isDigit_of_mem_toDigits (by decide) (by decide) hd
  rw [decimalValue?, Nat.toString_eq_ofList_toDigits, String.toList_ofList, hdigits, if_pos rfl,
    Nat.ofDigitChars_toDigits (by decide) (by decide)]

end Hydration.Text

namespace Hydration

namespace Literal

section Tables

variable {entries : List (String × Literal)} {key : String} {value : Literal}

theorem put_eq : put entries key value = Entries.put entries key value := by
  induction entries with
  | nil => rfl
  | cons entry entries ih =>
    obtain ⟨k, v⟩ := entry
    simp only [put, Entries.put, ih, beq_iff_eq]

theorem forall_mem_put {P : Literal → Prop} (h : ∀ entry ∈ entries, P entry.2) (hv : P value) :
    ∀ entry ∈ put entries key value, P entry.2 := by
  rw [put_eq]
  intro entry he
  rcases Entries.mem_of_mem_put he with rfl | he
  · exact hv
  · exact h entry he

end Tables

/-- The table that entries make when they are put in one after the other. -/
def putAll (entries added : List (String × Literal)) : List (String × Literal) :=
  added.foldl (fun entries (key, value) => put entries key value) entries

section PutAll

variable {entries added : List (String × Literal)} {name : String}

theorem putAll_of_nodup (h : ((entries ++ added).map Prod.fst).Nodup) :
    putAll entries added = entries ++ added := by
  induction added generalizing entries with
  | nil => exact (List.append_nil entries).symm
  | cons entry added ih =>
    obtain ⟨key, value⟩ := entry
    rw [List.append_cons] at h ⊢
    have hkey : key ∉ entries.map Prod.fst := by
      rw [List.map_append, List.map_append] at h
      have hfront := (List.nodup_append.mp h).1
      exact fun hm => (List.nodup_append.mp hfront).2.2 key hm key (List.mem_singleton_self key) rfl
    change putAll (put entries key value) added = _
    rw [put_eq, Entries.put_of_not_mem hkey]
    exact ih h

theorem nodup_putAll (h : (entries.map Prod.fst).Nodup) :
    ((putAll entries added).map Prod.fst).Nodup := by
  induction added generalizing entries with
  | nil => exact h
  | cons entry added ih =>
    obtain ⟨key, value⟩ := entry
    have hput : ((put entries key value).map Prod.fst).Nodup := by
      rw [put_eq]
      exact Entries.nodup_put h
    exact ih hput

theorem forall_mem_putAll {P : Literal → Prop} (h : ∀ entry ∈ entries, P entry.2)
    (ha : ∀ entry ∈ added, P entry.2) : ∀ entry ∈ putAll entries added, P entry.2 := by
  induction added generalizing entries with
  | nil => exact h
  | cons entry added ih =>
    obtain ⟨hv, ha⟩ := List.forall_mem_cons.mp ha
    exact ih (forall_mem_put h hv) ha

/-- Of the entries with one key the last counts. -/
theorem lookup_putAll :
    (putAll entries added).lookup name = (added.reverse.lookup name).or (entries.lookup name) := by
  induction added generalizing entries with
  | nil => rfl
  | cons entry added ih =>
    obtain ⟨key, value⟩ := entry
    change (putAll (put entries key value) added).lookup name = _
    rw [ih, put_eq, Entries.lookup_put, List.reverse_cons, List.lookup_append, Option.or_assoc]
    by_cases h : name = key
    · simp [h]
    · simp [List.lookup_cons, beq_false_of_ne h, h]

end PutAll

/-- No table of the literal has two entries with one key. -/
inductive Keyed : Literal → Prop where
  | text (value : String) : Keyed (.text value)
  | number (value : Nat) : Keyed (.number value)
  | flag (value : Bool) : Keyed (.flag value)
  | list {items : List Literal} (h : ∀ item ∈ items, item.Keyed) : Keyed (.list items)
  | table {entries : List (String × Literal)} (hn : (entries.map Prod.fst).Nodup)
      (h : ∀ entry ∈ entries, entry.2.Keyed) : Keyed (.table entries)

end Literal

namespace Syntax

def textOf? : Literal → Option String
  | .text value => some value
  | _ => none

mutual

/-- The value of an expression that is a literal. Expressions of other kinds have none, nor have texts
of several pieces. -/
def Expr.literal? : Expr → Option Literal
  | .string text => (Text.unquote? text).map .text
  | .number text => (Text.decimalValue? text).map .number
  | .name id =>
    if id = "True" then some (.flag true) else if id = "False" then some (.flag false) else none
  | .paren _ inner _ => inner.literal?
  | .list _ members _ => (itemLiterals? members).map .list
  | .dict _ members _ => (pairLiterals? members).map fun entries => .table (Literal.putAll [] entries)
  | _ => none

def itemLiterals? : List Member → Option (List Literal)
  | [] => some []
  | .item value _ :: rest => do return (← value.literal?) :: (← itemLiterals? rest)
  | _ => none

def pairLiterals? : List Member → Option (List (String × Literal))
  | [] => some []
  | .pair key _ value _ :: rest => do
    return (← textOf? (← key.literal?), ← value.literal?) :: (← pairLiterals? rest)
  | _ => none

end

end Syntax

end Hydration
