import Hydration.Data

/-! Reading JSON. The words for numbers that no JSON number can express, `NaN` and the infinities,
are read too. A text that is no JSON is refused with the place where reading stopped. -/

namespace Hydration.Json

inductive Problem where
  | byteOrderMark
  | missingValue
  | missingKey
  | missingColon
  | missingComma
  | extraText
  | controlCharacter
  | unterminated
  | badEscape
  | badHexEscape
deriving Repr, DecidableEq

def Problem.message : Problem → String
  | .byteOrderMark => "Unexpected UTF-8 BOM (decode using utf-8-sig)"
  | .missingValue => "Expecting value"
  | .missingKey => "Expecting property name enclosed in double quotes"
  | .missingColon => "Expecting ':' delimiter"
  | .missingComma => "Expecting ',' delimiter"
  | .extraText => "Extra data"
  | .controlCharacter => "Invalid control character at"
  | .unterminated => "Unterminated string starting at"
  | .badEscape => "Invalid \\escape"
  | .badHexEscape => "Invalid \\uXXXX escape"

/-- Why reading stopped: a problem, with the number of characters left there, a whole number with
too many digits, or half of a surrogate pair by itself, which no text here can hold. -/
inductive Stop where
  | problem (kind : Problem) (left : Nat)
  | hugeNumber (digits : Nat)
  | halfPair
deriving Repr, DecidableEq

inductive JsonError where
  | problem (kind : Problem) (line column position : Nat)
  | hugeNumber (digits : Nat)
  | halfPair
deriving Repr, DecidableEq

def JsonError.message : JsonError → String
  | .problem kind line column position =>
    s!"{kind.message}: line {line} column {column} (char {position})"
  | .hugeNumber digits =>
    "Exceeds the limit (4300 digits) for integer string conversion: value has " ++
      s!"{digits} digits; use sys.set_int_max_str_digits() to increase the limit"
  | .halfPair => "half of a surrogate pair"

abbrev Reading (α : Type) := Except Stop (α × List Char)

def stopAt (kind : Problem) (cs : List Char) : Except Stop α := .error (.problem kind cs.length)

def isBlank (c : Char) : Bool := c == ' ' || c == '\t' || c == '\n' || c == '\r'

def dropBlanks (cs : List Char) : List Char := cs.dropWhile isBlank

def hexValue? (c : Char) : Option Nat :=
  if '0' ≤ c ∧ c ≤ '9' then some (c.toNat - '0'.toNat)
  else if 'a' ≤ c ∧ c ≤ 'f' then some (c.toNat - 'a'.toNat + 10)
  else if 'A' ≤ c ∧ c ≤ 'F' then some (c.toNat - 'A'.toNat + 10)
  else none

def hexNumber? (cs : List Char) : Option Nat :=
  cs.foldlM (fun n c => (hexValue? c).map (16 * n + ·)) 0

def isHighSurrogate (n : Nat) : Bool := 0xD800 ≤ n && n < 0xDC00
def isLowSurrogate (n : Nat) : Bool := 0xDC00 ≤ n && n < 0xE000

def joinSurrogates (high low : Nat) : Nat := (high - 0xD800) * 0x400 + (low - 0xDC00) + 0x10000

def codePoint (n : Nat) (rest : List Char) : Reading Char :=
  if isHighSurrogate n || isLowSurrogate n then .error .halfPair else .ok (Char.ofNat n, rest)

def takeHex (cs : List Char) : Option (Nat × List Char) :=
  if cs.length ≤ 4 then none else (hexNumber? (cs.take 4)).map fun n => (n, cs.drop 4)

def plainEscape? : Char → Option Char
  | '"' => some '"'
  | '\\' => some '\\'
  | '/' => some '/'
  | 'b' => some '\x08'
  | 'f' => some '\x0c'
  | 'n' => some '\n'
  | 'r' => some '\r'
  | 't' => some '\t'
  | _ => none

/-- The code point behind `\u`; two halves of a surrogate pair make one. `mark` is the text from the
letter on. -/
def takeCodePoint (mark cs : List Char) : Reading Char :=
  match takeHex cs with
  | none => stopAt .badHexEscape mark
  | some (high, rest) =>
    match rest with
    | '\\' :: 'u' :: tail =>
      if isHighSurrogate high && tail.length > 4 then
        match hexNumber? (tail.take 4) with
        | none => stopAt .badHexEscape ('u' :: tail)
        | some low =>
          if isLowSurrogate low then .ok (Char.ofNat (joinSurrogates high low), tail.drop 4)
          else codePoint high rest
      else codePoint high rest
    | _ => codePoint high rest

/-- The text up to its closing quote; `start` is what is left from the opening one. -/
def takeText (start : List Char) : Nat → List Char → List Char → Reading String
  | 0, _, _ => stopAt .unterminated start
  | _ + 1, [], _ => stopAt .unterminated start
  | _ + 1, '"' :: rest, done => .ok (String.ofList done.reverse, rest)
  | _ + 1, ['\\'], _ => stopAt .unterminated start
  | fuel + 1, '\\' :: 'u' :: rest, done =>
    match takeCodePoint ('u' :: rest) rest with
    | .ok (c, rest) => takeText start fuel rest (c :: done)
    | .error stop => .error stop
  | fuel + 1, '\\' :: c :: rest, done =>
    match plainEscape? c with
    | some c => takeText start fuel rest (c :: done)
    | none => stopAt .badEscape ('\\' :: c :: rest)
  | fuel + 1, c :: rest, done =>
    if c.toNat < 0x20 then stopAt .controlCharacter (c :: rest)
    else takeText start fuel rest (c :: done)

def isDigit (c : Char) : Bool := '0' ≤ c && c ≤ '9'

def takeDigits (cs : List Char) : List Char × List Char := (cs.takeWhile isDigit, cs.dropWhile isDigit)

def digitsValue (digits : List Char) : Nat :=
  digits.foldl (fun n c => 10 * n + (c.toNat - '0'.toNat)) 0

def takeFraction : List Char → List Char × List Char
  | '.' :: cs =>
    match takeDigits cs with
    | ([], _) => ([], '.' :: cs)
    | parts => parts
  | cs => ([], cs)

def signOf : List Char → Bool × List Char
  | '-' :: cs => (true, cs)
  | '+' :: cs => (false, cs)
  | cs => (false, cs)

def takeExponent (cs : List Char) : Option (Int × List Char) :=
  match cs with
  | [] => none
  | c :: rest =>
    if c == 'e' || c == 'E' then
      let (negative, rest) := signOf rest
      match takeDigits rest with
      | ([], _) => none
      | (digits, rest) =>
        let value : Int := digitsValue digits
        some (if negative then -value else value, rest)
    else none

/-- The double nearest to `mantissa * 10 ^ exponent`. -/
def nearestDouble (negative : Bool) (mantissa : Nat) (exponent : Int) : Float :=
  let size : Int := (Nat.toDigits 10 mantissa).length
  let x :=
    if mantissa = 0 || exponent + size < -400 then 0.0
    else if exponent + size > 400 then 1.0 / 0.0
    else Float.ofScientific mantissa (exponent < 0) exponent.natAbs
  if negative then -x else x

def takeNumber (cs : List Char) : Option (Reading Data) :=
  let (negative, body) := match cs with
    | '-' :: rest => (true, rest)
    | _ => (false, cs)
  let (whole, rest) := match body with
    | '0' :: rest => (['0'], rest)
    | _ => takeDigits body
  if whole.isEmpty then none
  else
    let (fraction, rest) := takeFraction rest
    match fraction, takeExponent rest with
    | [], none =>
      if whole.length > 4300 then some (.error (.hugeNumber whole.length))
      else
        let value : Int := digitsValue whole
        some (.ok (.whole (if negative then -value else value), rest))
    | fraction, exponent =>
      let (power, rest) := exponent.getD (0, rest)
      some (.ok (.real (nearestDouble negative (digitsValue (whole ++ fraction))
        (power - fraction.length)), rest))

def dropWord (word : String) (cs : List Char) : Option (List Char) :=
  if word.toList.isPrefixOf cs then some (cs.drop word.length) else none

def words : List (String × Data) :=
  [("null", .null), ("true", .flag true), ("false", .flag false), ("NaN", .real (0.0 / 0.0)),
    ("Infinity", .real (1.0 / 0.0)), ("-Infinity", .real (-1.0 / 0.0))]

def takeWord (cs : List Char) : Option (Data × List Char) :=
  words.findSome? fun (word, value) => (dropWord word cs).map fun rest => (value, rest)

mutual

def takeValue : Nat → List Char → Reading Data
  | 0, cs => stopAt .missingValue cs
  | fuel + 1, cs =>
    match cs with
    | '"' :: rest =>
      match takeText cs (rest.length + 1) rest [] with
      | .ok (text, rest) => .ok (.text text, rest)
      | .error stop => .error stop
    | '\x7b' :: rest =>
      match dropBlanks rest with
      | '\x7d' :: rest => .ok (.table [], rest)
      | rest => takeEntries fuel rest []
    | '[' :: rest =>
      match dropBlanks rest with
      | ']' :: rest => .ok (.list [], rest)
      | rest => takeItems fuel rest []
    | _ =>
      match takeWord cs with
      | some result => .ok result
      | none => (takeNumber cs).getD (stopAt .missingValue cs)

def takeItems : Nat → List Char → List Data → Reading Data
  | 0, cs, _ => stopAt .missingValue cs
  | fuel + 1, cs, done =>
    match takeValue fuel cs with
    | .error stop => .error stop
    | .ok (item, rest) =>
      match dropBlanks rest with
      | ']' :: rest => .ok (.list (item :: done).reverse, rest)
      | ',' :: rest => takeItems fuel (dropBlanks rest) (item :: done)
      | rest => stopAt .missingComma rest

def takeEntries : Nat → List Char → List (String × Data) → Reading Data
  | 0, cs, _ => stopAt .missingValue cs
  | fuel + 1, cs, done =>
    match cs with
    | '"' :: rest =>
      match takeText cs (rest.length + 1) rest [] with
      | .error stop => .error stop
      | .ok (key, rest) =>
        match dropBlanks rest with
        | ':' :: rest =>
          match takeValue fuel (dropBlanks rest) with
          | .error stop => .error stop
          | .ok (value, rest) =>
            let done := Data.put done key value
            match dropBlanks rest with
            | '\x7d' :: rest => .ok (.table done, rest)
            | ',' :: rest => takeEntries fuel (dropBlanks rest) done
            | rest => stopAt .missingComma rest
        | rest => stopAt .missingColon rest
    | cs => stopAt .missingKey cs

end

/-- Locates a stop in the text: lines and columns count from one, positions from zero. -/
def locate (text : List Char) : Stop → JsonError
  | .hugeNumber digits => .hugeNumber digits
  | .halfPair => .halfPair
  | .problem kind left =>
    let before := text.take (text.length - left)
    let line := before.count '\n' + 1
    let column := (before.reverse.takeWhile (· != '\n')).length + 1
    .problem kind line column before.length

def read (text : List Char) : Except Stop Data :=
  match text with
  | '\ufeff' :: _ => stopAt .byteOrderMark text
  | _ =>
    match takeValue (text.length + 1) (dropBlanks text) with
    | .error stop => .error stop
    | .ok (value, rest) =>
      match dropBlanks rest with
      | [] => .ok value
      | rest => stopAt .extraText rest

def parse (text : String) : Except JsonError Data :=
  (read text.toList).mapError (locate text.toList)

end Hydration.Json
