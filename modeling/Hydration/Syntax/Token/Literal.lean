import Hydration.Syntax.Token

/-! Number and string literals, each read off the front of a text. -/

namespace Hydration.Syntax

def takeGrouped (isDigit : Char → Bool) : List Char → List Char × List Char
  | '_' :: c :: rest =>
    if isDigit c then
      let (digits, left) := takeGrouped isDigit rest
      ('_' :: c :: digits, left)
    else ([], '_' :: c :: rest)
  | c :: rest =>
    if isDigit c then
      let (digits, left) := takeGrouped isDigit rest
      (c :: digits, left)
    else ([], c :: rest)
  | [] => ([], [])

def takeDecimals : List Char → Except LexError (List Char × List Char)
  | c :: rest =>
    if c.isDigit then
      let (digits, left) := takeGrouped Char.isDigit rest
      if left.head? == some '_' then .error .badDecimal else .ok (c :: digits, left)
    else .ok ([], c :: rest)
  | [] => .ok ([], [])

def takeImaginary : List Char → List Char × List Char
  | 'j' :: rest => (['j'], rest)
  | 'J' :: rest => (['J'], rest)
  | rest => ([], rest)

/-- An exponent counts only if digits follow its mark. -/
def takeExponent (cs : List Char) : Except LexError (List Char × List Char) :=
  let signed (mark : Char) (rest : List Char) : Except LexError (List Char × List Char) :=
    let (sign, digits) := match rest with
      | '+' :: digits => (['+'], digits)
      | '-' :: digits => (['-'], digits)
      | digits => ([], digits)
    if (digits.head?.map Char.isDigit).getD false then do
      let (taken, left) ← takeDecimals digits
      .ok (mark :: sign ++ taken, left)
    else .ok ([], cs)
  match cs with
  | 'e' :: rest => signed 'e' rest
  | 'E' :: rest => signed 'E' rest
  | _ => .ok ([], cs)

def takeFraction (cs : List Char) : Except LexError (List Char × List Char) := do
  let (digits, rest) ← takeDecimals cs
  let (exponent, rest) ← takeExponent rest
  let (unit, rest) := takeImaginary rest
  return (digits ++ exponent ++ unit, rest)

def takeAfterWhole (cs : List Char) : Except LexError (List Char × List Char) := do
  match cs with
  | '.' :: rest =>
    let (fraction, rest) ← takeFraction rest
    return ('.' :: fraction, rest)
  | rest =>
    let (exponent, rest) ← takeExponent rest
    let (unit, rest) := takeImaginary rest
    return (exponent ++ unit, rest)

def isOctalDigit (c : Char) : Bool := '0' ≤ c && c ≤ '7'
def isBinaryDigit (c : Char) : Bool := c == '0' || c == '1'
def isHexDigit (c : Char) : Bool :=
  c.isDigit || ('a' ≤ c && c ≤ 'f') || ('A' ≤ c && c ≤ 'F')

def takeRadix (mark : Char) (isDigit : Char → Bool) (empty : LexError)
    (bad? : Option (Char → LexError)) (cs : List Char) :
    Except LexError (List Char × List Char) :=
  let (digits, rest) := takeGrouped isDigit cs
  let stray : Option LexError := match bad?, rest with
    | some bad, c :: _ => if c.isDigit then some (bad c) else none
    | _, _ => none
  match stray with
  | some error => .error error
  | none => if digits.isEmpty then .error empty else .ok ('0' :: mark :: digits, rest)

/-- Reads a number literal. A leading zero stands only before zeros, a point or an exponent. -/
def takeNumber : List Char → Except LexError (List Char × List Char)
  | '0' :: 'x' :: rest => takeRadix 'x' isHexDigit .badHexadecimal none rest
  | '0' :: 'X' :: rest => takeRadix 'X' isHexDigit .badHexadecimal none rest
  | '0' :: 'o' :: rest => takeRadix 'o' isOctalDigit .badOctal (some .badOctalDigit) rest
  | '0' :: 'O' :: rest => takeRadix 'O' isOctalDigit .badOctal (some .badOctalDigit) rest
  | '0' :: 'b' :: rest => takeRadix 'b' isBinaryDigit .badBinary (some .badBinaryDigit) rest
  | '0' :: 'B' :: rest => takeRadix 'B' isBinaryDigit .badBinary (some .badBinaryDigit) rest
  | '0' :: rest => do
    let (zeros, rest) := takeGrouped (· == '0') rest
    let (digits, rest) := takeGrouped Char.isDigit rest
    if rest.head? == some '_' then .error .badDecimal else
    let (after, rest) ← takeAfterWhole rest
    if after.isEmpty && !digits.isEmpty then .error .leadingZeros
    else return ('0' :: zeros ++ digits ++ after, rest)
  | cs => do
    let (whole, rest) ← takeDecimals cs
    let (after, rest) ← takeAfterWhole rest
    return (whole ++ after, rest)

def startsTriple (quote : Char) (cs : List Char) : Bool :=
  cs.take 3 == [quote, quote, quote]

/-- Reads to the closing quotes; a backslash takes the next character with it. -/
def takeStringBody (quote : Char) (triple : Bool) (closing : Nat) :
    List Char → Except LexError (List Char × List Char)
  | [] => .error (if triple then .unterminatedTripleString else .unterminatedString)
  | '\\' :: '\r' :: '\n' :: rest => do
    let (body, left) ← takeStringBody quote triple 0 rest
    return ('\\' :: '\r' :: '\n' :: body, left)
  | '\\' :: c :: rest => do
    let (body, left) ← takeStringBody quote triple 0 rest
    return ('\\' :: c :: body, left)
  | c :: rest =>
    if c == quote then
      if !triple || closing == 2 then .ok ([c], rest)
      else do
        let (body, left) ← takeStringBody quote triple (closing + 1) rest
        return (c :: body, left)
    else if !triple && (c == '\n' || c == '\r') then .error .unterminatedString
    else do
      let (body, left) ← takeStringBody quote triple 0 rest
      return (c :: body, left)

def takeString (quote : Char) (cs : List Char) : Except LexError (List Char × List Char) :=
  if startsTriple quote cs then do
    let (body, rest) ← takeStringBody quote true 0 (cs.drop 3)
    return (quote :: quote :: quote :: body, rest)
  else do
    let (body, rest) ← takeStringBody quote false 0 (cs.drop 1)
    return (quote :: body, rest)

def takeStringPrefix (cs : List Char) : List Char :=
  let isRaw (c : Char) : Bool := c == 'r' || c == 'R'
  let joinsRaw (c : Char) : Bool := c.toLower == 'b' || c.toLower == 'f' || c.toLower == 't'
  let stands (c : Char) : Bool := joinsRaw c || isRaw c || c.toLower == 'u'
  match cs with
  | a :: b :: _ =>
    if a.toLower == 'u' then [a]
    else if (joinsRaw a && isRaw b) || (isRaw a && joinsRaw b) then [a, b]
    else if stands a then [a] else []
  | [a] => if stands a then [a] else []
  | [] => []

end Hydration.Syntax
