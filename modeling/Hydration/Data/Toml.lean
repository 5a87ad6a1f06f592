import Hydration.Data.Json

/-! Reading TOML. A document that breaks a rule of the format, be it of the grammar or of how tables
may be extended, is refused as a whole, and so is one with a decimal number of too many digits. -/

namespace Hydration.Toml

abbrev Key := List String

abbrev Entries := List (String × Data)

inductive Refusal where
  | malformed
  | hugeNumber (digits : Nat)
deriving Repr, DecidableEq

def require : Option α → Except Refusal α
  | some value => .ok value
  | none => .error .malformed

def isBlank (c : Char) : Bool := c == ' ' || c == '\t'

def dropBlanks (cs : List Char) : List Char := cs.dropWhile isBlank

/-- Control characters, which no text or comment may hold; a tab is allowed. -/
def isForbidden (c : Char) : Bool := (c.toNat < 32 && c != '\t') || c.toNat == 127

def isKeyChar (c : Char) : Bool := c.isAlphanum || c == '-' || c == '_'

def dropComment : List Char → Option (List Char)
  | '#' :: rest =>
    let comment := rest.takeWhile (· != '\n')
    if comment.any isForbidden then none else some (rest.drop comment.length)
  | cs => some cs

def dropFiller : Nat → List Char → Option (List Char)
  | 0, cs => some cs
  | fuel + 1, cs => do
    let rest ← dropComment (cs.dropWhile fun c => isBlank c || c == '\n')
    if rest.length = cs.length then return rest else dropFiller fuel rest

def filler (cs : List Char) : Option (List Char) := dropFiller (cs.length + 1) cs

def hexEscape (width : Nat) (cs : List Char) : Option (Char × List Char) := do
  if cs.length < width then none
  else
    let code ← Json.hexNumber? (cs.take width)
    if h : code.isValidChar then some (Char.ofNatAux code h, cs.drop width) else none

def plainEscape? : Char → Option Char
  | 'b' => some '\x08'
  | 't' => some '\t'
  | 'n' => some '\n'
  | 'f' => some '\x0c'
  | 'r' => some '\r'
  | '"' => some '"'
  | '\\' => some '\\'
  | _ => none

def escape : List Char → Option (Char × List Char)
  | 'u' :: rest => hexEscape 4 rest
  | 'U' :: rest => hexEscape 8 rest
  | c :: rest => (plainEscape? c).map fun c => (c, rest)
  | [] => none

def basicText : Nat → List Char → List Char → Option (String × List Char)
  | 0, _, _ => none
  | _ + 1, _, [] => none
  | _ + 1, done, '"' :: rest => some (String.ofList done.reverse, rest)
  | fuel + 1, done, '\\' :: rest => do
    let (c, rest) ← escape rest
    basicText fuel (c :: done) rest
  | fuel + 1, done, c :: rest => if isForbidden c then none else basicText fuel (c :: done) rest

/-- Behind a backslash at the end of a line the blanks that follow are dropped. -/
def lineJoin (cs : List Char) : Option (List Char) :=
  match dropBlanks cs with
  | [] => some []
  | '\n' :: rest => some (rest.dropWhile fun c => isBlank c || c == '\n')
  | _ => none

/-- Up to two more quotes behind the closing three belong to the text. -/
def extraQuotes (quote : Char) (done rest : List Char) : String × List Char :=
  let extra := (rest.take 2).takeWhile (· == quote)
  (String.ofList (done.reverse ++ extra), rest.drop extra.length)

def longBasicText : Nat → List Char → List Char → Option (String × List Char)
  | 0, _, _ => none
  | _ + 1, _, [] => none
  | _ + 1, done, '"' :: '"' :: '"' :: rest => some (extraQuotes '"' done rest)
  | fuel + 1, done, '\\' :: c :: rest =>
    if isBlank c || c == '\n' then do longBasicText fuel done (← lineJoin (c :: rest))
    else do
      let (c, rest) ← escape (c :: rest)
      longBasicText fuel (c :: done) rest
  | _ + 1, _, ['\\'] => none
  | fuel + 1, done, c :: rest =>
    if isForbidden c && c != '\n' then none else longBasicText fuel (c :: done) rest

def literalText (cs : List Char) : Option (String × List Char) :=
  let body := cs.takeWhile (· != '\'')
  match cs.drop body.length with
  | _ :: rest => if body.any isForbidden then none else some (String.ofList body, rest)
  | [] => none

def longLiteralText : List Char → List Char → Option (String × List Char)
  | _, [] => none
  | done, '\'' :: '\'' :: '\'' :: rest => some (extraQuotes '\'' done rest)
  | done, c :: rest =>
    if isForbidden c && c != '\n' then none else longLiteralText (c :: done) rest

def dropFirstLineEnd : List Char → List Char
  | '\n' :: rest => rest
  | cs => cs

def keyPart : List Char → Option (String × List Char)
  | '\'' :: rest => literalText rest
  | '"' :: rest => basicText (rest.length + 1) [] rest
  | cs =>
    let part := cs.takeWhile isKeyChar
    if part.isEmpty then none else some (String.ofList part, cs.drop part.length)

def takeKey : Nat → List Char → Option (Key × List Char)
  | 0, _ => none
  | fuel + 1, cs => do
    let (part, rest) ← keyPart cs
    match dropBlanks rest with
    | '.' :: rest =>
      let (more, rest) ← takeKey fuel (dropBlanks rest)
      return (part :: more, rest)
    | rest => return ([part], rest)

def key (cs : List Char) : Option (Key × List Char) := takeKey (cs.length + 1) cs

def isDigit (c : Char) : Bool := '0' ≤ c && c ≤ '9'

def takeDigits (p : Char → Bool) : List Char → List Char × List Char
  | '_' :: c :: rest =>
    if p c then
      let (digits, left) := takeDigits p rest
      (c :: digits, left)
    else ([], '_' :: c :: rest)
  | c :: rest =>
    if p c then
      let (digits, left) := takeDigits p rest
      (c :: digits, left)
    else ([], c :: rest)
  | [] => ([], [])

def digits (p : Char → Bool) (cs : List Char) : Option (List Char × List Char) :=
  match cs with
  | c :: rest => if p c then some (takeDigits p (c :: rest)) else none
  | [] => none

def isHexDigit (c : Char) : Bool := (Json.hexValue? c).isSome
def isOctalDigit (c : Char) : Bool := '0' ≤ c && c ≤ '7'
def isBinaryDigit (c : Char) : Bool := c == '0' || c == '1'

def baseValue (base : Nat) (ds : List Char) : Nat :=
  ds.foldl (fun n c => base * n + (Json.hexValue? c).getD 0) 0

def basedNumber (base : Nat) (p : Char → Bool) (cs : List Char) : Option (Data × List Char) :=
  (digits p cs).map fun (ds, rest) => (.whole (baseValue base ds), rest)

def fraction (cs : List Char) : List Char × List Char :=
  match cs with
  | '.' :: rest => (digits isDigit rest).getD ([], cs)
  | _ => ([], cs)

def exponent (cs : List Char) : Option (Int × List Char) :=
  match cs with
  | c :: rest =>
    if c == 'e' || c == 'E' then
      let (negative, rest) := Json.signOf rest
      (digits isDigit rest).map fun (ds, rest) =>
        (if negative then -(baseValue 10 ds : Int) else baseValue 10 ds, rest)
    else none
  | [] => none

def decimalNumber (cs : List Char) : Option (Except Refusal (Data × List Char)) := do
  let (negative, body) := Json.signOf cs
  let (ds, rest) ← match body with
    | '0' :: rest => some (['0'], rest)
    | _ => digits isDigit body
  let (frac, rest) := fraction rest
  match frac, exponent rest with
  | [], none =>
    if ds.length > 4300 then return .error (.hugeNumber ds.length)
    else
      let value : Int := baseValue 10 ds
      return .ok (.whole (if negative then -value else value), rest)
  | frac, power =>
    let (power, rest) := power.getD (0, rest)
    return .ok (.real (Json.nearestDouble negative (baseValue 10 (ds ++ frac))
      (power - frac.length)), rest)

def number (cs : List Char) : Option (Except Refusal (Data × List Char)) :=
  let based := match cs with
    | '0' :: 'x' :: rest => basedNumber 16 isHexDigit rest
    | '0' :: 'o' :: rest => basedNumber 8 isOctalDigit rest
    | '0' :: 'b' :: rest => basedNumber 2 isBinaryDigit rest
    | _ => none
  (based.map .ok).or (decimalNumber cs)

def words : List (String × Data) :=
  [("true", .flag true), ("false", .flag false)]

def realWords : List (String × Data) :=
  [("inf", .real (1.0 / 0.0)), ("+inf", .real (1.0 / 0.0)), ("-inf", .real (-1.0 / 0.0)),
    ("nan", .real (0.0 / 0.0)), ("+nan", .real (0.0 / 0.0)), ("-nan", .real (0.0 / 0.0))]

def takeWord (table : List (String × Data)) (cs : List Char) : Option (Data × List Char) :=
  table.findSome? fun (word, value) => (Json.dropWord word cs).map fun rest => (value, rest)

def fixedNumber (width : Nat) (cs : List Char) : Option (Nat × List Char) :=
  let ds := cs.take width
  if ds.length = width ∧ ds.all isDigit then some (baseValue 10 ds, cs.drop width) else none

def mark (c : Char) : List Char → Option (List Char)
  | d :: rest => if c == d then some rest else none
  | [] => none

def bounded (low high : Nat) (cs : List Char) : Option (Nat × List Char) := do
  let (n, rest) ← fixedNumber 2 cs
  if low ≤ n ∧ n ≤ high then some (n, rest) else none

def dropFraction : List Char → List Char
  | '.' :: rest =>
    let ds := rest.takeWhile isDigit
    if ds.isEmpty then '.' :: rest else rest.drop ds.length
  | cs => cs

def dropTime (cs : List Char) : Option (List Char) := do
  let (_, rest) ← bounded 0 23 cs
  let (_, rest) ← bounded 0 59 (← mark ':' rest)
  let (_, rest) ← bounded 0 59 (← mark ':' rest)
  return dropFraction rest

def dropOffset (cs : List Char) : List Char :=
  match cs with
  | c :: rest =>
    if c == 'Z' || c == 'z' then rest
    else if c == '+' || c == '-' then
      (do
        let (_, rest) ← bounded 0 23 rest
        let (_, rest) ← bounded 0 59 (← mark ':' rest)
        return rest : Option (List Char)).getD cs
    else cs
  | [] => cs

def isLeapYear (year : Nat) : Bool := year % 4 == 0 && (year % 100 != 0 || year % 400 == 0)

def daysIn (year month : Nat) : Nat :=
  if month = 2 then (if isLeapYear year then 29 else 28)
  else if month = 4 ∨ month = 6 ∨ month = 9 ∨ month = 11 then 30
  else 31

structure Day where
  year : Nat
  month : Nat
  day : Nat

def takeDay (cs : List Char) : Option (Day × List Char) := do
  let (year, rest) ← fixedNumber 4 cs
  let (month, rest) ← bounded 1 12 (← mark '-' rest)
  let (day, rest) ← bounded 1 31 (← mark '-' rest)
  return (⟨year, month, day⟩, rest)

def Day.exists (d : Day) : Bool := d.year ≥ 1 && d.day ≤ daysIn d.year d.month

def dropDayTime : List Char → Option (List Char)
  | c :: rest => if c == 'T' || c == 't' || c == ' ' then dropTime rest else none
  | [] => none

/-- A date, perhaps with a time, or a time. The inner value is missing for a day that no calendar
has. -/
def moment (cs : List Char) : Option (Option (Data × List Char)) :=
  match takeDay cs with
  | some (day, rest) =>
    some <|
      if !day.exists then none
      else match dropDayTime rest with
      | some rest => some (.moment .dateTime, dropOffset rest)
      | none => some (.moment .date, rest)
  | none => (dropTime cs).map fun rest => some (.moment .time, rest)

/-- Changes the entries of the table behind a key, which is made where it is missing. Behind a list
of tables stands its last one, where that is allowed. -/
def alter (intoLists : Bool) (f : Entries → Option Entries) : Key → Entries → Option Entries
  | [], entries => f entries
  | k :: rest, entries =>
    match entries.lookup k with
    | none => (alter intoLists f rest []).map fun t => Data.put entries k (.table t)
    | some (.table inner) =>
      (alter intoLists f rest inner).map fun t => Data.put entries k (.table t)
    | some (.list items) =>
      match items.getLast? with
      | some (.table inner) =>
        if intoLists then
          (alter intoLists f rest inner).map fun t =>
            Data.put entries k (.list (items.dropLast ++ [.table t]))
        else none
      | _ => none
    | some _ => none

def addEntry (k : String) (value : Data) (entries : Entries) : Option Entries :=
  if (entries.lookup k).isSome then none else some (entries ++ [(k, value)])

def addListTable (k : String) (entries : Entries) : Option Entries :=
  match entries.lookup k with
  | none => some (entries ++ [(k, .list [.table []])])
  | some (.list items) => some (Data.put entries k (.list (items ++ [.table []])))
  | some _ => none

/-- What is known of a key: `closed` ones, with all below them, take no further entries, and `opened`
ones no further header. -/
structure Marks where
  closed : List Key := []
  opened : List Key := []

def Marks.isClosed (marks : Marks) (key : Key) : Bool := marks.closed.any (·.isPrefixOf key)

def Marks.isOpened (marks : Marks) (key : Key) : Bool := marks.opened.contains key

def Marks.close (marks : Marks) (key : Key) : Marks := { marks with closed := key :: marks.closed }

def Marks.open_ (marks : Marks) (key : Key) : Marks := { marks with opened := key :: marks.opened }

def Marks.forget (marks : Marks) (key : Key) : Marks :=
  { closed := marks.closed.filter fun k => !key.isPrefixOf k
    opened := marks.opened.filter fun k => !key.isPrefixOf k }

def isNested : Data → Bool
  | .list _ => true
  | .table _ => true
  | _ => false

structure InlineState where
  entries : Entries := []
  marks : Marks := {}

def addInline (state : InlineState) (key : Key) (value : Data) : Option InlineState :=
  if state.marks.isClosed key then none
  else do
    let entries ← alter false (addEntry (key.getLast?.getD "") value) key.dropLast state.entries
    return { entries, marks := if isNested value then state.marks.close key else state.marks }

def quotedValue : List Char → Option (Option (String × List Char))
  | '"' :: '"' :: '"' :: rest =>
    let rest := dropFirstLineEnd rest
    some (longBasicText (rest.length + 1) [] rest)
  | '"' :: rest => some (basicText (rest.length + 1) [] rest)
  | '\'' :: '\'' :: '\'' :: rest => some (longLiteralText [] (dropFirstLineEnd rest))
  | '\'' :: rest => some (literalText rest)
  | _ => none

def plainValue (cs : List Char) : Except Refusal (Data × List Char) :=
  match takeWord words cs, moment cs with
  | some result, _ => .ok result
  | none, some result => require result
  | none, none => (number cs).getD (require (takeWord realWords cs))

mutual

def takeValue : Nat → List Char → Except Refusal (Data × List Char)
  | 0, _ => .error .malformed
  | fuel + 1, cs =>
    match quotedValue cs with
    | some reading => require (reading.map fun (text, rest) => (.text text, rest))
    | none =>
      match cs with
      | '[' :: rest => do takeItems fuel [] (← require (filler rest))
      | '\x7b' :: rest =>
        match dropBlanks rest with
        | '\x7d' :: rest => .ok (.table [], rest)
        | rest => takeInline fuel {} rest
      | _ => plainValue cs

def takeItems : Nat → List Data → List Char → Except Refusal (Data × List Char)
  | 0, _, _ => .error .malformed
  | _ + 1, done, ']' :: rest => .ok (.list done.reverse, rest)
  | fuel + 1, done, cs => do
    let (item, rest) ← takeValue fuel cs
    match ← require (filler rest) with
    | ']' :: rest => return (.list (item :: done).reverse, rest)
    | ',' :: rest => takeItems fuel (item :: done) (← require (filler rest))
    | _ => .error .malformed

def takeInline : Nat → InlineState → List Char → Except Refusal (Data × List Char)
  | 0, _, _ => .error .malformed
  | fuel + 1, state, cs => do
    let (key, rest) ← require (key cs)
    let rest ← require (mark '=' rest)
    let (value, rest) ← takeValue fuel (dropBlanks rest)
    let state ← require (addInline state key value)
    match dropBlanks rest with
    | '\x7d' :: rest => return (.table state.entries, rest)
    | ',' :: rest => takeInline fuel state (dropBlanks rest)
    | _ => .error .malformed

end

/-- A document while it is read. Keys that a dotted key went through count as opened from the next
header on. -/
structure Document where
  entries : Entries := []
  marks : Marks := {}
  pending : List Key := []
  header : Key := []

def innerKeys (header key : Key) : List Key :=
  (List.range (key.length - 1)).map fun i => header ++ key.take (i + 1)

def Document.add (d : Document) (key : Key) (value : Data) : Option Document :=
  let inner := innerKeys d.header key
  let parent := d.header ++ key.dropLast
  if inner.any d.marks.isOpened || d.marks.isClosed parent then none
  else do
    let entries ← alter true (addEntry (key.getLast?.getD "") value) parent d.entries
    let marks := if isNested value then d.marks.close (d.header ++ key) else d.marks
    return { d with entries, marks, pending := d.pending ++ inner }

def Document.settle (d : Document) : Document :=
  { d with marks := d.pending.foldl Marks.open_ d.marks, pending := [] }

def Document.openTable (d : Document) (key : Key) : Option Document :=
  if d.marks.isOpened key || d.marks.isClosed key then none
  else do
    let entries ← alter true some key d.entries
    return { d with entries, marks := d.marks.open_ key, header := key }

def Document.openListTable (d : Document) (key : Key) : Option Document :=
  if d.marks.isClosed key then none
  else do
    let entries ← alter true (addListTable (key.getLast?.getD "")) key.dropLast d.entries
    return { d with entries, marks := (d.marks.forget key).open_ key, header := key }

def headerLine (d : Document) (cs : List Char) : Option (Document × List Char) :=
  match cs with
  | '[' :: rest => do
    let (key, rest) ← key (dropBlanks rest)
    let d ← d.settle.openListTable key
    return (d, ← mark ']' (← mark ']' rest))
  | rest => do
    let (key, rest) ← key (dropBlanks rest)
    let d ← d.settle.openTable key
    return (d, ← mark ']' rest)

def entryLine (d : Document) (cs : List Char) : Except Refusal (Document × List Char) := do
  let (key, rest) ← require (key cs)
  let rest ← require (mark '=' rest)
  let (value, rest) ← takeValue (rest.length + 1) (dropBlanks rest)
  return (← require (d.add key value), rest)

def statement (d : Document) : List Char → Except Refusal (Document × List Char)
  | '[' :: rest => require (headerLine d rest)
  | '#' :: rest => .ok (d, '#' :: rest)
  | cs => entryLine d cs

def readLines : Nat → Document → List Char → Except Refusal Document
  | 0, d, _ => .ok d
  | fuel + 1, d, cs =>
    match dropBlanks cs with
    | [] => .ok d
    | '\n' :: rest => readLines fuel d rest
    | cs => do
      let (d, rest) ← statement d cs
      match ← require (dropComment (dropBlanks rest)) with
      | [] => return d
      | '\n' :: rest => readLines fuel d rest
      | _ => .error .malformed

def joinLineEnds : List Char → List Char
  | '\r' :: '\n' :: rest => '\n' :: joinLineEnds rest
  | c :: rest => c :: joinLineEnds rest
  | [] => []

def parse (text : String) : Except Refusal Entries :=
  let cs := joinLineEnds text.toList
  (readLines (cs.length + 1) {} cs).map Document.entries

end Hydration.Toml
