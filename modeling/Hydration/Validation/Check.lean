import Hydration.Data
import Hydration.Validation.Issue
import Hydration.Text.Character

/-! Checks of data. A check of several parts goes through all of them and lists every issue in
order; only a tag that cannot name a class ends it at once. -/

namespace Hydration.Validation

inductive Checked (α : Type) where
  | ok (value : α)
  | issues (list : List Issue)
  /-- The tag is no text, and the class name has to be derived from it. -/
  | tagKind (word : String)

namespace Checked

def map (f : α → β) : Checked α → Checked β
  | .ok value => .ok (f value)
  | .issues list => .issues list
  | .tagKind word => .tagKind word

/-- Both parts are checked, and the issues of both are kept. -/
def seq : Checked (α → β) → Checked α → Checked β
  | .ok f, x => x.map f
  | .issues list, .ok _ => .issues list
  | .issues list, .issues more => .issues (list ++ more)
  | .issues _, .tagKind word => .tagKind word
  | .tagKind word, _ => .tagKind word

instance : Applicative Checked where
  pure := .ok
  map := map
  seq f x := seq f (x ())

def under (key : String) : Checked α → Checked α
  | .issues list => .issues (list.map fun issue => { issue with path := key :: issue.path })
  | checked => checked

def andThen (x : Checked α) (f : α → Checked β) : Checked β :=
  match x with
  | .ok value => f value
  | .issues list => .issues list
  | .tagKind word => .tagKind word

end Checked

def complain (complaint : Complaint) : Checked α := .issues [{ complaint }]

abbrev Check (α : Type) := Data → Checked α

abbrev Entries := List (String × Data)

def required (entries : Entries) (key : String) (check : Check α) : Checked α :=
  (match entries.lookup key with
    | some data => check data
    | none => complain .missing).under key

def optional (entries : Entries) (key : String) (default : α) (check : Check α) : Checked α :=
  match entries.lookup key with
  | some data => (check data).under key
  | none => .ok default

def checkItems (check : Check α) : Nat → List Data → Checked (List α)
  | _, [] => .ok []
  | i, item :: rest =>
    ((check item).under (toString i) |>.map List.cons).seq (checkItems check (i + 1) rest)

def listOf (check : Check α) : Check (List α)
  | .list items => checkItems check 0 items
  | _ => complain .notList

def nullable (check : Check α) : Check (Option α)
  | .null => .ok none
  | data => (check data).map some

def text : Check String
  | .text value => .ok value
  | _ => complain .notText

def filledText : Check String
  | .text value => if value.isEmpty then complain .emptyText else .ok value
  | _ => complain .notText

def oneOf (choices : List (String × α)) : Check α
  | .text label =>
    match choices.lookup label with
    | some value => .ok value
    | none => complain (.notOneOf (choices.map (·.1)))
  | _ => complain (.notOneOf (choices.map (·.1)))

def flagWords : List (String × Bool) :=
  [("0", false), ("off", false), ("f", false), ("false", false), ("n", false), ("no", false),
    ("1", true), ("on", true), ("t", true), ("true", true), ("y", true), ("yes", true)]

def lowercase (s : String) : String := String.ofList (s.toList.map Char.toLower)

/-- The first number too large for 64 bits with a sign. -/
def wordBound : Int := 0x8000000000000000

def fitsWord (n : Int) : Bool := -wordBound ≤ n && n < wordBound

def exactWhole (x : Float) : Int :=
  if x < 0 then -((-x).toUInt64.toNat : Int) else (x.toUInt64.toNat : Int)

def wordLimit : Float := 9223372036854775808.0

def wholeOfReal (x : Float) : Except Complaint Int :=
  if x.isNaN || x.isInf then .error .infiniteWhole
  else if x.floor != x then .error .fractionalWhole
  else if -wordLimit < x && x < wordLimit then .ok (exactWhole x)
  else .error .oversizedWhole

def flagOfWhole (n : Int) : Checked Bool :=
  if n = 0 then .ok false else if n = 1 then .ok true else complain .unclearFlag

def flag : Check Bool
  | .flag value => .ok value
  | .text word =>
    match flagWords.lookup (lowercase word) with
    | some value => .ok value
    | none => complain .unclearFlag
  | .whole n => if fitsWord n then flagOfWhole n else complain .notFlag
  | .real x =>
    match wholeOfReal x with
    | .ok n => flagOfWhole n
    | .error _ => complain .notFlag
  | _ => complain .notFlag

def isDigit (c : Char) : Bool := '0' ≤ c && c ≤ '9'

/-- Leading zeros, with underscores among them, are dropped up to the last. -/
def dropZeros : List Char → Option (List Char)
  | '0' :: rest =>
    let zeros := rest.takeWhile fun c => c == '0' || c == '_'
    match rest.drop zeros.length with
    | [] => some [((('0' :: zeros).getLast?).getD '0')]
    | '.' :: tail => some (((('0' :: zeros).getLast?).getD '0') :: '.' :: tail)
    | c :: tail => if isDigit c then some (c :: tail) else none
  | c :: rest => if isDigit c || c == '-' then some (c :: rest) else none
  | [] => none

def dropZeroFraction (cs : List Char) : List Char :=
  let whole := cs.takeWhile (· != '.')
  match cs.drop whole.length with
  | '.' :: fraction => if fraction.all (· == '0') then whole else cs
  | _ => cs

def hasDoubled (c : Char) : List Char → Bool
  | a :: b :: rest => (a == c && b == c) || hasDoubled c (b :: rest)
  | _ => false

def dropUnderscores (cs : List Char) : List Char :=
  if cs.head? == some '_' || cs.getLast? == some '_' || hasDoubled '_' cs then cs
  else cs.filter (· != '_')

def dropPlus : List Char → Option (List Char)
  | '+' :: '-' :: _ => none
  | '+' :: rest => some rest
  | cs => some cs

def digitsValue (digits : List Char) : Nat :=
  digits.foldl (fun n c => 10 * n + (c.toNat - '0'.toNat)) 0

/-- A plain decimal number: a minus sign perhaps, and digits without a leading zero. -/
def plainWhole (cs : List Char) : Except Complaint Int :=
  let (negative, digits) := match cs with
    | '-' :: rest => (true, rest)
    | _ => (false, cs)
  if digits.isEmpty || !digits.all isDigit || (digits.head? == some '0' && digits.length > 1) then
    .error .unreadableWhole
  else if digits.length > 4300 then .error .oversizedWhole
  else .ok (if negative then -(digitsValue digits : Int) else digitsValue digits)

def cleanWhole (cs : List Char) : Option (List Char) := do
  let cs ← dropPlus (Text.trimBoth Text.isWhiteSpace cs)
  let cs ← dropZeros cs
  return dropUnderscores (dropZeroFraction cs)

def wholeOfText (word : String) : Except Complaint Int :=
  match plainWhole word.toList with
  | .error .unreadableWhole =>
    match cleanWhole word.toList with
    | some cs => plainWhole cs
    | none => .error .unreadableWhole
  | result => result

def ofResult : Except Complaint α → Checked α
  | .ok value => .ok value
  | .error complaint => complain complaint

def whole : Check Int
  | .whole n => .ok n
  | .flag value => .ok (if value then 1 else 0)
  | .text word => ofResult (wholeOfText word)
  | .real x => ofResult (wholeOfReal x)
  | _ => complain .notWhole

def positive (data : Data) : Checked Int :=
  (whole data).andThen fun n => if n < 1 then complain .belowOne else .ok n

/-- A named check; the name stands in front of the issues it finds. -/
structure Schema (α : Type) where
  title : String
  check : Check α

def recordOf (title : String) (check : Entries → Checked α) : Schema α where
  title := title
  check
    | .table entries => check entries
    | _ => complain (.notRecord title)

inductive Rejection where
  | issues (title : String) (list : List Issue)
  | tagKind (word : String)
deriving Repr, DecidableEq

def Schema.validate (schema : Schema α) (data : Data) : Except Rejection α :=
  match schema.check data with
  | .ok value => .ok value
  | .issues list => .error (.issues schema.title list)
  | .tagKind word => .error (.tagKind word)

def tagKindMessage (word : String) : String := s!"'{word}' object has no attribute 'split'"

def issueCount (title : String) (list : List Issue) : String :=
  let noun := if list.length = 1 then "error" else "errors"
  s!"{list.length} validation {noun} for {title}"

end Hydration.Validation
