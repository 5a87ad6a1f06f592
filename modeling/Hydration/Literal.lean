import Hydration.Text.Printable

/-! Literals that a hydrated class returns: texts, numbers, flags, lists and tables. -/

namespace Hydration

inductive Literal where
  | text (value : String)
  | number (value : Nat)
  | flag (value : Bool)
  | list (items : List Literal)
  | table (entries : List (String × Literal))

namespace Literal

mutual

def chars : Literal → List Char
  | .text value => Text.quotedChars value.toList
  | .number value => Nat.toDigits 10 value
  | .flag value => if value then ['T', 'r', 'u', 'e'] else ['F', 'a', 'l', 's', 'e']
  | .list items => '[' :: listChars items ++ [']']
  | .table entries => '\x7b' :: tableChars entries ++ ['\x7d']

def listChars : List Literal → List Char
  | [] => []
  | [item] => item.chars
  | item :: next :: rest => item.chars ++ ',' :: ' ' :: listChars (next :: rest)

def tableChars : List (String × Literal) → List Char
  | [] => []
  | [(key, value)] => Text.quotedChars key.toList ++ ':' :: ' ' :: value.chars
  | (key, value) :: next :: rest =>
    Text.quotedChars key.toList ++ ':' :: ' ' :: value.chars ++ ',' :: ' ' ::
      tableChars (next :: rest)

end

def render (literal : Literal) : String := String.ofList literal.chars

def put (entries : List (String × Literal)) (key : String) (value : Literal) :
    List (String × Literal) :=
  match entries with
  | [] => [(key, value)]
  | (k, v) :: rest => if k == key then (k, value) :: rest else (k, v) :: put rest key value

end Literal

end Hydration
