import Hydration.Text.Printable
import Hydration.Text.Shortest

/-! Unchecked data, as a manifest or a settings file holds it. -/

namespace Hydration

/-- What a settings file can name besides numbers and texts: a point in time or a part of one. -/
inductive Moment where
  | date | time | dateTime
deriving Repr, DecidableEq, Inhabited

/-- A table keeps its entries in the order in which their keys first came. -/
inductive Data where
  | null
  | flag (value : Bool)
  | whole (value : Int)
  | real (value : Float)
  | text (value : String)
  | moment (value : Moment)
  | list (items : List Data)
  | table (entries : List (String × Data))
deriving Inhabited

namespace Data

/-- Sets an entry; a key that is present keeps its place. -/
def put (entries : List (String × Data)) (key : String) (value : Data) : List (String × Data) :=
  match entries with
  | [] => [(key, value)]
  | (k, v) :: rest => if k == key then (k, value) :: rest else (k, v) :: put rest key value

def get? : Data → String → Option Data
  | .table entries, key => entries.lookup key
  | _, _ => none

/-- Data that holds something: no empty text, list or table, no zero, and not null. -/
def isFilled : Data → Bool
  | .null => false
  | .flag value => value
  | .whole value => value != 0
  | .real value => value != 0
  | .text value => !value.isEmpty
  | .moment _ => true
  | .list items => !items.isEmpty
  | .table entries => !entries.isEmpty

def kindWord : Data → String
  | .null => "NoneType"
  | .flag _ => "bool"
  | .whole _ => "int"
  | .real _ => "float"
  | .text _ => "str"
  | .moment .date => "date"
  | .moment .time => "time"
  | .moment .dateTime => "datetime"
  | .list _ => "list"
  | .table _ => "dict"

/-- The word for a kind of data, moments with the family they belong to. -/
def qualifiedKindWord : Data → String
  | .moment value => "datetime." ++ (Data.moment value).kindWord
  | data => data.kindWord

mutual

def describe : Data → String
  | .null => "None"
  | .flag value => if value then "True" else "False"
  | .whole value => toString value
  | .real value => Text.shortestText value
  | .text value => Text.quoted value
  | .moment value => (Data.moment value).qualifiedKindWord
  | .list items => "[" ++ describeItems items ++ "]"
  | .table entries => "\x7b" ++ describeEntries entries ++ "\x7d"

def describeItems : List Data → String
  | [] => ""
  | [item] => item.describe
  | item :: next :: rest => item.describe ++ ", " ++ describeItems (next :: rest)

def describeEntries : List (String × Data) → String
  | [] => ""
  | [(key, value)] => Text.quoted key ++ ": " ++ value.describe
  | (key, value) :: next :: rest =>
    Text.quoted key ++ ": " ++ value.describe ++ ", " ++ describeEntries (next :: rest)

end

end Data

end Hydration
