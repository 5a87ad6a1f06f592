/-! What a check of data finds wrong, and where. -/

namespace Hydration.Validation

inductive Complaint where
  | missing
  | notText
  | emptyText
  | notList
  | notFlag
  | unclearFlag
  | notWhole
  | unreadableWhole
  | oversizedWhole
  | fractionalWhole
  | infiniteWhole
  | belowOne
  | notRecord (title : String)
  | notOneOf (labels : List String)
  | refused (reason : String)
deriving Repr, DecidableEq

def quoteLabel (label : String) : String := "'" ++ label ++ "'"

/-- The labels in words: `'a', 'b' or 'c'`. -/
def enumerate : List String → String
  | [] => ""
  | [label] => quoteLabel label
  | [label, last] => quoteLabel label ++ " or " ++ quoteLabel last
  | label :: rest => quoteLabel label ++ ", " ++ enumerate rest

namespace Complaint

def code : Complaint → String
  | .missing => "missing"
  | .notText => "string_type"
  | .emptyText => "string_too_short"
  | .notList => "list_type"
  | .notFlag => "bool_type"
  | .unclearFlag => "bool_parsing"
  | .notWhole => "int_type"
  | .unreadableWhole => "int_parsing"
  | .oversizedWhole => "int_parsing_size"
  | .fractionalWhole => "int_from_float"
  | .infiniteWhole => "finite_number"
  | .belowOne => "greater_than_equal"
  | .notRecord _ => "model_type"
  | .notOneOf _ => "enum"
  | .refused _ => "value_error"

def message : Complaint → String
  | .missing => "Field required"
  | .notText => "Input should be a valid string"
  | .emptyText => "String should have at least 1 character"
  | .notList => "Input should be a valid list"
  | .notFlag => "Input should be a valid boolean"
  | .unclearFlag => "Input should be a valid boolean, unable to interpret input"
  | .notWhole => "Input should be a valid integer"
  | .unreadableWhole => "Input should be a valid integer, unable to parse string as an integer"
  | .oversizedWhole => "Unable to parse input string as an integer, exceeded maximum size"
  | .fractionalWhole => "Input should be a valid integer, got a number with a fractional part"
  | .infiniteWhole => "Input should be a finite number"
  | .belowOne => "Input should be greater than or equal to 1"
  | .notRecord title => s!"Input should be a valid dictionary or instance of {title}"
  | .notOneOf labels => s!"Input should be {enumerate labels}"
  | .refused reason => s!"Value error, {reason}"

end Complaint

/-- A complaint about the data found along a path of keys and positions. -/
structure Issue where
  path : List String := []
  complaint : Complaint
deriving Repr, DecidableEq

def Issue.place (issue : Issue) : String := ".".intercalate issue.path

end Hydration.Validation
