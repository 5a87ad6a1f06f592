import Hydration.Syntax.Expr

/-! The patterns of `match` statements. -/

namespace Hydration.Syntax

mutual

/-- Literals and dotted names are a `value`; a name alone is a `capture`, the wildcard included. -/
inductive Pattern where
  | value (value : Expr)
  | capture (name : String)
  | named (pattern : Pattern) (around : Around) (name : String)
  | either (left : Pattern) (around : Around) (right : Pattern)
  | paren (before : Gap) (inner : Pattern) (after : Gap)
  | open_ (members : List PatternMember)
  | list (before : Gap) (members : List PatternMember) (after : Gap)
  | tuple (before : Gap) (members : List PatternMember) (after : Gap)
  | star (gap : Gap) (name : String)
  | mapping (before : Gap) (members : List PatternMember) (after : Gap)
  | class_ (name : Expr) (gap before : Gap) (members : List PatternMember) (after : Gap)

inductive PatternMember where
  | item (pattern : Pattern) (comma : Option Around)
  | keyed (key : Expr) (colon : Around) (pattern : Pattern) (comma : Option Around)
  | keyword (name : String) (equal : Around) (pattern : Pattern) (comma : Option Around)
  | rest (gap : Gap) (name : String) (comma : Option Around)

end

instance : Inhabited Pattern := ⟨.capture "_"⟩

def PatternMember.withComma (comma : Option Around) : PatternMember → PatternMember
  | .item pattern _ => .item pattern comma
  | .keyed key colon pattern _ => .keyed key colon pattern comma
  | .keyword name equal pattern _ => .keyword name equal pattern comma
  | .rest gap name _ => .rest gap name comma

end Hydration.Syntax
