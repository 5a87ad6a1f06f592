import Hydration.Syntax.Layout

/-! Expressions as they are written. Every gap stands between two tokens of one construct, so an
expression starts and ends with a token, and brackets around an expression are a node of their
own. -/

namespace Hydration.Syntax

/-- The gaps on both sides of a mark: a comma, a colon, an operator. -/
structure Around where
  before : Gap := .empty
  after : Gap := .empty
deriving Repr, DecidableEq, Inhabited

mutual

inductive Expr where
  | name (id : String)
  | number (text : String)
  | string (text : String)
  | format (opening : String) (parts : List FormatPart) (closing : String)
  | joined (left : Expr) (gap : Gap) (right : Expr)
  | ellipsis
  | paren (before : Gap) (inner : Expr) (after : Gap)
  | tuple (members : List Member)
  | list (before : Gap) (members : List Member) (after : Gap)
  | set (before : Gap) (members : List Member) (after : Gap)
  | dict (before : Gap) (members : List Member) (after : Gap)
  | listComp (before : Gap) (element : Expr) (clauses : List CompClause) (after : Gap)
  | setComp (before : Gap) (element : Expr) (clauses : List CompClause) (after : Gap)
  | dictComp (before : Gap) (key : Expr) (colon : Around) (value : Expr)
      (clauses : List CompClause) (after : Gap)
  | generator (element : Expr) (clauses : List CompClause)
  | attribute (value : Expr) (dot : Around) (attr : String)
  | subscript (value : Expr) (gap before : Gap) (members : List Member) (after : Gap)
  | call (func : Expr) (gap before : Gap) (args : List Member) (after : Gap)
  | unary (op : String) (gap : Gap) (operand : Expr)
  | binary (left : Expr) (around : Around) (op : String) (right : Expr)
  | boolean (left : Expr) (around : Around) (op : String) (right : Expr)
  | compare (left : Expr) (rest : List Comparison)
  | conditional (body : Expr) (aroundIf : Around) (test : Expr) (aroundElse : Around)
      (otherwise : Expr)
  | lambda (gap : Gap) (params : List LambdaParam) (colon : Around) (body : Expr)
  | assigned (target : String) (around : Around) (value : Expr)
  | starred (gap : Gap) (value : Expr)
  | await (gap : Gap) (value : Expr)
  | yield
  | yieldValue (gap : Gap) (value : Expr)
  | yieldFrom (beforeFrom gap : Gap) (value : Expr)

inductive FormatPart where
  | text (text : String)
  | field (before : Gap) (value : Expr) (equal : Option Around) (after : Gap)
      (conversion : Option String) (hasSpec : Bool) (spec : List FormatPart)

/-- A member of a list separated by commas. A starred element or argument is an `item` whose value
is `starred`. -/
inductive Member where
  | item (value : Expr) (comma : Option Around)
  | keyword (name : String) (equal : Around) (value : Expr) (comma : Option Around)
  | spread (gap : Gap) (value : Expr) (comma : Option Around)
  | pair (key : Expr) (colon : Around) (value : Expr) (comma : Option Around)
  | slice (lower : Option Expr) (colon : Around) (upper : Option Expr)
      (stepColon : Option Around) (step : Option Expr) (comma : Option Around)

inductive CompClause where
  | loop (before : Gap) (asyncGap : Option Gap) (afterFor : Gap) (target : Expr) (aroundIn : Around)
      (iter : Expr)
  | filter (before afterIf : Gap) (test : Expr)

/-- A comparison operator of one or two words, and what stands to its right. -/
inductive Comparison where
  | mk (around : Around) (op : String) (second : Option (Gap × String)) (right : Expr)

inductive LambdaParam where
  | param (star : String) (starGap : Gap) (name : String) (equal : Around) (value : Option Expr)
      (comma : Option Around)
  | mark (text : String) (comma : Option Around)

end

instance : Inhabited Expr := ⟨.ellipsis⟩

/-- An expression without the brackets around it. -/
def Expr.core : Expr → Expr
  | .paren _ inner _ => inner.core
  | e => e

/-- The expression of a member, without the star in front of it. -/
def Member.value? : Member → Option Expr
  | .item (.starred _ value) _ => some value
  | .item value _ => some value
  | .keyword _ _ value _ => some value
  | .spread _ value _ => some value
  | .pair .. => none
  | .slice .. => none

def Member.comma : Member → Option Around
  | .item _ comma => comma
  | .keyword _ _ _ comma => comma
  | .spread _ _ comma => comma
  | .pair _ _ _ comma => comma
  | .slice _ _ _ _ _ comma => comma

def Member.withComma (comma : Option Around) : Member → Member
  | .item value _ => .item value comma
  | .keyword name equal value _ => .keyword name equal value comma
  | .spread gap value _ => .spread gap value comma
  | .pair key colon value _ => .pair key colon value comma
  | .slice lower colon upper stepColon step _ => .slice lower colon upper stepColon step comma

/-- Keyword arguments and spread mappings end the positional part of an argument list. -/
def Member.isKeyword : Member → Bool
  | .keyword .. => true
  | .spread .. => true
  | _ => false

end Hydration.Syntax
