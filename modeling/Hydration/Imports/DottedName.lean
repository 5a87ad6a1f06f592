import Hydration.Syntax.Reading
import Hydration.Text.Identifier

/-! Dotted names: chains of attributes that start at a name. -/

namespace Hydration.Syntax

/-- The segments of a dotted name; none for any other expression. -/
def Expr.segments : Expr → List String
  | .name id => [id]
  | .attribute value _ attr =>
    match value.segments with
    | [] => []
    | head :: rest => head :: rest ++ [attr]
  | .paren _ inner _ => inner.segments
  | _ => []

/-- A dotted name as text; empty for any other expression. -/
def Expr.fullName (e : Expr) : String := ".".intercalate e.segments

def checkName (name : String) : Except TreeError String :=
  if name.isEmpty then .error .emptyName
  else if Text.isIdentifier name then .ok name
  else .error (.badName name)

def addSegment (e : Expr) (name : String) : Except TreeError Expr := do
  return .attribute e {} (← checkName name)

def ofSegments : List String → Except TreeError Expr
  | [] => .error .emptyName
  | head :: rest => do
    let head ← checkName head
    rest.foldlM addSegment (.name head)

def splitDots (name : String) : List String :=
  (name.toList.splitOnP (· == '.')).map String.ofList

def Expr.ofDottedName (name : String) : Except TreeError Expr := ofSegments (splitDots name)

def Expr.boundNames : Expr → List String
  | .name id => [id]
  | .paren _ inner _ => inner.boundNames
  | .tuple members => boundNamesOfMembers members
  | .list _ members _ => boundNamesOfMembers members
  | _ => []
where
  boundNamesOfMembers : List Member → List String
    | [] => []
    | .item (.starred _ value) _ :: rest => value.boundNames ++ boundNamesOfMembers rest
    | .item value _ :: rest => value.boundNames ++ boundNamesOfMembers rest
    | _ :: rest => boundNamesOfMembers rest

end Hydration.Syntax
