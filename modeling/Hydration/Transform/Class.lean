import Hydration.Transform.Constructor

/-! Hydrating a component class. Bases and decorators that only make sense in a browser are dropped,
members that the hydrated class replaces are left out, every constructor is prepared, and the
generated members are added. -/

namespace Hydration.Transform

open Syntax

def lastSegment (segments : List String) : String := segments.getLast?.getD ""

/-- A dotted name is listed when the list holds it or its last segment. -/
def isListed (names : List String) (e : Expr) : Bool :=
  match e.segments with
  | [] => false
  | segments => names.contains (".".intercalate segments) || names.contains (lastSegment segments)

def isListedBase (names : List String) (base : Member) : Bool :=
  match base.value? with
  | some value => isListed names value
  | none => false

def dropLastComma : List Member → List Member
  | [] => []
  | [last] => [last.withComma none]
  | base :: rest => base :: dropLastComma rest

/-- Drops the listed bases; the brackets go with the last of them. -/
def dropBases (names : List String) (head : ClassHead) : ClassHead :=
  let kept := head.bases.filter fun base => !isListedBase names base
  if kept.length = head.bases.length then head
  else if head.keywords.isEmpty then
    if kept.isEmpty then { head with bases := [], parens := none }
    else { head with bases := dropLastComma kept }
  else { head with bases := kept }

/-- The expression that names a decorator: a call stands for what it calls. -/
def decoratorTarget (e : Expr) : Expr :=
  match e.core with
  | .call func .. => func
  | _ => e

def dropDecorators (names : List String) (head : ClassHead) : ClassHead :=
  { head with decorators := head.decorators.filter fun d => !isListed names (decoratorTarget d.value) }

def losesBases (plan : Plan) (head : ClassHead) : Bool :=
  !head.bases.isEmpty && (dropBases plan.clientBases head).bases.isEmpty

def replacedNames (cmp : Component) : List String :=
  cmp.events.map EventSpec.emitter ++ cmp.elementMember.toList

def boundName? (e : Expr) : Option String :=
  match e.core with
  | .name id => some id
  | _ => none

/-- A method with one of the names, or an annotation of one without a value. -/
def providesMember (names : List String) : Stmt → Bool
  | .func head _ => names.contains head.name
  | .line { entries := [⟨.annAssign target _ _ none, _⟩], .. } =>
    ((boundName? target).map names.contains).getD false
  | _ => false

def isLine : Stmt → Bool
  | .line _ => true
  | _ => false

def blankLine : EmptyLine := { indented := false }

/-- Sets a member off from the one above, unless lines already stand between them. -/
def withBlank (stmt : Stmt) : Stmt :=
  if stmt.leading.isEmpty then stmt.withLeading [blankLine] else stmt

/-- What becomes of a member: a constructor is prepared, and replaced members are left out. -/
def hydrateMember (plan : Plan) (dropSuper : Bool) (stmt : Stmt) : Except ReadError (List Stmt) :=
  match stmt with
  | .func head body =>
    if head.name == "__init__" then do return [← prepareConstructor plan dropSuper head body]
    else .ok (if providesMember (replacedNames plan.component) stmt then [] else [stmt])
  | _ =>
    .ok (if providesMember (replacedNames plan.component) stmt || isPassLine stmt then [] else [stmt])

def isConstructor : Stmt → Bool
  | .func head _ => head.name == "__init__"
  | _ => false

/-- Puts a constructor behind the lines that start the body. -/
def insertConstructor (constructor : Stmt) (members : List Stmt) : List Stmt :=
  let lines := members.takeWhile isLine
  let constructor := if lines.isEmpty then constructor else withBlank constructor
  match members.dropWhile isLine with
  | [] => lines ++ [constructor]
  | next :: rest => lines ++ constructor :: withBlank next :: rest

def elementMembers (plan : Plan) : Except ReadError (List Stmt) :=
  match plan.component.elementMember with
  | some name => do return [withBlank (← elementGetter plan name)]
  | none => .ok []

def addConstructor (plan : Plan) (body members : List Stmt) : Except ReadError (List Stmt) :=
  if body.any isConstructor then .ok members
  else do return insertConstructor (← newConstructor plan) members

def hydrateBody (plan : Plan) (dropSuper : Bool) (body : List Stmt) :
    Except ReadError (List Stmt) := do
  let members := (← body.mapM (hydrateMember plan dropSuper)).flatten
  let members ← addConstructor plan body members
  let element ← elementMembers plan
  let metadata := withBlank (← metadataMethod plan)
  return members ++ element ++ [metadata]

def hydrateClass (plan : Plan) (head : ClassHead) (body : Suite) : Except ReadError Stmt := do
  let members ← hydrateBody plan (losesBases plan head) (blockStatements body)
  let head := dropDecorators plan.bootstrapDecorators (dropBases plan.clientBases head)
  return .class_ head (withStatements members body)

end Hydration.Transform
