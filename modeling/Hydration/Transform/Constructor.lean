import Hydration.Imports.Header
import Hydration.Transform.Members

/-! Preparing a constructor: it takes the host behind its receiver and starts by registering the
instance and creating the emitters. -/

namespace Hydration.Transform

open Syntax

def hostParam : Param := { name := hostName }

/-- Puts the host behind the receiver, unless a parameter has its name already. -/
def insertHost (params : Params) : Params :=
  if (params.posonly ++ params.params ++ params.kwonly).any fun p => p.name == hostName then params
  else if !params.posonly.isEmpty then { params with params := hostParam :: params.params }
  else match params.params with
    | [] => { params with params := [{ name := "self" }, hostParam] }
    | receiver :: rest => { params with params := receiver :: hostParam :: rest }

def defaultsAreLast : List Param → Bool
  | [] => true
  | param :: rest =>
    if param.default.isSome then rest.all fun p => p.default.isSome else defaultsAreLast rest

def checkParams (params : Params) : Except TreeError Params :=
  if defaultsAreLast (params.posonly ++ params.params) then .ok params
  else .error .plainParamAfterDefault

def receiverOf (params : Params) : String :=
  match params.posonly ++ params.params with
  | [] => "self"
  | receiver :: _ => receiver.name

def isPass : Small → Bool
  | .pass => true
  | _ => false

def isPassLine : Stmt → Bool
  | .line line => line.entries.all fun entry => isPass entry.stmt
  | _ => false

def isSuper (e : Expr) : Bool :=
  match e.core with
  | .name id => id == "super"
  | _ => false

def isSuperCall (e : Expr) : Bool :=
  match e.core with
  | .call func .. => isSuper func
  | _ => false

def isSuperConstructor (e : Expr) : Bool :=
  match e.core with
  | .attribute value _ attr => attr == "__init__" && isSuperCall value
  | _ => false

/-- A lone call of the constructor above. -/
def isSuperLine : Stmt → Bool
  | .line { entries := [⟨.expr value, _⟩], .. } =>
    match value.core with
    | .call func .. => isSuperConstructor func
    | _ => false
  | _ => false

def isName (name : String) (e : Expr) : Bool :=
  match e.core with
  | .name id => id == name
  | _ => false

def isMemberOf (receiver member : String) (e : Expr) : Bool :=
  match e.core with
  | .attribute value _ attr => attr == member && isName receiver value
  | _ => false

/-- Takes the targets `receiver.member` out of an assignment. Nothing is left of one without other
targets. -/
def dropAssignment (receiver member : String) (stmt : Stmt) : Option Stmt :=
  match stmt with
  | .line line =>
    match line.entries with
    | [⟨.annAssign target .., _⟩] => if isMemberOf receiver member target then none else some stmt
    | [⟨.assign targets value, semi⟩] =>
      match targets.filter fun t => !isMemberOf receiver member t.target with
      | [] => none
      | kept => some (.line { line with entries := [⟨.assign kept value, semi⟩] })
    | _ => some stmt
  | _ => some stmt

def blockStatements : Suite → List Stmt
  | .block _ _ body _ => body
  | .inline _ entries _ => [.line { entries }]

/-- A block with the header and footer of the suite and other statements. A suite on the line of its
clause has neither. -/
def withStatements (body : List Stmt) : Suite → Suite
  | .block header indent _ footer => .block header indent body footer
  | .inline .. => .block {} none body []

def keptStatements (cmp : Component) (receiver : String) (dropSuper : Bool) (body : List Stmt) :
    List Stmt :=
  let kept := (body.filter fun s => !isPassLine s).filter fun s => !(dropSuper && isSuperLine s)
  match cmp.elementMember with
  | some member => kept.filterMap (dropAssignment receiver member)
  | none => kept

def spliceBootstrap (start body : List Stmt) : List Stmt :=
  match body with
  | first :: rest => if Imports.isDocstring first then first :: start ++ rest else start ++ body
  | [] => start

def prepareConstructor (plan : Plan) (dropSuper : Bool) (head : FuncHead) (body : Suite) :
    Except ReadError Stmt := do
  let receiver := receiverOf head.params
  let kept := keptStatements plan.component receiver dropSuper (blockStatements body)
  let start ← bootstrap plan receiver
  let params ← (checkParams (insertHost head.params)).mapError .tree
  return .func { head with params } (withStatements (spliceBootstrap start kept) body)

end Hydration.Transform
