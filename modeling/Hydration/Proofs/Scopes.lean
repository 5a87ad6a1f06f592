import Hydration.Proofs.ElementTargets
import Hydration.Proofs.Execution

/-! Names in the scope of a function: which of them its body binds, and which it reads from outside.
Functions, lambdas and comprehensions have scopes of their own, and the names of a class are not seen by
its methods. -/

namespace Hydration.Syntax

def Member.exprs : Member → List Expr
  | .item value _ => [value]
  | .keyword _ _ value _ => [value]
  | .spread _ value _ => [value]
  | .pair key _ value _ => [key, value]
  | .slice lower _ upper _ step _ => lower.toList ++ upper.toList ++ step.toList

mutual

def FormatPart.exprs : FormatPart → List Expr
  | .text _ => []
  | .field _ value _ _ _ _ spec => value :: exprsOfParts spec

def exprsOfParts : List FormatPart → List Expr
  | [] => []
  | part :: rest => part.exprs ++ exprsOfParts rest

end

def Comparison.right : Comparison → Expr
  | .mk _ _ _ right => right

def LambdaParam.name? : LambdaParam → Option String
  | .param _ _ name _ _ _ => some name
  | .mark .. => none

def LambdaParam.default? : LambdaParam → Option Expr
  | .param _ _ _ _ value _ => value
  | .mark .. => none

/-- What a clause of a comprehension goes through or tests. -/
def CompClause.value : CompClause → Expr
  | .loop _ _ _ _ _ iter => iter
  | .filter _ _ test => test

def CompClause.target? : CompClause → Option Expr
  | .loop _ _ _ target _ _ => some target
  | .filter .. => none

/-- The elements of a comprehension and its clauses. -/
def Expr.comprehension? : Expr → Option (List Expr × List CompClause)
  | .listComp _ element clauses _ => some ([element], clauses)
  | .setComp _ element clauses _ => some ([element], clauses)
  | .dictComp _ key _ value clauses _ => some ([key, value], clauses)
  | .generator element clauses => some ([element], clauses)
  | _ => none

/-- The parts that are evaluated in the scope of the expression: of a comprehension only what its first
loop goes through, and of a lambda its defaults. -/
def Expr.ownParts : Expr → List Expr
  | .format _ parts _ => exprsOfParts parts
  | .joined left _ right => [left, right]
  | .paren _ inner _ => [inner]
  | .tuple members => members.flatMap Member.exprs
  | .list _ members _ => members.flatMap Member.exprs
  | .set _ members _ => members.flatMap Member.exprs
  | .dict _ members _ => members.flatMap Member.exprs
  | .listComp _ _ clauses _ => clauses.head?.toList.map CompClause.value
  | .setComp _ _ clauses _ => clauses.head?.toList.map CompClause.value
  | .dictComp _ _ _ _ clauses _ => clauses.head?.toList.map CompClause.value
  | .generator _ clauses => clauses.head?.toList.map CompClause.value
  | .attribute value _ _ => [value]
  | .subscript value _ _ members _ => value :: members.flatMap Member.exprs
  | .call func _ _ args _ => func :: args.flatMap Member.exprs
  | .unary _ _ operand => [operand]
  | .binary left _ _ right => [left, right]
  | .boolean left _ _ right => [left, right]
  | .compare left rest => left :: rest.map Comparison.right
  | .conditional body _ test _ otherwise => [body, test, otherwise]
  | .lambda _ params _ _ => params.filterMap LambdaParam.default?
  | .assigned _ _ value => [value]
  | .starred _ value => [value]
  | .await _ value => [value]
  | .yieldValue _ value => [value]
  | .yieldFrom _ _ value => [value]
  | _ => []

/-- The parts of the places that a target assigns to. -/
def Expr.targetParts (target : Expr) : List Expr := target.places.flatMap Expr.ownParts

/-- The parts that are evaluated in a scope of their own. -/
def Expr.innerParts (e : Expr) : List Expr :=
  match e with
  | .lambda _ _ _ body => [body]
  | _ =>
    match e.comprehension? with
    | some (elements, clauses) => elements ++ clauses.tail.map CompClause.value ++
        (clauses.filterMap CompClause.target?).flatMap Expr.targetParts
    | none => []

/-- An expression binds a name in its scope, by an assignment within it. A comprehension lets such an
assignment through, a lambda does not. -/
inductive Expr.Binds (x : String) : Expr → Prop where
  | here {around : Around} {value : Expr} : Binds x (.assigned x around value)
  | own {e part : Expr} (hp : part ∈ e.ownParts) (h : Binds x part) : Binds x e
  | through {e part : Expr} (hc : e.comprehension?.isSome = true) (hp : part ∈ e.innerParts)
      (h : Binds x part) : Binds x e

/-- A name belongs to the scope that an expression has for its inner parts. -/
def Expr.BindsInside (x : String) : Expr → Prop
  | .lambda _ params _ body => x ∈ params.filterMap LambdaParam.name? ∨ body.Binds x
  | e => ∃ inner ∈ e.comprehension?, ∃ target ∈ inner.2.filterMap CompClause.target?,
      .name x ∈ target.places

/-- An expression reads a name of its scope or of one around it, directly or from a scope inside. -/
inductive Expr.Reads (x : String) : Bool → Expr → Prop where
  | here : Reads x false (.name x)
  | own {nested : Bool} {e part : Expr} (hp : part ∈ e.ownParts) (h : Reads x nested part) :
      Reads x nested e
  | inner {nested : Bool} {e part : Expr} (hp : part ∈ e.innerParts) (hx : ¬ e.BindsInside x)
      (h : Reads x nested part) : Reads x true e

def TypeParam.exprs (param : TypeParam) : List Expr :=
  param.bound.toList.map Prod.snd ++ param.default.toList.map Prod.snd

def typeNames (params : Option TypeParams) : List String :=
  (params.toList.flatMap TypeParams.params).map TypeParam.name

def typeExprs (params : Option TypeParams) : List Expr :=
  (params.toList.flatMap TypeParams.params).flatMap TypeParam.exprs

namespace Small

def targets : Small → List Expr
  | .assign targets _ => targets.map AssignTarget.target
  | .annAssign target _ _ _ => [target]
  | .augAssign target _ _ _ => [target]
  | .del _ target => [target]
  | _ => []

/-- What is evaluated besides the targets. An augmented assignment reads its target. -/
def values : Small → List Expr
  | .expr value => [value]
  | .assign _ value => [value]
  | .annAssign _ _ typing value => typing :: value.toList.map Prod.snd
  | .augAssign target _ _ value => [target, value]
  | .return_ value => value.toList.map Prod.snd
  | .raise value cause => value.toList.map Prod.snd ++ cause.toList.map Prod.snd
  | .assert _ test message => test :: message.toList.map Prod.snd
  | .typeAlias _ _ _ params _ value => value :: typeExprs params
  | _ => []

/-- The names that are bound without a target. -/
def names : Small → List String
  | .import_ _ names => names.map fun item => (Imports.bindingOfImport item).1
  | .importFrom _ _ _ _ _ (.names _ names) => names.map Imports.boundBy
  | .typeAlias _ name _ _ _ _ => [name]
  | _ => []

def globals : Small → List String
  | .global _ names => names.map Prod.fst
  | _ => []

def nonlocals : Small → List String
  | .nonlocal _ names => names.map Prod.fst
  | _ => []

/-- The names that stand for the parameters of a type. -/
def typeNames : Small → List String
  | .typeAlias _ _ _ params _ _ => Syntax.typeNames params
  | _ => []

def exprs (small : Small) : List Expr := small.values ++ small.targets.flatMap Expr.targetParts

def Binds (x : String) (small : Small) : Prop :=
  x ∈ small.names ∨ (∃ target ∈ small.targets, .name x ∈ target.places) ∨
    ∃ e ∈ small.exprs, e.Binds x

def Reads (x : String) (nested : Bool) (small : Small) : Prop :=
  x ∉ small.typeNames ∧ ∃ e ∈ small.exprs, e.Reads x nested

end Small

mutual

/-- The names that a pattern binds. -/
def Pattern.captures : Pattern → List String
  | .value _ => []
  | .capture name => if name = "_" then [] else [name]
  | .named pattern _ name => pattern.captures ++ [name]
  | .either left _ right => left.captures ++ right.captures
  | .paren _ inner _ => inner.captures
  | .open_ members => capturesOfMembers members
  | .list _ members _ => capturesOfMembers members
  | .tuple _ members _ => capturesOfMembers members
  | .star _ name => if name = "_" then [] else [name]
  | .mapping _ members _ => capturesOfMembers members
  | .class_ _ _ _ members _ => capturesOfMembers members

def capturesOfMembers : List PatternMember → List String
  | [] => []
  | .item pattern _ :: rest => pattern.captures ++ capturesOfMembers rest
  | .keyed _ _ pattern _ :: rest => pattern.captures ++ capturesOfMembers rest
  | .keyword _ _ pattern _ :: rest => pattern.captures ++ capturesOfMembers rest
  | .rest _ name _ :: rest => name :: capturesOfMembers rest

end

mutual

def Pattern.exprs : Pattern → List Expr
  | .value value => [value]
  | .capture _ => []
  | .named pattern _ _ => pattern.exprs
  | .either left _ right => left.exprs ++ right.exprs
  | .paren _ inner _ => inner.exprs
  | .open_ members => exprsOfPatterns members
  | .list _ members _ => exprsOfPatterns members
  | .tuple _ members _ => exprsOfPatterns members
  | .star _ _ => []
  | .mapping _ members _ => exprsOfPatterns members
  | .class_ name _ _ members _ => name :: exprsOfPatterns members

def exprsOfPatterns : List PatternMember → List Expr
  | [] => []
  | .item pattern _ :: rest => pattern.exprs ++ exprsOfPatterns rest
  | .keyed key _ pattern _ :: rest => key :: pattern.exprs ++ exprsOfPatterns rest
  | .keyword _ _ pattern _ :: rest => pattern.exprs ++ exprsOfPatterns rest
  | .rest _ _ _ :: rest => exprsOfPatterns rest

end

namespace ClauseHead

def targets : ClauseHead → List Expr
  | .for_ _ _ target _ _ => [target]
  | .with_ _ _ _ items => items.flatMap fun item => item.target.toList.map Prod.snd
  | _ => []

def values : ClauseHead → List Expr
  | .if_ _ test => [test]
  | .elif _ test => [test]
  | .while_ _ test => [test]
  | .for_ _ _ _ _ iter => [iter]
  | .with_ _ _ _ items => items.map WithItem.value
  | .except value _ => value.toList.map Prod.snd
  | .exceptStar _ _ value _ => [value]
  | .match_ _ subject => [subject]
  | .case _ pattern guard => pattern.exprs ++ guard.toList.map Prod.snd
  | _ => []

def names : ClauseHead → List String
  | .except _ name => name.toList.map Prod.snd
  | .exceptStar _ _ _ name => name.toList.map Prod.snd
  | .case _ pattern _ => pattern.captures
  | _ => []

def exprs (head : ClauseHead) : List Expr := head.values ++ head.targets.flatMap Expr.targetParts

def Binds (x : String) (head : ClauseHead) : Prop :=
  x ∈ head.names ∨ (∃ target ∈ head.targets, .name x ∈ target.places) ∨ ∃ e ∈ head.exprs, e.Binds x

def Reads (x : String) (nested : Bool) (head : ClauseHead) : Prop :=
  ∃ e ∈ head.exprs, e.Reads x nested

end ClauseHead

/-- The decorators and defaults of a function. -/
def FuncHead.plainExprs (head : FuncHead) : List Expr :=
  head.decorators.map Decorator.value ++
    head.params.all.flatMap fun param => param.default.toList.map Prod.snd

/-- Its annotations, which see the parameters of its types. -/
def FuncHead.typingExprs (head : FuncHead) : List Expr :=
  (head.params.all.flatMap fun param => param.typing.toList.map Prod.snd) ++
    head.returns.toList.map Prod.snd ++ typeExprs head.typeParams

def ClassHead.plainExprs (head : ClassHead) : List Expr := head.decorators.map Decorator.value

def ClassHead.typingExprs (head : ClassHead) : List Expr :=
  (head.bases ++ head.keywords).flatMap Member.exprs ++ typeExprs head.typeParams

/-- A name is bound or read by what stands around the body of a definition. -/
def HeadReads (x : String) (nested : Bool) (types : List String) (plain typing : List Expr) : Prop :=
  (∃ e ∈ plain, e.Reads x nested) ∨ (x ∉ types ∧ ∃ e ∈ typing, e.Reads x nested)

/-- A statement binds a name in its scope. -/
inductive Stmt.Binds (x : String) : Stmt → Prop where
  | line {line : Line} {entry : Entry} (he : entry ∈ line.entries) (h : entry.stmt.Binds x) :
      Binds x (.line line)
  | head {clauses : List Clause} {clause : Clause} (hc : clause ∈ clauses) (h : clause.head.Binds x) :
      Binds x (.compound clauses)
  | body {clauses : List Clause} {clause : Clause} {s : Stmt} (hc : clause ∈ clauses)
      (hs : s ∈ Transform.blockStatements clause.body) (h : Binds x s) : Binds x (.compound clauses)
  | func {head : FuncHead} {body : Suite}
      (h : head.name = x ∨ ∃ e ∈ head.plainExprs ++ head.typingExprs, e.Binds x) :
      Binds x (.func head body)
  | class_ {head : ClassHead} {body : Suite}
      (h : head.name = x ∨ ∃ e ∈ head.plainExprs ++ head.typingExprs, e.Binds x) :
      Binds x (.class_ head body)

/-- A small statement with a property stands in the scope of a statement. -/
inductive Stmt.Within (P : Small → Prop) : Stmt → Prop where
  | line {line : Line} {entry : Entry} (he : entry ∈ line.entries) (h : P entry.stmt) :
      Within P (.line line)
  | body {clauses : List Clause} {clause : Clause} {s : Stmt} (hc : clause ∈ clauses)
      (hs : s ∈ Transform.blockStatements clause.body) (h : Within P s) : Within P (.compound clauses)

/-- A name is declared to belong to a scope around that of a body. -/
def DeclaredOut (x : String) (body : List Stmt) : Prop :=
  ∃ s ∈ body, s.Within fun small => x ∈ small.globals ++ small.nonlocals

def DeclaredGlobal (x : String) (body : List Stmt) : Prop :=
  ∃ s ∈ body, s.Within fun small => x ∈ small.globals

/-- A body binds a name locally. -/
def BoundIn (x : String) (body : List Stmt) : Prop :=
  (∃ s ∈ body, s.Binds x) ∧ ¬ DeclaredOut x body

/-- A name reaches the body of a function from a scope around it. -/
def PassesInto (x : String) (names : List String) (body : List Stmt) : Prop :=
  x ∉ names ∧ ¬ BoundIn x body ∧ ¬ DeclaredGlobal x body

/-- A statement reads a name of its scope or of one around it, directly or from a scope inside. What a
class binds is seen by its own statements, but not by the scopes inside it. -/
inductive Stmt.Reads (x : String) : Bool → Stmt → Prop where
  | line {nested : Bool} {line : Line} {entry : Entry} (he : entry ∈ line.entries)
      (h : entry.stmt.Reads x nested) : Reads x nested (.line line)
  | head {nested : Bool} {clauses : List Clause} {clause : Clause} (hc : clause ∈ clauses)
      (h : clause.head.Reads x nested) : Reads x nested (.compound clauses)
  | body {nested : Bool} {clauses : List Clause} {clause : Clause} {s : Stmt} (hc : clause ∈ clauses)
      (hs : s ∈ Transform.blockStatements clause.body) (h : Reads x nested s) :
      Reads x nested (.compound clauses)
  | signature {nested : Bool} {head : FuncHead} {body : Suite}
      (h : HeadReads x nested (typeNames head.typeParams) head.plainExprs head.typingExprs) :
      Reads x nested (.func head body)
  | function {nested : Bool} {head : FuncHead} {body : Suite} {s : Stmt}
      (hs : s ∈ Transform.blockStatements body)
      (hx : PassesInto x (head.params.names ++ typeNames head.typeParams)
        (Transform.blockStatements body))
      (h : Reads x nested s) : Reads x true (.func head body)
  | bases {nested : Bool} {head : ClassHead} {body : Suite}
      (h : HeadReads x nested (typeNames head.typeParams) head.plainExprs head.typingExprs) :
      Reads x nested (.class_ head body)
  | members {head : ClassHead} {body : Suite} {s : Stmt} (hs : s ∈ Transform.blockStatements body)
      (hx : PassesInto x (typeNames head.typeParams) (Transform.blockStatements body))
      (h : Reads x false s) : Reads x true (.class_ head body)
  | methods {head : ClassHead} {body : Suite} {s : Stmt} (hs : s ∈ Transform.blockStatements body)
      (hx : x ∉ typeNames head.typeParams) (h : Reads x true s) : Reads x true (.class_ head body)

/-- The body of a function with some parameters reads a name from a scope around it. -/
def ReadOutside (x : String) (params : Params) (body : List Stmt) : Prop :=
  x ∉ params.names ∧ ¬ BoundIn x body ∧ ∃ s ∈ body, ∃ nested, s.Reads x nested

end Hydration.Syntax
