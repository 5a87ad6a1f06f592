import Hydration.Syntax.Pattern

/-! Statements, suites and clauses. A compound statement is a list of clauses, each with a head and
a suite; the arms of a `match` are the statements of its block. -/

namespace Hydration.Syntax

structure Param where
  star : String := ""
  starGap : Gap := .empty
  name : String
  typing : Option (Around × Expr) := none
  default : Option (Around × Expr) := none
  comma : Option Around := none
  after : Gap := .empty

structure Slash where
  after : Gap := .empty
  comma : Option Around := none

inductive StarParam where
  | mark (comma : Around)
  | param (param : Param)

structure Params where
  posonly : List Param := []
  slash : Option Slash := none
  params : List Param := []
  star : Option StarParam := none
  kwonly : List Param := []
  kwarg : Option Param := none

instance : Inhabited Params := ⟨{}⟩

structure TypeParam where
  star : String := ""
  gap : Gap := .empty
  name : String
  bound : Option (Around × Expr) := none
  default : Option (Around × Expr) := none
  comma : Option Around := none

structure TypeParams where
  before : Gap
  params : List TypeParam
  after : Gap
  behind : Gap

structure AssignTarget where
  target : Expr
  equal : Around

structure ImportName where
  name : Expr
  asName : Option (Around × String) := none
  comma : Option Around := none

inductive ImportNames where
  | star
  | names (parens : Option (Gap × Gap)) (names : List ImportName)

inductive Small where
  | expr (value : Expr)
  | assign (targets : List AssignTarget) (value : Expr)
  | annAssign (target : Expr) (colon : Around) (typing : Expr) (value : Option (Around × Expr))
  | augAssign (target : Expr) (around : Around) (op : String) (value : Expr)
  | return_ (value : Option (Gap × Expr))
  | raise (value : Option (Gap × Expr)) (cause : Option (Around × Expr))
  | assert (gap : Gap) (test : Expr) (message : Option (Around × Expr))
  | del (gap : Gap) (target : Expr)
  | pass
  | break_
  | continue_
  | import_ (gap : Gap) (names : List ImportName)
  | importFrom (afterFrom : Gap) (dots : List Around) (module : Option Expr)
      (beforeImport afterImport : Gap) (names : ImportNames)
  | global (gap : Gap) (names : List (String × Option Around))
  | nonlocal (gap : Gap) (names : List (String × Option Around))
  | typeAlias (gap : Gap) (name : String) (afterName : Gap) (params : Option TypeParams)
      (equal : Around) (value : Expr)

instance : Inhabited Small := ⟨.pass⟩

structure Entry where
  stmt : Small
  semi : Option Around := none

structure Line where
  leading : List EmptyLine := []
  entries : List Entry
  tail : LineTail := {}

structure Decorator where
  leading : List EmptyLine := []
  gap : Gap := .empty
  value : Expr
  tail : LineTail := {}

structure FuncHead where
  leading : List EmptyLine := []
  decorators : List Decorator := []
  afterDecorators : List EmptyLine := []
  asyncGap : Option Gap := none
  gap : Gap := .space
  name : String
  afterName : Gap := .empty
  typeParams : Option TypeParams := none
  beforeParams : Gap := .empty
  params : Params := {}
  returns : Option (Around × Expr) := none
  beforeColon : Gap := .empty

structure ClassHead where
  leading : List EmptyLine := []
  decorators : List Decorator := []
  afterDecorators : List EmptyLine := []
  gap : Gap := .space
  name : String
  afterName : Gap := .empty
  typeParams : Option TypeParams := none
  parens : Option (Gap × Gap) := none
  bases : List Member := []
  keywords : List Member := []
  beforeColon : Gap := .empty

structure WithItem where
  value : Expr
  target : Option (Around × Expr) := none
  comma : Option Around := none

inductive ClauseHead where
  | if_ (gap : Gap) (test : Expr)
  | elif (gap : Gap) (test : Expr)
  | else_
  | while_ (gap : Gap) (test : Expr)
  | for_ (asyncGap : Option Gap) (gap : Gap) (target : Expr) (aroundIn : Around) (iter : Expr)
  | with_ (asyncGap : Option Gap) (gap : Gap) (parens : Option (Gap × Gap)) (items : List WithItem)
  | try_
  | except (value : Option (Gap × Expr)) (name : Option (Around × String))
  | exceptStar (beforeStar afterStar : Gap) (value : Expr) (name : Option (Around × String))
  | finally_
  | match_ (gap : Gap) (subject : Expr)
  | case (gap : Gap) (pattern : Pattern) (guard : Option (Around × Expr))

mutual

inductive Stmt where
  | line (line : Line)
  | func (head : FuncHead) (body : Suite)
  | class_ (head : ClassHead) (body : Suite)
  | compound (clauses : List Clause)

/-- The body of a clause: an indented block, or statements on the line of the clause. An indent of
`none` is the module's usual one. -/
inductive Suite where
  | block (header : LineTail) (indent : Option String) (body : List Stmt) (footer : List EmptyLine)
  | inline (gap : Gap) (entries : List Entry) (tail : LineTail)

inductive Clause where
  | mk (leading : List EmptyLine) (head : ClauseHead) (beforeColon : Gap) (body : Suite)

end

instance : Inhabited Suite := ⟨.block {} none [] []⟩
instance : Inhabited Stmt := ⟨.compound []⟩

def Clause.leading : Clause → List EmptyLine
  | .mk leading _ _ _ => leading

def Clause.head : Clause → ClauseHead
  | .mk _ head _ _ => head

def Clause.body : Clause → Suite
  | .mk _ _ _ body => body

def Clause.withLeading (leading : List EmptyLine) : Clause → Clause
  | .mk _ head beforeColon body => .mk leading head beforeColon body

def Stmt.leading : Stmt → List EmptyLine
  | .line l => l.leading
  | .func head _ => head.leading
  | .class_ head _ => head.leading
  | .compound [] => []
  | .compound (clause :: _) => clause.leading

def Stmt.withLeading (leading : List EmptyLine) : Stmt → Stmt
  | .line l => .line { l with leading }
  | .func head body => .func { head with leading } body
  | .class_ head body => .class_ { head with leading } body
  | .compound [] => .compound []
  | .compound (clause :: clauses) => .compound (clause.withLeading leading :: clauses)

/-- A module. Its header is what stands above the first statement, its footer what follows the
last. -/
structure Module where
  header : List EmptyLine := []
  body : List Stmt := []
  footer : List EmptyLine := []
  style : Style := {}
  endsLine : Bool := true

instance : Inhabited Module := ⟨{}⟩

end Hydration.Syntax
