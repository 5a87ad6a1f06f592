import Hydration.Syntax.Grammar.Pattern

/-! The grammar of statements, and the rules tied together. -/

namespace Hydration.Syntax

open Hydration.Syntax.Parser

def assignValue (r : Rules) : Parser (Around × Expr) := do
  return (← mark "=", ← yieldOrStarExpressions r)

def annotated (r : Rules) (target : Expr) : Parser Small := do
  let colon ← mark ":"
  let typing ← r.expression
  return .annAssign target colon typing (← optional (assignValue r))

def augmentedOperators : List String :=
  ["+=", "-=", "*=", "@=", "/=", "%=", "&=", "|=", "^=", "<<=", ">>=", "**=", "//="]

def assignTarget (r : Rules) : Parser AssignTarget := do
  let target ← starTargets r
  return ⟨target, ← mark "="⟩

def assignment (r : Rules) : Parser Small := (do
  annotated r (.name (← name).text)) <|> (do
  annotated r (← attributeOrSubscript r)) <|> (do
  let targets ← atLeastOne (assignTarget r)
  let value ← yieldOrStarExpressions r
  guardNot (nextIs "=")
  return .assign targets value) <|> (do
  let target ← singleTargetRule r
  let op ← anyOf augmentedOperators
  let gap ← nextGap
  return .augAssign target ⟨op.gap, gap⟩ op.text (← yieldOrStarExpressions r))

def operand (p : Parser Expr) : Parser (Gap × Expr) := do
  let gap ← nextGap
  return (gap, ← p)

def returnStatement (r : Rules) : Parser Small := do
  let _ ← lit "return"
  return .return_ (← optional (operand (starExpressions r)))

def raiseStatement (r : Rules) : Parser Small := do
  let _ ← lit "raise"
  match ← optional (operand r.expression) with
  | some value => return .raise (some value) (← optional (do return (← mark "from", ← r.expression)))
  | none => return .raise none none

def joinNames : String → List (Around × String) → List (String × Option Around)
  | last, [] => [(last, none)]
  | first, (comma, second) :: rest => (first, some comma) :: joinNames second rest

def nameList : Parser (List (String × Option Around)) := do
  let first ← name
  let rest ← many (do return (← comma, (← name).text))
  return joinNames first.text rest

def deleteStatement (r : Rules) : Parser Small := do
  let _ ← lit "del"
  let gap ← nextGap
  let members ← deleteTargets r
  guard (next fun w => w.text == ";" || w.kind == .newline)
  match members with
  | [.item single none] => return .del gap single
  | members => return .del gap (.tuple members)

def assertStatement (r : Rules) : Parser Small := do
  let _ ← lit "assert"
  let gap ← nextGap
  let test ← r.expression
  return .assert gap test (← optional (do return (← comma, ← r.expression)))

def dottedName : Parser Expr := dottedValue

def importAlias : Parser (Around × String) := do
  let around ← mark "as"
  return (around, (← name).text)

def ImportName.withComma (comma : Option Around) (item : ImportName) : ImportName :=
  { item with comma }

def importStatement : Parser Small := do
  let _ ← lit "import"
  let gap ← nextGap
  let item : Parser ImportName := do
    let path ← dottedName
    return { name := path, asName := ← optional importAlias }
  return .import_ gap (← separated ImportName.withComma item)

def importedName : Parser ImportName := do
  let target ← name
  return { name := .name target.text, asName := ← optional importAlias }

def importTargets : Parser ImportNames := (do
  let _ ← lit "("
  let before ← nextGap
  let names ← separatedTrailing ImportName.withComma importedName
  let close ← lit ")"
  return .names (some (before, close.gap)) names) <|> (do
  let names ← separated ImportName.withComma importedName
  guardNot (nextIs ",")
  return .names none names) <|> (do
  let _ ← lit "*"
  return .star)

/-- The dots of a relative import; an ellipsis stands for three. -/
def importDots : Parser (List Gap) := do
  let pieces ← many (do
    let w ← anyOf [".", "..."]
    return if w.text == "." then [w.gap] else [w.gap, .empty, .empty])
  return pieces.flatten

/-- The gap before the first dot belongs to `from`, the one before the module to the last dot. -/
def placeDots (moduleGap : Gap) : List Gap → List Around
  | [] => []
  | [last] => [⟨last, moduleGap⟩]
  | gap :: rest => ⟨gap, .empty⟩ :: placeDots moduleGap rest

def importFromStatement : Parser Small := do
  let _ ← lit "from"
  let afterFrom ← nextGap
  let dots ← importDots
  let dots := match dots with
    | [] => []
    | _ :: rest => Gap.empty :: rest
  let moduleGap ← nextGap
  let path ← if dots.isEmpty then (do return some (← dottedName)) else optional dottedName
  let w ← lit "import"
  let afterImport ← nextGap
  let names ← importTargets
  let moduleGap := if path.isSome then moduleGap else .empty
  return .importFrom afterFrom (placeDots moduleGap dots) path w.gap afterImport names

def TypeParam.withComma (comma : Option Around) (param : TypeParam) : TypeParam :=
  { param with comma }

def typeParam (r : Rules) : Parser TypeParam := do
  let typing (text : String) : Parser (Option (Around × Expr)) :=
    optional (do return (← mark text, ← r.expression))
  (do
    let target ← name
    let bound ← typing ":"
    return { name := target.text, bound, default := ← typing "=" }) <|> (do
    let star ← lit "*"
    let gap ← nextGap
    let target ← name
    let default ← optional (do return (← mark "=", ← starExpression r))
    return { star := star.text, gap, name := target.text, default }) <|> (do
    let star ← lit "**"
    let gap ← nextGap
    let target ← name
    return { star := star.text, gap, name := target.text, default := ← typing "=" })

def typeParams (r : Rules) : Parser TypeParams := do
  let _ ← lit "["
  let before ← nextGap
  let params ← separatedTrailing TypeParam.withComma (typeParam r)
  let close ← lit "]"
  return ⟨before, params, close.gap, ← nextGap⟩

def typeStatement (r : Rules) : Parser Small := do
  let _ ← lit "type"
  let gap ← nextGap
  let target ← name
  let afterName ← nextGap
  let params ← optional (typeParams r)
  let equal ← mark "="
  let afterName := if params.isSome then afterName else .empty
  let before := if params.isSome then Gap.empty else equal.before
  return .typeAlias gap target.text afterName params { equal with before } (← r.expression)

def smallStatement (r : Rules) : Parser Small :=
  (do guard (nextIs "type"); typeStatement r) <|>
  assignment r <|>
  (do return .expr (← starExpressions r)) <|>
  returnStatement r <|>
  importStatement <|>
  importFromStatement <|>
  raiseStatement r <|>
  (do let _ ← lit "pass"; return .pass) <|>
  deleteStatement r <|>
  (do return .expr (← yieldExpr r)) <|>
  assertStatement r <|>
  (do let _ ← lit "break"; return .break_) <|>
  (do let _ ← lit "continue"; return .continue_) <|>
  (do
    let _ ← lit "global"
    let gap ← nextGap
    return .global gap (← nameList)) <|>
  (do
    let _ ← lit "nonlocal"
    let gap ← nextGap
    return .nonlocal gap (← nameList))

def joinEntries : Small → List (Around × Small) → Option Around → List Entry
  | last, [], trailing => [⟨last, trailing⟩]
  | first, (semi, second) :: rest, trailing => ⟨first, some semi⟩ :: joinEntries second rest trailing

def smallStatements (r : Rules) : Parser (List Entry × LineTail) := do
  let first ← smallStatement r
  let rest ← many (do return (← comma ";", ← smallStatement r))
  let trailing ← optional (comma ";")
  let w ← kind .newline
  return (joinEntries first rest trailing, w.tail)

def lineStatement (r : Rules) : Parser Stmt := do
  let start ← peek
  let (entries, tail) ← smallStatements r
  return .line { leading := start.lines, entries, tail }

def suite (r : Rules) : Parser Suite := (do
  let header ← kind .newline
  let indent ← kind .indent
  let body ← atLeastOne r.statement
  let close ← kind .dedent
  let style ← style
  let text := if indent.text == style.indent then none else some indent.text
  return .block header.tail text body close.lines) <|> (do
  let gap ← nextGap
  let (entries, tail) ← smallStatements r
  return .inline gap entries tail)

def clauseEnd (r : Rules) (leading : List EmptyLine) (head : ClauseHead) : Parser Clause := do
  let colon ← lit ":"
  return .mk leading head colon.gap (← suite r)

def param (r : Rules) (star : String) (starGap : Gap) : Parser Param := do
  let target ← name
  let typing ← optional (do return (← mark ":", ← r.expression))
  return { star, starGap, name := target.text, typing }

def finishParam (p : Param) : Parser Param := do
  return { p with comma := ← endsParam ")" }

def plainParam (r : Rules) (star : String) (starGap : Gap) : Parser Param := do
  finishParam (← param r star starGap)

def defaultParam (r : Rules) : Parser Param := do
  let p ← param r "" .empty
  let equal ← mark "="
  let value ← r.expression
  finishParam { p with default := some (equal, value) }

def anyParam (r : Rules) : Parser Param := plainParam r "" .empty <|> defaultParam r

def keywordsParam (r : Rules) : Parser Param := do
  let _ ← lit "**"
  let gap ← nextGap
  plainParam r "**" gap

/-- The parameter for the remaining positional arguments may be annotated with a starred type. -/
def starredParam (r : Rules) : Parser Param := do
  let _ ← lit "*"
  let gap ← nextGap
  plainParam r "*" gap <|> (do
    let target ← name
    let colon ← mark ":"
    let typing ← starExpression r
    finishParam { star := "*", starGap := gap, name := target.text, typing := some (colon, typing) })

def starParams (r : Rules) : Parser (Option StarParam × List Param × Option Param) := (do
  let star ← starredParam r
  let kwonly ← many (anyParam r)
  return (some (.param star), kwonly, ← optional (keywordsParam r))) <|> (do
  let _ ← lit "*"
  let comma ← comma
  let kwonly ← atLeastOne (anyParam r)
  return (some (.mark comma), kwonly, ← optional (keywordsParam r))) <|> (do
  return (none, [], some (← keywordsParam r)))

def slashMark : Parser Slash := do
  let _ ← lit "/"
  let gap ← nextGap
  match ← endsParam ")" with
  | some comma => return { after := gap, comma := some { comma with before := .empty } }
  | none => return { after := gap }

def paramList (r : Rules) : Parser Params := do
  let plain ← many (plainParam r "" .empty)
  let defaults ← many (defaultParam r)
  let first := plain ++ defaults
  let slash ← if first.isEmpty then Parser.pure none else optional slashMark
  let rest ← if slash.isSome then (do
      let plain ← if defaults.isEmpty then many (plainParam r "" .empty) else Parser.pure []
      return plain ++ (← many (defaultParam r)))
    else Parser.pure []
  let star ← optional (starParams r)
  guard (Parser.pure (!first.isEmpty || star.isSome))
  let (star, kwonly, kwarg) := star.getD (none, [], none)
  if slash.isSome then return { posonly := first, slash, params := rest, star, kwonly, kwarg }
  else return { params := first, star, kwonly, kwarg }

def setLastAfter (gap : Gap) : List Param → List Param
  | [] => []
  | [p] => [if p.comma.isSome then p else { p with after := gap }]
  | p :: rest => p :: setLastAfter gap rest

/-- The gap before the closing bracket belongs to the last parameter without a comma. -/
def Params.closeWith (gap : Gap) (params : Params) : Params :=
  match params.kwarg with
  | some p => { params with kwarg := (setLastAfter gap [p]).head? }
  | none =>
    if !params.kwonly.isEmpty then { params with kwonly := setLastAfter gap params.kwonly }
    else match params.star with
      | some (.param p) => { params with star := (setLastAfter gap [p]).head?.map .param }
      | _ => { params with params := setLastAfter gap params.params }

def function (r : Rules) (leading : List EmptyLine) (decorators : List Decorator)
    (afterDecorators : List EmptyLine) : Parser Stmt := do
  let asyncGap ← optional (do let _ ← kind .asyncWord; nextGap)
  let _ ← lit "def"
  let gap ← nextGap
  let target ← name
  let afterName ← nextGap
  let typeParams ← optional (typeParams r)
  let _ ← lit "("
  let beforeParams ← nextGap
  let params ← optional (paramList r)
  let close ← lit ")"
  let params := match params with
    | some params => params.closeWith close.gap
    | none => {}
  let returns ← optional (do return (← mark "->", ← r.expression))
  let colon ← lit ":"
  let body ← suite r
  return .func
    { leading, decorators, afterDecorators, asyncGap, gap, name := target.text, afterName
      typeParams, beforeParams, params, returns, beforeColon := colon.gap } body

/-- The positional part of a base list ends at the first keyword. -/
def splitBases : List Member → List Member × List Member
  | [] => ([], [])
  | member :: rest =>
    if member.isKeyword then ([], member :: rest)
    else
      let (bases, keywords) := splitBases rest
      (member :: bases, keywords)

def classStatement (r : Rules) (leading : List EmptyLine) (decorators : List Decorator)
    (afterDecorators : List EmptyLine) : Parser Stmt := do
  let _ ← lit "class"
  let gap ← nextGap
  let target ← name
  let afterName ← nextGap
  let typeParams ← optional (typeParams r)
  let parens ← optional (do
    let _ ← lit "("
    let before ← nextGap
    let args ← optional (arguments r)
    let close ← lit ")"
    return (before, args.getD [], if args.isSome then close.gap else .empty))
  let colon ← lit ":"
  let opened := typeParams.isSome || parens.isSome
  let beforeColon := if typeParams.isSome && parens.isNone then .empty else colon.gap
  let body ← suite r
  let (bases, keywords) := splitBases ((parens.map (·.2.1)).getD [])
  return .class_
    { leading, decorators, afterDecorators, gap, name := target.text
      afterName := if opened then afterName else .empty
      typeParams
      parens := parens.map fun (before, _, after) => (before, after)
      bases, keywords, beforeColon } body

def decorator (r : Rules) : Parser Decorator := do
  let start ← lit "@"
  let gap ← nextGap
  let value ← namedExpression r
  let close ← kind .newline
  return { leading := start.lines, gap, value, tail := close.tail }

/-- The lines above the first decorator are the lines above the whole statement. -/
def definition (r : Rules) : Parser Stmt := do
  let decorators ← many (decorator r)
  let lines := (← peek).lines
  let (leading, decorators, afterDecorators) := match decorators with
    | [] => (lines, [], [])
    | first :: rest => (first.leading, { first with leading := [] } :: rest, lines)
  function r leading decorators afterDecorators <|>
    classStatement r leading decorators afterDecorators

def testClause (r : Rules) (word : String) (head : Gap → Expr → ClauseHead) : Parser Clause := do
  let start ← lit word
  let gap ← nextGap
  let test ← namedExpression r
  clauseEnd r start.lines (head gap test)

def elseClause (r : Rules) : Parser Clause := do
  let start ← lit "else"
  clauseEnd r start.lines .else_

def finallyClause (r : Rules) : Parser Clause := do
  let start ← lit "finally"
  clauseEnd r start.lines .finally_

def ifStatement (r : Rules) : Parser Stmt := do
  let first ← testClause r "if" .if_
  let more ← many (testClause r "elif" .elif)
  return .compound (first :: more ++ (← optional (elseClause r)).toList)

def whileStatement (r : Rules) : Parser Stmt := do
  let first ← testClause r "while" .while_
  return .compound (first :: (← optional (elseClause r)).toList)

def asyncGap : Parser (Option Gap) := optional (do let _ ← kind .asyncWord; nextGap)

def forStatement (r : Rules) : Parser Stmt := do
  let start ← peek
  let asyncGap ← asyncGap
  let _ ← lit "for"
  let gap ← nextGap
  let target ← starTargets r
  let aroundIn ← mark "in"
  let iter ← starExpressions r
  let first ← clauseEnd r start.lines (.for_ asyncGap gap target aroundIn iter)
  return .compound (first :: (← optional (elseClause r)).toList)

def WithItem.withComma (comma : Option Around) (item : WithItem) : WithItem := { item with comma }

def withItem (r : Rules) : Parser WithItem := do
  let value ← r.expression
  (do
    let around ← mark "as"
    let target ← starTargetRule r
    guard (nextIsOf [",", ")", ":"])
    return { value, target := some (around, target) }) <|> Parser.pure { value := value }

/-- The head of a `with` statement up to its colon: its items may stand in brackets. -/
def withHead (r : Rules) : Parser (ClauseHead × Gap) := do
  let asyncGap ← asyncGap
  let _ ← lit "with"
  let gap ← nextGap
  (do
    let _ ← lit "("
    let before ← nextGap
    let items ← separatedTrailing WithItem.withComma (withItem r)
    let close ← lit ")"
    let colon ← lit ":"
    return (.with_ asyncGap gap (some (before, close.gap)) items, colon.gap)) <|> (do
    let items ← separated WithItem.withComma (withItem r)
    let colon ← lit ":"
    return (.with_ asyncGap gap none items, colon.gap))

def withStatement (r : Rules) : Parser Stmt := do
  let start ← peek
  let (head, beforeColon) ← withHead r
  return .compound [.mk start.lines head beforeColon (← suite r)]

def exceptName : Parser (Option (Around × String)) := optional importAlias

def exceptClause (r : Rules) : Parser Clause := do
  let start ← lit "except"
  (do
    let value ← operand r.expression
    let asName ← exceptName
    clauseEnd r start.lines (.except (some value) asName)) <|>
  clauseEnd r start.lines (.except none none)

def exceptStarClause (r : Rules) : Parser Clause := do
  let start ← lit "except"
  let star ← lit "*"
  let gap ← nextGap
  let value ← r.expression
  let asName ← exceptName
  clauseEnd r start.lines (.exceptStar star.gap gap value asName)

def tryStatement (r : Rules) : Parser Stmt := do
  let start ← lit "try"
  let first ← clauseEnd r start.lines .try_
  let handlers (clause : Parser Clause) : Parser Stmt := do
    let caught ← atLeastOne clause
    let otherwise ← optional (elseClause r)
    let final ← optional (finallyClause r)
    return .compound (first :: caught ++ otherwise.toList ++ final.toList)
  (do return .compound [first, ← finallyClause r]) <|> handlers (exceptClause r) <|>
    handlers (exceptStarClause r)

def matchSubject (r : Rules) : Parser Expr := do
  let first ← starNamedExpression r
  if ← nextIs "," then
    return .tuple (← separatedAfter Member.withComma (.item first none) (starNamedMember r))
  else if isStarred first then
    let _ ← lit ","
    fail
  else return first

def matchArm (r : Rules) : Parser Stmt := do
  let start ← lit "case"
  let gap ← nextGap
  let pattern ← armPattern r
  let test ← optional (do return (← mark "if", ← namedExpression r))
  return .compound [← clauseEnd r start.lines (.case gap pattern test)]

def matchStatement (r : Rules) : Parser Stmt := do
  let start ← lit "match"
  let gap ← nextGap
  let subject ← matchSubject r
  let colon ← lit ":"
  let header ← kind .newline
  let indent ← kind .indent
  let arms ← atLeastOne (matchArm r)
  let close ← kind .dedent
  let style ← style
  let text := if indent.text == style.indent then none else some indent.text
  return .compound [.mk start.lines (.match_ gap subject) colon.gap
    (.block header.tail text arms close.lines)]

def startsDefinition : Parser Bool := next fun w =>
  w.text == "def" || w.text == "@" || w.text == "class" || w.kind == .asyncWord

def compoundStatement (r : Rules) : Parser Stmt :=
  (do guard startsDefinition; definition r) <|>
  (do guard (nextIs "if"); ifStatement r) <|>
  (do guard (next fun w => w.text == "with" || w.kind == .asyncWord); withStatement r) <|>
  (do guard (next fun w => w.text == "for" || w.kind == .asyncWord); forStatement r) <|>
  (do guard (nextIs "try"); tryStatement r) <|>
  (do guard (nextIs "while"); whileStatement r) <|>
  matchStatement r

def statementRule (r : Rules) : Parser Stmt := compoundStatement r <|> lineStatement r

def Rules.deepen (r : Rules) : Rules where
  expression := expressionRule r
  disjunction := disjunctionRule r
  inversion := inversionRule r
  bitwiseOr := bitwiseOrRule r
  factor := factorRule r
  formatParts := formatPartsRule r
  starTarget := starTargetRule r
  singleTarget := singleTargetRule r
  deleteTarget := deleteTargetRule r
  pattern := patternRule r
  statement := statementRule r

def Rules.upTo : Nat → Rules
  | 0 => .none
  | depth + 1 => (Rules.upTo depth).deepen

end Hydration.Syntax
