import Hydration.Syntax.Grammar.Parser

/-! The grammar of expressions. Rules that contain one another through brackets or keywords meet in
`Rules`; each use of a rule through it follows at least one word, so the number of words bounds the
nesting. -/

namespace Hydration.Syntax

open Hydration.Syntax.Parser

structure Rules where
  expression : Parser Expr
  disjunction : Parser Expr
  inversion : Parser Expr
  bitwiseOr : Parser Expr
  factor : Parser Expr
  formatParts : Parser (List FormatPart)
  starTarget : Parser Expr
  singleTarget : Parser Expr
  deleteTarget : Parser Expr
  pattern : Parser Pattern
  statement : Parser Stmt

/-- The rules beyond the deepest nesting accept nothing. -/
def Rules.none : Rules where
  expression := fail
  disjunction := fail
  inversion := fail
  bitwiseOr := fail
  factor := fail
  formatParts := fail
  starTarget := fail
  singleTarget := fail
  deleteTarget := fail
  pattern := fail
  statement := fail

def keywords : List String :=
  ["False", "None", "True", "and", "as", "assert", "async", "await", "break", "class", "continue",
    "def", "del", "elif", "else", "except", "finally", "for", "from", "global", "if", "import",
    "in", "is", "lambda", "nonlocal", "not", "or", "pass", "raise", "return", "try", "while",
    "with", "yield"]

/-- A name. A keyword is refused without a mark. -/
def name : Parser Word := do
  guardNot (nextIsOf keywords)
  kind .name

def starExpression (r : Rules) : Parser Expr := (do
  let _ ← lit "*"
  let gap ← nextGap
  return .starred gap (← r.bitwiseOr)) <|> r.expression

/-- A comma makes a tuple of what would be a single expression. -/
def tupleOr (first : Expr) (rest : List (Around × Expr)) (trailing : Option Around) : Expr :=
  if rest.isEmpty && trailing.isNone then first
  else .tuple (joinCommas Member.withComma (.item first none)
    (rest.map fun (comma, e) => (comma, .item e none)) trailing)

def starExpressions (r : Rules) : Parser Expr := do
  let first ← starExpression r
  let rest ← many (do return (← comma, ← starExpression r))
  return tupleOr first rest (← optional comma)

def yieldExpr (r : Rules) : Parser Expr := do
  let _ ← lit "yield"
  (do
    let beforeFrom ← lit "from"
    let gap ← nextGap
    let value ← r.expression
    return .yieldFrom beforeFrom.gap gap value) <|> (do
    let gap ← nextGap
    match ← optional (starExpressions r) with
    | some value => return .yieldValue gap value
    | none => return .yield)

def yieldOrStarExpressions (r : Rules) : Parser Expr := yieldExpr r <|> starExpressions r

def namedExpression (r : Rules) : Parser Expr := (do
  let target ← name
  let around ← mark ":="
  return .assigned target.text around (← r.expression)) <|> (do
  let e ← r.expression
  guardNot (nextIs ":=")
  return e)

def starNamedExpression (r : Rules) : Parser Expr := (do
  let _ ← lit "*"
  let gap ← nextGap
  return .starred gap (← r.bitwiseOr)) <|> namedExpression r

def starNamedMember (r : Rules) : Parser Member := do
  return .item (← starNamedExpression r) none

def startsStarOrAssigned : Parser Bool := do
  if ← nextIs "*" then return true else secondIs ":="

def isStarred : Expr → Bool
  | .starred .. => true
  | _ => false

def starTargets (r : Rules) : Parser Expr := do
  let first ← r.starTarget
  let rest ← many (do return (← comma, ← r.starTarget))
  return tupleOr first rest (← optional comma)

def compFilter (r : Rules) : Parser CompClause := do
  let w ← lit "if"
  let gap ← nextGap
  return .filter w.gap gap (← r.disjunction)

def compLoop (r : Rules) : Parser (List CompClause) := do
  let start ← peek
  let asyncGap ← optional (do let _ ← kind .asyncWord; nextGap)
  let _ ← lit "for"
  let afterFor ← nextGap
  let target ← starTargets r
  let aroundIn ← mark "in"
  let iter ← r.disjunction
  let filters ← many (compFilter r)
  return .loop start.gap asyncGap afterFor target aroundIn iter :: filters

def compClauses (r : Rules) : Parser (List CompClause) := do
  return (← atLeastOne (compLoop r)).flatten

def formatField (r : Rules) : Parser FormatPart := do
  let _ ← lit "\x7b"
  let before ← nextGap
  let value ← yieldOrStarExpressions r
  let equal ← optional (mark "=")
  let after ← if equal.isSome then Parser.pure .empty else nextGap
  let conversion ← optional (do
    let _ ← lit "!"
    return (← lit "r" <|> lit "s" <|> lit "a").text)
  let spec ← optional (do
    let _ ← lit ":"
    r.formatParts)
  let _ ← lit "\x7d"
  return .field before value equal after conversion spec.isSome (spec.getD [])

def formatPartsRule (r : Rules) : Parser (List FormatPart) :=
  many ((do return .text (← kind .formatText).text) <|> formatField r)

def formatString (r : Rules) : Parser Expr := do
  let opening ← kind .formatStart
  let parts ← formatPartsRule r
  let closing ← kind .formatEnd
  return .format opening.text parts closing.text

def stringPiece (r : Rules) : Parser (Gap × Expr) := do
  let gap ← nextGap
  (do return (gap, .string (← kind .string).text)) <|> (do return (gap, ← formatString r))

def joinStrings : Gap × Expr → List (Gap × Expr) → Expr
  | (_, first), [] => first
  | (_, first), (gap, second) :: rest => .joined first gap (joinStrings (gap, second) rest)

def strings (r : Rules) : Parser Expr := do
  let first ← stringPiece r
  return joinStrings first (← many (stringPiece r))

def afterParen (r : Rules) : Parser Expr := do
  let before ← nextGap
  let close (inner : Expr) : Parser Expr := do
    let w ← lit ")"
    return .paren before inner w.gap
  (do
    let first ← starNamedExpression r
    if ← nextIs "," then
      let members ← separatedAfter Member.withComma (.item first none) (starNamedMember r)
      close (.tuple members)
    else if isStarred first then
      let _ ← lit ","
      fail
    else (close first) <|> (do close (.generator first (← compClauses r)))) <|>
  (do
    let _ ← lit ")"
    return .paren before (.tuple []) .empty) <|>
  (do close (← yieldExpr r))

def afterSquare (r : Rules) : Parser Expr := do
  let before ← nextGap
  (do
    let first ← starNamedExpression r
    (do
      let members ← separatedAfter Member.withComma (.item first none) (starNamedMember r)
      let w ← lit "]"
      return .list before members w.gap) <|> (do
      guardNot (Parser.pure (isStarred first))
      let clauses ← compClauses r
      let w ← lit "]"
      return .listComp before first clauses w.gap)) <|>
  (do
    let _ ← lit "]"
    return .list before [] .empty)

def dictMember (r : Rules) : Parser Member := (do
  let _ ← lit "**"
  let gap ← nextGap
  return .spread gap (← r.bitwiseOr) none) <|> (do
  let key ← r.expression
  let colon ← mark ":"
  return .pair key colon (← r.expression) none)

def afterBrace (r : Rules) : Parser Expr := do
  let before ← nextGap
  let dictWith (first : Member) : Parser Expr := do
    let members ← separatedAfter Member.withComma first (dictMember r)
    let w ← lit "\x7d"
    return .dict before members w.gap
  let setWith (first : Expr) : Parser Expr := do
    let members ← separatedAfter Member.withComma (.item first none) (starNamedMember r)
    let w ← lit "\x7d"
    return .set before members w.gap
  let setCompWith (element : Expr) : Parser Expr := do
    let clauses ← compClauses r
    let w ← lit "\x7d"
    return .setComp before element clauses w.gap
  (do
    let _ ← lit "**"
    let gap ← nextGap
    let value ← r.bitwiseOr
    dictWith (.spread gap value none)) <|>
  (do
    let e ← r.expression
    (do
      let colon ← mark ":"
      let value ← r.expression
      dictWith (.pair e colon value none) <|> (do
        let clauses ← compClauses r
        let w ← lit "\x7d"
        return .dictComp before e colon value clauses w.gap)) <|> (do
      guardNot (nextIs ":=")
      setWith e <|> setCompWith e)) <|>
  (do
    guard startsStarOrAssigned
    let first ← starNamedExpression r
    setWith first <|> (do
      guardNot (Parser.pure (isStarred first))
      setCompWith first)) <|>
  (do
    let _ ← lit "\x7d"
    return .dict before [] .empty)

def atom (r : Rules) : Parser Expr :=
  (do return .name (← name).text) <|>
  (do return .name (← anyOf ["True", "False", "None"]).text) <|>
  strings r <|>
  (do return .number (← kind .number).text) <|>
  (do let _ ← lit "("; afterParen r) <|>
  (do let _ ← lit "["; afterSquare r) <|>
  (do let _ ← lit "\x7b"; afterBrace r) <|>
  (do let _ ← lit "..."; return .ellipsis)

def sliceAfter (r : Rules) (lower : Option Expr) : Parser Member := do
  let colon ← lit ":"
  let colonGap ← nextGap
  let upper ← optional r.expression
  let around : Around :=
    ⟨if lower.isSome then colon.gap else .empty, if upper.isSome then colonGap else .empty⟩
  let step ← optional (do
    let colon ← lit ":"
    let gap ← nextGap
    let value ← optional r.expression
    return (Around.mk colon.gap (if value.isSome then gap else .empty), value))
  match step with
  | some (stepColon, value) => return .slice lower around upper (some stepColon) value none
  | none => return .slice lower around upper none none none

def slice (r : Rules) : Parser Member := (do
  let lower ← optional r.expression
  sliceAfter r lower <|> (match lower with
    | some e => do
      guardNot (nextIs ":=")
      return .item e none
    | none => fail)) <|> (do
  guard startsStarOrAssigned
  (do
    let _ ← lit "*"
    let gap ← nextGap
    return .item (.starred gap (← r.expression)) none) <|> (do
    return .item (← namedExpression r) none))

def slices (r : Rules) : Parser (List Member) :=
  separatedTrailing Member.withComma (slice r)

def starredArgument (r : Rules) : Parser Member := do
  let _ ← lit "*"
  let gap ← nextGap
  return .item (.starred gap (← r.expression)) none

def keywordArgument (r : Rules) : Parser Member := do
  let target ← name
  let equal ← mark "="
  return .keyword target.text equal (← r.expression) none

def keywordOrStarred (r : Rules) : Parser Member := keywordArgument r <|> starredArgument r

def keywordOrSpread (r : Rules) : Parser Member := keywordArgument r <|> (do
  let _ ← lit "**"
  let gap ← nextGap
  return .spread gap (← r.expression) none)

def positionalArgument (r : Rules) : Parser Member := do
  let argument ← starredArgument r <|> (do return .item (← namedExpression r) none)
  guardNot (nextIs "=")
  return argument

/-- Keyword arguments, starred ones among them, then keyword arguments with spread ones. -/
def keywordArguments (r : Rules) : Parser (List (Option Around × Member)) := do
  let starred ← optional (keywordOrStarred r)
  match starred with
  | some first =>
    let more ← many (do return (some (← comma), ← keywordOrStarred r))
    let spread ← optional (do
      let head ← comma
      let first ← keywordOrSpread r
      let more ← many (do return (some (← comma), ← keywordOrSpread r))
      return (some head, first) :: more)
    return (none, first) :: more ++ spread.getD []
  | none =>
    let first ← keywordOrSpread r
    return (none, first) :: (← many (do return (some (← comma), ← keywordOrSpread r)))

def attachCommas (trailing : Option Around) : List (Option Around × Member) → List Member
  | [] => []
  | [(_, last)] => [last.withComma trailing]
  | (_, member) :: (comma, next) :: rest =>
    member.withComma comma :: attachCommas trailing ((comma, next) :: rest)

def argumentsAfter (r : Rules) (first : Member) : Parser (List (Option Around × Member)) := do
  let rest ← many (do return (some (← comma), ← positionalArgument r))
  let keywords ← optional (do
    let head ← comma
    match ← keywordArguments r with
    | (_, first) :: more => return (some head, first) :: more
    | [] => return [])
  return (none, first) :: rest ++ keywords.getD []

def endArguments (members : List (Option Around × Member)) : Parser (List Member) := do
  let trailing ← optional comma
  guard (nextIs ")")
  return attachCommas trailing members

/-- Arguments that start with a positional one or with keywords. A starred argument that cannot be
read fails for good. -/
def argumentMembers (r : Rules) : Parser (List (Option Around × Member)) :=
  (do argumentsAfter r (← positionalArgument r)) <|> (do
    guardNot (nextIs "*")
    keywordArguments r)

def arguments (r : Rules) : Parser (List Member) := do
  endArguments (← argumentMembers r)

def startsStarOrKeyword : Parser Bool := do
  if ← nextIsOf ["*", "**"] then return true else secondIs "="

def afterCall (r : Rules) (func : Expr) (gap : Gap) : Parser Expr := do
  let before ← nextGap
  let close (args : List Member) : Parser Expr := do
    let w ← lit ")"
    return .call func gap before args (if args.isEmpty then .empty else w.gap)
  (do
    let first ← namedExpression r
    (do close [.item (.generator first (← compClauses r)) none]) <|> (do
      guardNot (nextIs "=")
      let members ← argumentsAfter r (.item first none)
      close (← endArguments members))) <|>
  (do
    guard startsStarOrKeyword
    close (← arguments r)) <|>
  close []

def trailer (r : Rules) (value : Expr) : Parser Expr := (do
  let dot ← mark "."
  return .attribute value dot (← name).text) <|> (do
  let w ← lit "("
  afterCall r value w.gap) <|> (do
  let w ← lit "["
  let before ← nextGap
  let members ← slices r
  let close ← lit "]"
  return .subscript value w.gap before members close.gap)

def extend (link : Expr → Parser Expr) : Nat → Expr → Parser Expr
  | 0, e => Parser.pure e
  | fuel + 1, e => do
    match ← optional (link e) with
    | some longer => extend link fuel longer
    | none => return e

def wordCount : Parser Nat := fun s i m => .ok s.words.size i m

def primary (r : Rules) : Parser Expr := do
  extend (trailer r) (← wordCount) (← atom r)

def awaitPrimary (r : Rules) : Parser Expr := (do
  let _ ← kind .awaitWord
  let gap ← nextGap
  return .await gap (← primary r)) <|> primary r

def power (r : Rules) : Parser Expr := do
  let base ← awaitPrimary r
  (do
    let around ← mark "**"
    return .binary base around "**" (← r.factor)) <|> Parser.pure base

def factorRule (r : Rules) : Parser Expr := (do
  let op ← anyOf ["+", "-", "~"]
  let gap ← nextGap
  return .unary op.text gap (← r.factor)) <|> power r

def leftChain (operators : List String) (operand : Parser Expr) : Parser Expr := do
  let first ← operand
  let rest ← many (do
    let op ← anyOf operators
    let gap ← nextGap
    return (Around.mk op.gap gap, op.text, ← operand))
  return rest.foldl (fun left (around, op, right) => .binary left around op right) first

def bitwiseOrRule (r : Rules) : Parser Expr :=
  leftChain ["|"] (leftChain ["^"] (leftChain ["&"] (leftChain ["<<", ">>"]
    (leftChain ["+", "-"] (leftChain ["*", "/", "//", "%", "@"] (factorRule r))))))

def comparisonTail (r : Rules) : Parser Comparison :=
  let single (op : String) : Parser Comparison := do
    let around ← mark op
    return .mk around op none (← bitwiseOrRule r)
  let double (first second : String) : Parser Comparison := do
    let w ← lit first
    let v ← lit second
    let gap ← nextGap
    return .mk ⟨w.gap, gap⟩ first (some (v.gap, second)) (← bitwiseOrRule r)
  single "==" <|> single "!=" <|> single "<=" <|> single "<" <|> single ">=" <|> single ">" <|>
    double "not" "in" <|> single "in" <|> double "is" "not" <|> single "is"

def comparison (r : Rules) : Parser Expr := do
  let left ← bitwiseOrRule r
  let rest ← many (comparisonTail r)
  return if rest.isEmpty then left else .compare left rest

def inversionRule (r : Rules) : Parser Expr := (do
  let _ ← lit "not"
  let gap ← nextGap
  return .unary "not" gap (← r.inversion)) <|> comparison r

def booleanChain (op : String) (operand : Parser Expr) : Parser Expr := do
  let first ← operand
  let rest ← many (do return (← mark op, ← operand))
  return rest.foldl (fun left (around, right) => .boolean left around op right) first

def disjunctionRule (r : Rules) : Parser Expr :=
  booleanChain "or" (booleanChain "and" (inversionRule r))

/-- A parameter ends with a comma, or stands before the mark that ends the list. -/
def endsParam (close : String) : Parser (Option Around) :=
  (do return some (← comma)) <|> (do guard (nextIs close); return none)

def lambdaPlain (star : String) (starGap : Gap) : Parser LambdaParam := do
  let target ← name
  let comma ← endsParam ":"
  return .param star starGap target.text {} none comma

def lambdaDefault (r : Rules) : Parser LambdaParam := do
  let target ← name
  let equal ← mark "="
  let value ← r.expression
  let comma ← endsParam ":"
  return .param "" .empty target.text equal (some value) comma

def lambdaAny (r : Rules) : Parser LambdaParam :=
  lambdaPlain "" .empty <|> lambdaDefault r

def lambdaKeywords : Parser LambdaParam := do
  let _ ← lit "**"
  let gap ← nextGap
  lambdaPlain "**" gap

def lambdaStar (r : Rules) : Parser (List LambdaParam) := (do
  let _ ← lit "*"
  let gap ← nextGap
  let star ← lambdaPlain "*" gap
  let rest ← many (lambdaAny r)
  return star :: rest ++ (← optional lambdaKeywords).toList) <|> (do
  let _ ← lit "*"
  let comma ← comma
  let rest ← atLeastOne (lambdaAny r)
  return .mark "*" (some comma) :: rest ++ (← optional lambdaKeywords).toList) <|> (do
  return [← lambdaKeywords])

def lambdaSlash : Parser LambdaParam := do
  let _ ← lit "/"
  return .mark "/" (← endsParam ":")

def lambdaParams (r : Rules) : Parser (List LambdaParam) := do
  let plain ← many (lambdaPlain "" .empty)
  let defaults ← many (lambdaDefault r)
  let first := plain ++ defaults
  let slash ← if first.isEmpty then Parser.pure none else optional lambdaSlash
  match slash with
  | some slash =>
    let plain ← if defaults.isEmpty then many (lambdaPlain "" .empty) else Parser.pure []
    let defaults ← many (lambdaDefault r)
    return first ++ slash :: plain ++ defaults ++ ((← optional (lambdaStar r)).getD [])
  | none =>
    match ← optional (lambdaStar r) with
    | some star => return first ++ star
    | none => if first.isEmpty then fail else return first

def lambda (r : Rules) : Parser Expr := do
  let _ ← lit "lambda"
  let gap ← nextGap
  let params ← optional (lambdaParams r)
  let w ← lit ":"
  let colonGap ← nextGap
  let colon : Around := ⟨if params.isSome then w.gap else .empty, colonGap⟩
  return .lambda gap (params.getD []) colon (← r.expression)

def expressionRule (r : Rules) : Parser Expr := (do
  let body ← disjunctionRule r
  (do
    let aroundIf ← mark "if"
    let test ← disjunctionRule r
    let aroundElse ← mark "else"
    return .conditional body aroundIf test aroundElse (← r.expression)) <|> Parser.pure body) <|>
  lambda r

def startsTrailer : Parser Bool := nextIsOf ["(", "[", "."]

def targetPrimary (r : Rules) : Parser Expr := do
  let first ← atom r
  guard startsTrailer
  let link (e : Expr) : Parser Expr := do
    let longer ← trailer r e
    guard startsTrailer
    return longer
  extend link (← wordCount) first

def attributeOrSubscript (r : Rules) : Parser Expr := do
  let value ← targetPrimary r
  let target ← (do
    let dot ← mark "."
    return Expr.attribute value dot (← name).text) <|> (do
    let w ← lit "["
    let before ← nextGap
    let members ← slices r
    let close ← lit "]"
    return .subscript value w.gap before members close.gap)
  guardNot startsTrailer
  return target

def targetMembers (r : Rules) (first : Expr) : Parser (List Member) :=
  separatedAfter Member.withComma (.item first none) (do return .item (← r.starTarget) none)

def starAtom (r : Rules) : Parser Expr := (do return .name (← name).text) <|> (do
  let _ ← lit "("
  let before ← nextGap
  (do
    let first ← r.starTarget
    let members ← targetMembers r first
    let w ← lit ")"
    match members with
    | [.item single none] =>
      if isStarred single then return .paren before (.tuple members) w.gap
      else return .paren before single w.gap
    | members => return .paren before (.tuple members) w.gap) <|> (do
    let _ ← lit ")"
    return .paren before (.tuple []) .empty)) <|> (do
  let _ ← lit "["
  let before ← nextGap
  (do
    let first ← r.starTarget
    let members ← targetMembers r first
    let w ← lit "]"
    return .list before members w.gap) <|> (do
    let _ ← lit "]"
    return .list before [] .empty))

def starTargetRule (r : Rules) : Parser Expr := (do
  let _ ← lit "*"
  guardNot (nextIs "*")
  let gap ← nextGap
  return .starred gap (← r.starTarget)) <|> attributeOrSubscript r <|> starAtom r

def singleTargetRule (r : Rules) : Parser Expr := attributeOrSubscript r <|>
  (do return .name (← name).text) <|> (do
  let _ ← lit "("
  let before ← nextGap
  let inner ← r.singleTarget
  let w ← lit ")"
  return .paren before inner w.gap)

def deleteTargets (r : Rules) : Parser (List Member) :=
  separatedTrailing Member.withComma (do return .item (← r.deleteTarget) none)

def deleteTargetRule (r : Rules) : Parser Expr := attributeOrSubscript r <|>
  (do return .name (← name).text) <|> (do
  let _ ← lit "("
  let before ← nextGap
  let members ← optional (deleteTargets r)
  let w ← lit ")"
  match members with
  | some [.item single none] => return .paren before single w.gap
  | some members => return .paren before (.tuple members) w.gap
  | none => return .paren before (.tuple []) .empty) <|> (do
  let _ ← lit "["
  let before ← nextGap
  let members ← optional (deleteTargets r)
  let w ← lit "]"
  match members with
  | some members => return .list before members w.gap
  | none => return .list before [] .empty)

end Hydration.Syntax
