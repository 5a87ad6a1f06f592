import Hydration.Syntax.Grammar.Expression

/-! The grammar of patterns. -/

namespace Hydration.Syntax

open Hydration.Syntax.Parser

def isImaginary (text : String) : Bool := text.endsWith "j" || text.endsWith "J"

def realNumber : Parser Expr := do
  return .number (← word fun w => w.kind == .number && !isImaginary w.text).text

def imaginaryNumber : Parser Expr := do
  return .number (← word fun w => w.kind == .number && isImaginary w.text).text

def signed (number : Parser Expr) : Parser Expr := number <|> (do
  let _ ← lit "-"
  let gap ← nextGap
  return .unary "-" gap (← number))

def signedNumber : Parser Expr := do
  let value ← signed (do return .number (← kind .number).text)
  guardNot (nextIsOf ["+", "-"])
  return value

def complexNumber : Parser Expr := do
  let left ← signed realNumber
  let op ← anyOf ["+", "-"]
  let gap ← nextGap
  return .binary left ⟨op.gap, gap⟩ op.text (← imaginaryNumber)

def literalValue (r : Rules) : Parser Expr := signedNumber <|> complexNumber <|> strings r <|>
  (do return .name (← anyOf ["None", "True", "False"]).text)

def endsValue : Parser Bool := nextIsOf [".", "(", "="]

def captureTarget : Parser String := do
  guardNot (nextIs "_")
  let target ← name
  guardNot endsValue
  return target.text

def dottedValue : Parser Expr := do
  let first ← name
  extend (fun e => do
    let dot ← mark "."
    return .attribute e dot (← name).text) (← wordCount) (.name first.text)

def attributeValue : Parser Expr := do
  guard (secondIs ".")
  match ← dottedValue with
  | .name _ => fail
  | value => return value

def starPattern : Parser Pattern := do
  let _ ← lit "*"
  let gap ← nextGap
  (do return .star gap (← captureTarget)) <|> (do return .star gap (← lit "_").text)

def starrablePattern (r : Rules) : Parser Pattern := starPattern <|> r.pattern

def patternMember (r : Rules) : Parser PatternMember := do
  return .item (← starrablePattern r) none

def isStarPattern : Pattern → Bool
  | .star .. => true
  | _ => false

def afterParenPattern (r : Rules) : Parser Pattern := do
  let before ← nextGap
  (do
    let first ← starrablePattern r
    if ← nextIs "," then
      let members ← separatedAfter PatternMember.withComma (.item first none) (patternMember r)
      let w ← lit ")"
      return .tuple before members w.gap
    else
      let w ← lit ")"
      guardNot (Parser.pure (isStarPattern first))
      return .paren before first w.gap) <|> (do
    let _ ← lit ")"
    return .tuple before [] .empty)

def afterSquarePattern (r : Rules) : Parser Pattern := do
  let before ← nextGap
  let members ← optional (separatedTrailing PatternMember.withComma (patternMember r))
  let w ← lit "]"
  match members with
  | some members => return .list before members w.gap
  | none => return .list before [] .empty

def restPattern : Parser PatternMember := do
  let _ ← lit "**"
  let gap ← nextGap
  return .rest gap (← captureTarget) none

def keyedPattern (r : Rules) : Parser PatternMember := do
  let key ← literalValue r <|> attributeValue
  let colon ← mark ":"
  return .keyed key colon (← r.pattern) none

def afterBracePattern (r : Rules) : Parser Pattern := do
  let before ← nextGap
  let close (members : List PatternMember) : Parser Pattern := do
    let w ← lit "\x7d"
    return .mapping before members (if members.isEmpty then .empty else w.gap)
  (do
    let rest ← restPattern
    let trailing ← optional comma
    close [rest.withComma trailing]) <|> (do
    let first ← keyedPattern r
    let more ← many (do return (← comma, ← keyedPattern r))
    let rest ← optional (do return (← comma, ← restPattern))
    let trailing ← optional comma
    close (joinCommas PatternMember.withComma first (more ++ rest.toList) trailing)) <|> close []

def keywordPattern (r : Rules) : Parser PatternMember := do
  let target ← name
  let equal ← mark "="
  return .keyword target.text equal (← r.pattern) none

def classPatternMembers (r : Rules) : Parser (List PatternMember) := do
  let positional : Parser PatternMember := do return .item (← r.pattern) none
  let first ← positional <|> keywordPattern r
  let isKeyword := match first with
    | .keyword .. => true
    | _ => false
  let more ← if isKeyword then Parser.pure [] else many (do return (← comma, ← positional))
  let keywords ← many (do return (← comma, ← keywordPattern r))
  return joinCommas PatternMember.withComma first (more ++ keywords) (← optional comma)

def classPattern (r : Rules) : Parser Pattern := do
  let target ← dottedValue
  let w ← lit "("
  let before ← nextGap
  let members ← optional (classPatternMembers r)
  let close ← lit ")"
  match members with
  | some members => return .class_ target w.gap before members close.gap
  | none => return .class_ target w.gap before [] .empty

def closedPattern (r : Rules) : Parser Pattern :=
  (do return .value (← literalValue r)) <|>
  (do return .capture (← captureTarget)) <|>
  (do return .capture (← lit "_").text) <|>
  (do
    let value ← attributeValue
    guardNot endsValue
    return .value value) <|>
  (do let _ ← lit "("; afterParenPattern r) <|>
  (do let _ ← lit "["; afterSquarePattern r) <|>
  (do let _ ← lit "\x7b"; afterBracePattern r) <|>
  classPattern r

def orPattern (r : Rules) : Parser Pattern := do
  let first ← closedPattern r
  let rest ← many (do return (← mark "|", ← closedPattern r))
  return rest.foldl (fun left (around, right) => .either left around right) first

def patternRule (r : Rules) : Parser Pattern := do
  let pattern ← orPattern r
  (do
    let around ← mark "as"
    return .named pattern around (← captureTarget)) <|> Parser.pure pattern

/-- The pattern of an arm: a sequence needs no brackets. -/
def armPattern (r : Rules) : Parser Pattern := do
  let first ← starPattern <|> patternRule r
  if ← nextIs "," then
    return .open_ (← separatedAfter PatternMember.withComma (.item first none) (patternMember r))
  else if isStarPattern first then
    let _ ← lit ","
    fail
  else return first

end Hydration.Syntax
