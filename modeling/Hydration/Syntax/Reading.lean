import Hydration.Syntax.Grammar.Statement
import Hydration.Syntax.Token.Lexer
import Hydration.Text.Combining
import Hydration.Text.Printable

/-! Reading a text as a module, a statement or an expression, and the errors that this can meet. -/

namespace Hydration.Syntax

open Hydration.Text

/-- A tree that the grammar accepts but that is not well formed. -/
inductive TreeError where
  | emptyName
  | badName (name : String)
  | mixedStrings
  | badClassKeywords
  | plainParamAfterDefault
deriving Repr, DecidableEq

/-- A text that is no module. A grammar error names a line, from one, and a column, from zero. -/
inductive SyntaxError where
  | lexical (error : LexError)
  | grammar (line column : Nat)
deriving Repr, DecidableEq

inductive ReadError where
  | text (error : SyntaxError) (place : Nat × Nat)
  | tree (error : TreeError)
deriving Repr, DecidableEq

def hexDigits (n : Nat) : String := String.ofList (Nat.toDigits 16 n)

/-- A character as an error message shows it: quotes of the given kind and characters without a
visible form are escaped. -/
def escapeVisible (quote : Char) (joinsBefore : Bool) (c : Char) : String :=
  if c == '\x00' then "\\0"
  else if c == '\t' then "\\t"
  else if c == '\n' then "\\n"
  else if c == '\r' then "\\r"
  else if c == '\\' then "\\\\"
  else if c == quote then "\\" ++ quote.toString
  else if !isPrintable c || (joinsBefore && isCombining c) then
    "\\u\x7b" ++ hexDigits c.toNat ++ "\x7d"
  else c.toString

def visibleChar (c : Char) : String := "'" ++ escapeVisible '\'' true c ++ "'"

def visibleText (text : String) : String :=
  "\"" ++ String.join (text.toList.map (escapeVisible '"' true)) ++ "\""

def LexError.message : LexError → String
  | .mixedIndent => "inconsistent mix of tabs and spaces"
  | .tooManyIndents => "too many indentation levels"
  | .unmatchedDedent => "no matching outer block for dedent"
  | .strayAfterBackslash => "unexpected characters after a line continuation"
  | .endAfterBackslash => "unexpected end of file after a line continuation"
  | .badCharacter c => visibleChar c ++ " is not a valid character in this position"
  | .badIdentifier text => visibleText text ++ " is not a valid identifier"
  | .badDecimal => "invalid decimal literal"
  | .leadingZeros =>
    "leading zeros in decimal integer literals are not permitted; use an 0o prefix for octal integers"
  | .badHexadecimal => "invalid hexadecimal literal"
  | .badOctal => "invalid octal literal"
  | .badOctalDigit digit => s!"invalid digit '{digit}' in octal literal"
  | .badBinary => "invalid binary literal"
  | .badBinaryDigit digit => s!"invalid digit '{digit}' in binary literal"
  | .unterminatedString => "unterminated string literal"
  | .unterminatedTripleString => "unterminated triple-quoted string literal"
  | .unmatchedBracket close => s!"unmatched '{close}'"
  | .mismatchedBracket close opening line =>
    s!"closing parenthesis '{close}' does not match opening parenthesis '{opening}'" ++
      match line with
      | some line => s!" on line {line}"
      | none => ""

def TreeError.message : TreeError → String
  | .emptyName => "Cannot have empty name identifier."
  | .badName name => s!"Name {quoted name} is not a valid identifier."
  | .mixedStrings => "Cannot concatenate string and bytes."
  | .badClassKeywords => "Keywords must be arguments with keywords or dictionary expansions."
  | .plainParamAfterDefault =>
    "Cannot have param without defaults following a param with defaults."

def SyntaxError.message : SyntaxError → String
  | .lexical error => "tokenizer error: " ++ error.message
  | .grammar line column => s!"parser error: error at {line}:{column}"

/-- The lines of a text; an end of line at the end starts no further line. -/
def shownLines (cs : List Char) : List (List Char) :=
  let lines := (cs.splitOnP (· == '\n')).map fun line =>
    if line.getLast? == some '\r' then line.dropLast else line
  if cs.getLast? == some '\n' || cs.isEmpty then lines.dropLast else lines

/-- The width of a text whose tabs reach to multiples of eight. -/
def tabbedWidth : List Char → Nat → Nat → Nat
  | [], _, width => width
  | '\t' :: rest, column, width =>
    let step := 8 - column % 8
    tabbedWidth rest (column + step) (width + step)
  | '\r' :: rest, _, width => tabbedWidth rest 0 (width + 1)
  | _ :: rest, column, width => tabbedWidth rest (column + 1) (width + 1)

/-- A grammar error is shown on the line after the one it names, or at the start of the last line
when there is none; a lexical error at the start of the text. -/
def SyntaxError.place (text : List Char) : SyntaxError → Nat × Nat
  | .lexical _ => (1, 1)
  | .grammar line column =>
    let lines := shownLines text
    if line + 1 > lines.length then (lines.length, 1)
    else (line + 1, tabbedWidth ((lines.getD line []).take column) 0 0 + 1)

def firstLineEnd : List Char → String
  | [] => "\n"
  | '\r' :: '\n' :: _ => "\r\n"
  | c :: rest => if isLineEndChar c then c.toString else firstLineEnd rest

/-- A text's first indentation and first line end are its usual ones. -/
def Style.detect (text : List Char) (tokens : Array Token) : Style :=
  { indent := ((tokens.find? (·.kind == .indent)).map (·.text)).getD "    "
    newline := firstLineEnd text }

def isStringStart (w : Word) : Bool := w.kind == .string || w.kind == .formatStart
def isStringEnd (w : Word) : Bool := w.kind == .string || w.kind == .formatEnd

def isByteString (w : Word) : Bool :=
  w.kind == .string && (w.text.toList.takeWhile fun c => !isQuote c).any fun c => c.toLower == 'b'

/-- Neighbouring string literals are joined, which bytes and text cannot be. -/
def mixesStrings (words : List Word) : Bool :=
  (words.zip words.tail).any fun (left, right) =>
    isStringEnd left && isStringStart right && isByteString left != isByteString right

mutual

def Stmt.classHeads : Stmt → List ClassHead
  | .line _ => []
  | .func _ body => body.classHeads
  | .class_ head body => body.classHeads ++ [head]
  | .compound clauses => classHeadsOfClauses clauses

def Suite.classHeads : Suite → List ClassHead
  | .block _ _ body _ => classHeadsOfStmts body
  | .inline .. => []

def Clause.classHeads : Clause → List ClassHead
  | .mk _ _ _ body => body.classHeads

def classHeadsOfStmts : List Stmt → List ClassHead
  | [] => []
  | stmt :: rest => stmt.classHeads ++ classHeadsOfStmts rest

def classHeadsOfClauses : List Clause → List ClassHead
  | [] => []
  | clause :: rest => clause.classHeads ++ classHeadsOfClauses rest

end

def ClassHead.isWellFormed (head : ClassHead) : Bool := head.keywords.all Member.isKeyword

def checkTree (words : Array Word) (body : List Stmt) : Except TreeError Unit :=
  if mixesStrings words.toList then .error .mixedStrings
  else if (classHeadsOfStmts body).all ClassHead.isWellFormed then .ok ()
  else .error .badClassKeywords

def lexText (text : List Char) : Except ReadError Source := do
  match tokenize text with
  | .error error => .error (.text (.lexical error) (SyntaxError.place text (.lexical error)))
  | .ok tokens =>
    let style := Style.detect text tokens
    return { words := Word.ofTokens style.newline tokens, style }

/-- Runs a parser from the first word; a failure names the furthest word asked for in vain. -/
def Source.run (source : Source) (text : List Char) (p : Rules → Parser α) : Except ReadError α :=
  match p (Rules.upTo (source.words.size + 2)) source 0 0 with
  | .ok value _ _ => .ok value
  | .fail furthest =>
    let w := source.words.getD furthest (source.words.back?.getD default)
    let error := SyntaxError.grammar w.line w.column
    .error (.text error (error.place text))

open Hydration.Syntax.Parser in
def modulePieces (r : Rules) : Parser (List Stmt × List EmptyLine) := do
  let body ← many r.statement
  let finish ← kind .finish
  return (body, finish.lines)

/-- Lines after the last statement up to an indented comment are not kept, unless a comment at the
margin comes first. -/
def keptFooter (lines : List EmptyLine) : List EmptyLine :=
  let marks := lines.takeWhile fun line => !(line.comment.isSome && line.blanks.isEmpty)
  let dropped := (marks.reverse.dropWhile fun line => line.comment.isNone).length
  lines.drop dropped

def dropByteOrderMark : List Char → List Char
  | '\ufeff' :: rest => rest
  | cs => cs

def endsWithLineFeed (text : List Char) : Bool :=
  match text.reverse with
  | '\n' :: '\\' :: _ => false
  | '\n' :: '\r' :: '\\' :: _ => false
  | '\n' :: _ => true
  | _ => false

/-- Reads a module. The lines above its first statement become its header. -/
def Module.parse (text : String) : Except ReadError Module := do
  let text := dropByteOrderMark text.toList
  let source ← lexText text
  let (body, last) ← source.run text modulePieces
  (checkTree source.words body).mapError .tree
  let style := source.style
  let endsLine := endsWithLineFeed text
  match body with
  | [] => return { header := last, style, endsLine }
  | first :: rest =>
    return { header := first.leading, body := first.withLeading [] :: rest
             footer := keptFooter last, style, endsLine }

open Hydration.Syntax.Parser in
def Stmt.parse (text : String) : Except ReadError Stmt := do
  let text := text.toList
  let source ← lexText text
  let stmt ← source.run text fun r => do
    let stmt ← r.statement
    let _ ← kind .finish
    return stmt
  (checkTree source.words [stmt]).mapError .tree
  return stmt

open Hydration.Syntax.Parser in
def Expr.parse (text : String) : Except ReadError Expr := do
  let text := text.toList
  let source ← lexText text
  let e ← source.run text fun r => do
    let e ← starExpressions r
    let _ ← kind .newline
    let _ ← kind .finish
    return e
  (checkTree source.words []).mapError .tree
  return e

end Hydration.Syntax
