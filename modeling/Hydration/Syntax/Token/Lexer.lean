import Hydration.Syntax.Layout
import Hydration.Syntax.Token.Literal
import Hydration.Text.Identifier

/-! Splitting a text into tokens. Indentation becomes `indent` and `dedent` tokens; line ends count
only outside brackets and after code. Formatted strings are split into their texts and the tokens
of their fields. -/

namespace Hydration.Syntax

open Hydration.Text

/-- One level of indentation: its width with tabs to eight, its width with tabs to one, and the
text itself. -/
structure IndentLevel where
  width : Nat := 0
  narrowWidth : Nat := 0
  text : List Char := []
deriving Repr, Inhabited

/-- A formatted string being read. A field is open while more brackets than format specifications
are open. -/
structure FormatFrame where
  quote : Char
  triple : Bool
  raw : Bool
  brackets : Nat := 0
  specs : Nat := 0
deriving Repr, Inhabited

def FormatFrame.inField (frame : FormatFrame) : Bool := frame.brackets > frame.specs
def FormatFrame.inSpec (frame : FormatFrame) : Bool := !frame.inField && frame.specs > 0
def FormatFrame.openBracket (frame : FormatFrame) : FormatFrame :=
  { frame with brackets := frame.brackets + 1 }
def FormatFrame.closeBracket (frame : FormatFrame) : FormatFrame :=
  { frame with
    specs := if frame.inSpec then frame.specs - 1 else frame.specs
    brackets := frame.brackets - 1 }

/-- The state of a scan. `skipped` holds the text since the last token, newest first. -/
structure Scan where
  rest : List Char
  line : Nat := 1
  column : Nat := 0
  skipped : List Char := []
  atLineStart : Bool := true
  blankLine : Bool := false
  lacksLineEnd : Bool := false
  indents : List IndentLevel := []
  brackets : List (Char × Nat) := []
  frames : List FormatFrame := []
  tokens : Array Token := #[]
deriving Inhabited

def Scan.level (s : Scan) : IndentLevel := s.indents.headD {}

def advance : List Char → Nat × Nat → Nat × Nat
  | [], place => place
  | '\r' :: '\n' :: rest, (line, _) => advance rest (line + 1, 0)
  | c :: rest, (line, column) =>
    if c == '\n' || c == '\r' then advance rest (line + 1, 0) else advance rest (line, column + 1)

def Scan.skip (s : Scan) (text rest : List Char) : Scan :=
  let (line, column) := advance text (s.line, s.column)
  { s with rest, line, column, skipped := text.reverse ++ s.skipped }

def Scan.emit (s : Scan) (kind : TokenKind) (text rest : List Char) : Scan :=
  let token : Token :=
    { kind, text := String.ofList text, line := s.line, column := s.column
      before := s.skipped.reverse, margin := s.level.text, atEnd := s.rest.isEmpty }
  let (line, column) := advance text (s.line, s.column)
  { s with rest, line, column, skipped := [], tokens := s.tokens.push token, blankLine := false }

/-- Opens a block; the text of the token is the indentation that the block adds. -/
def Scan.emitIndent (s : Scan) (level : IndentLevel) : Scan :=
  { s with
    indents := level :: s.indents
    tokens := s.tokens.push
      { kind := .indent, text := String.ofList (level.text.drop s.level.text.length)
        line := s.line, column := s.column, margin := level.text }
    blankLine := false }

/-- Closes the innermost block, which takes its closing lines out of the text skipped so far. -/
def Scan.emitDedent (s : Scan) : Scan :=
  let closed := s.level
  let setting : Setting := { margin := closed.text }
  let skipped := s.skipped.reverse
  let left := afterFooter setting s.rest.isEmpty skipped
  { s with
    skipped := left.reverse
    indents := s.indents.drop 1
    tokens := s.tokens.push
      { kind := .dedent, line := s.line, column := s.column
        before := skipped.take (skipped.length - left.length)
        margin := closed.text, atEnd := s.rest.isEmpty }
    blankLine := false }

def takeIndentation : List Char → IndentLevel → IndentLevel × List Char
  | ' ' :: rest, level =>
    takeIndentation rest ⟨level.width + 1, level.narrowWidth + 1, ' ' :: level.text⟩
  | '\t' :: rest, level =>
    takeIndentation rest
      ⟨(level.width / 8 + 1) * 8, level.narrowWidth + 1, '\t' :: level.text⟩
  | '\x0c' :: rest, level => takeIndentation rest ⟨0, 0, '\x0c' :: level.text⟩
  | rest, level => ({ level with text := level.text.reverse }, rest)

def maxIndents : Nat := 100

def Scan.closeBlocks (s : Scan) (width : Nat) : Nat → Scan
  | 0 => s
  | fuel + 1 =>
    if !s.indents.isEmpty && width < s.level.width then s.emitDedent.closeBlocks width fuel else s

def Scan.indentTo (s : Scan) (level : IndentLevel) : Except LexError Scan :=
  let current := s.level
  if level.width == current.width then
    if level.narrowWidth == current.narrowWidth then .ok s else .error .mixedIndent
  else if level.width > current.width then
    if s.indents.length + 1 ≥ maxIndents then .error .tooManyIndents
    else if level.narrowWidth ≤ current.narrowWidth then .error .mixedIndent
    else if (dropPrefix? current.text level.text).isNone then .error .unmatchedDedent
    else .ok (s.emitIndent level)
  else
    let s := s.closeBlocks level.width s.indents.length
    if level.width != s.level.width then .error .unmatchedDedent
    else if level.narrowWidth != s.level.narrowWidth then .error .mixedIndent
    else .ok s

/-- Reads the indentation of a line. A line without code does not open or close blocks. -/
def Scan.startLine (s : Scan) : Except LexError Scan :=
  let (level, rest) := takeIndentation s.rest {}
  let s := { s.skip level.text rest with atLineStart := false }
  let blank := match rest with
    | [] => true
    | c :: _ => c == '#' || c == '\n' || c == '\r' || c == '\\'
  if blank then .ok { s with blankLine := true }
  else if s.brackets.isEmpty then s.indentTo level
  else .ok s

def closesFormat (frame : FormatFrame) (cs : List Char) : Bool :=
  if frame.triple then startsTriple frame.quote cs else cs.head? == some frame.quote

/-- The literal text of a formatted string up to its next field or its end. `named` is set inside
a named character escape. -/
def takeFormatText (frame : FormatFrame) (named : Bool) :
    Nat → List Char → Except LexError (List Char × List Char)
  | 0, cs => .ok ([], cs)
  | fuel + 1, cs =>
    let keep (text rest : List Char) (named : Bool) : Except LexError (List Char × List Char) := do
      let (more, left) ← takeFormatText frame named fuel rest
      return (text ++ more, left)
    match cs with
    | [] => .error .unterminatedString
    | '\\' :: rest =>
      if named then keep ['\\'] rest named
      else if frame.raw then
        match rest with
        | '\'' :: rest => keep ['\\', '\''] rest named
        | '"' :: rest => keep ['\\', '"'] rest named
        | '\\' :: rest => keep ['\\', '\\'] rest named
        | _ => keep ['\\'] rest named
      else
        match rest with
        | '{' :: _ => keep ['\\'] rest named
        | '}' :: _ => keep ['\\'] rest named
        | 'N' :: '{' :: rest =>
          if frame.inSpec then keep ['\\', 'N'] ('{' :: rest) named
          else keep ['\\', 'N', '{'] rest true
        | '\r' :: '\n' :: rest => keep ['\\', '\r', '\n'] rest named
        | c :: rest => keep ['\\', c] rest named
        | [] => keep ['\\'] [] named
    | '{' :: rest =>
      if named then keep ['{'] rest named
      else if frame.inSpec then .ok ([], cs)
      else
        match rest with
        | '{' :: rest => keep ['{', '{'] rest named
        | _ => .ok ([], cs)
    | '}' :: rest =>
      if named then keep ['}'] rest false
      else if frame.inSpec then .ok ([], cs)
      else
        match rest with
        | '}' :: rest => keep ['}', '}'] rest named
        | _ => .ok ([], cs)
    | c :: rest =>
      if closesFormat frame cs then .ok ([], cs)
      else if (c == '\n' || c == '\r') && !(frame.triple || frame.inSpec) then
        .error .unterminatedString
      else keep [c] rest named

/-- Outside its fields a formatted string yields its text or its end. -/
def Scan.formatToken (s : Scan) (frame : FormatFrame) : Except LexError (Option Scan) := do
  let (text, rest) ← takeFormatText frame false (s.rest.length + 1) s.rest
  if !text.isEmpty then return some (s.emit .formatText text rest)
  else if closesFormat frame s.rest then
    let size := if frame.triple then 3 else 1
    let s := s.emit .formatEnd (s.rest.take size) (s.rest.drop size)
    return some { s with frames := s.frames.drop 1 }
  else return none

def operators : List (List Char) :=
  ["**=", "//=", "<<=", ">>=", "...", "->", ":=", "==", "!=", "<=", ">=", "<<", ">>", "**", "+=",
    "-=", "*=", "/=", "%=", "&=", "|=", "^=", "//", "@=", "<>", ":", ",", ";", "+", "-", "*", "/",
    "|", "&", "<", ">", "=", ".", "%", "~", "^", "@", "!"].map String.toList

def takeOperator (cs : List Char) : Option (List Char × List Char) :=
  operators.findSome? fun op => (dropPrefix? op cs).map fun rest => (op, rest)

def mayStartWord (c : Char) : Bool := c.isAlpha || c == '_' || c.toNat ≥ 128
def mayContinueWord (c : Char) : Bool := mayStartWord c || c.isDigit

def Scan.word (s : Scan) : Except LexError Scan :=
  let text := s.rest.takeWhile mayContinueWord
  let rest := s.rest.dropWhile mayContinueWord
  if text.all (·.toNat < 128) || isIdentifierChars text then
    let kind := if text == "async".toList then TokenKind.asyncWord
      else if text == "await".toList then .awaitWord else .name
    .ok (s.emit kind text rest)
  else .error (.badIdentifier (String.ofList text))

def isQuote (c : Char) : Bool := c == '\'' || c == '"'

def Scan.wordOrString (s : Scan) : Except LexError Scan :=
  let pre := takeStringPrefix s.rest
  let body := s.rest.drop pre.length
  match pre, body with
  | _ :: _, quote :: _ =>
    if !isQuote quote then s.word
    else if pre.any fun c => c.toLower == 'f' || c.toLower == 't' then
      let triple := startsTriple quote body
      let size := if triple then 3 else 1
      let frame : FormatFrame :=
        { quote, triple, raw := pre.any fun c => c.toLower == 'r' }
      let s := s.emit .formatStart (pre ++ body.take size) (body.drop size)
      .ok { s with frames := frame :: s.frames }
    else do
      let (text, rest) ← takeString quote body
      return s.emit .string (pre ++ text) rest
  | _, _ => s.word

def Scan.mapFrame (s : Scan) (f : FormatFrame → FormatFrame) : Scan :=
  match s.frames with
  | [] => s
  | frame :: frames => { s with frames := f frame :: frames }

def bracketMatches (opening close : Char) : Bool :=
  (opening == '(' && close == ')') || (opening == '[' && close == ']') ||
    (opening == '{' && close == '}')

def Scan.openBracket (s : Scan) (c : Char) (rest : List Char) : Scan :=
  let s := s.mapFrame FormatFrame.openBracket
  let line := s.line
  let s := s.emit .operator [c] rest
  { s with brackets := (c, line) :: s.brackets }

def Scan.closeBracket (s : Scan) (c : Char) (rest : List Char) : Except LexError Scan :=
  match s.brackets with
  | [] => .error (.unmatchedBracket c)
  | (opening, line) :: brackets =>
    if bracketMatches opening c then
      let s := s.mapFrame FormatFrame.closeBracket
      .ok { s.emit .operator [c] rest with brackets }
    else .error (.mismatchedBracket c opening (if line == s.line then none else some line))

/-- A colon ends the expression of a field when no inner bracket is open. -/
def Scan.startsSpec (s : Scan) : Bool :=
  match s.frames with
  | [] => false
  | frame :: _ => frame.brackets - frame.specs == 1

def takeBlankChars (cs : List Char) : List Char :=
  cs.takeWhile fun c => c == ' ' || c == '\t' || c == '\x0c'

def skipBlanks (s : Scan) : Scan :=
  let blanks := takeBlankChars s.rest
  let s := s.skip blanks (s.rest.drop blanks.length)
  match s.rest with
  | '#' :: _ =>
    let comment := s.rest.takeWhile fun c => !isLineEndChar c
    s.skip comment (s.rest.drop comment.length)
  | _ => s

inductive Step where
  | again (s : Scan)
  | done (s : Scan)

def Scan.finish (s : Scan) : Scan :=
  if s.lacksLineEnd && !s.blankLine then
    { s.emit .newline [] [] with atLineStart := true, lacksLineEnd := false }
  else s

/-- Inside a formatted string, outside its fields, the next token is one of that string. -/
def Scan.formatStep (s : Scan) : Except LexError (Option Scan) :=
  match s.frames with
  | frame :: _ => if frame.inField then .ok none else s.formatToken frame
  | [] => .ok none

def Scan.openToken (s : Scan) : Except LexError Scan :=
  if s.atLineStart then s.startLine.map skipBlanks else .ok (skipBlanks s)

def Scan.endText (s : Scan) : Step :=
  if s.lacksLineEnd && !s.blankLine then .again s.finish
  else .done (({ s.closeBlocks 0 s.indents.length with rest := [] } : Scan).emit .finish [] [])

def Scan.joinLine (s : Scan) (rest : List Char) : Except LexError Scan :=
  match takeLineEnd rest with
  | none => if rest.isEmpty then .error .endAfterBackslash else .error .strayAfterBackslash
  | some (_, after) =>
    if after.isEmpty then .error .endAfterBackslash
    else .ok (s.skip (s.rest.take (s.rest.length - after.length)) after)

/-- A line end counts after code, outside brackets. -/
def Scan.endLine (s : Scan) (text after : List Char) : Scan :=
  if s.blankLine || !s.brackets.isEmpty then
    { s.skip text after with atLineStart := true, blankLine := false }
  else { s.emit .newline text after with atLineStart := true }

def Scan.codeToken (s : Scan) (c : Char) (rest : List Char) : Except LexError Scan :=
  if mayStartWord c then s.wordOrString
  else if c.isDigit || (c == '.' && (rest.head?.map Char.isDigit).getD false) then do
    let (text, rest) ← takeNumber s.rest
    return s.emit .number text rest
  else if isQuote c then do
    let (text, rest) ← takeString c s.rest
    return s.emit .string text rest
  else if c == '(' || c == '[' || c == '{' then .ok (s.openBracket c rest)
  else if c == ')' || c == ']' || c == '}' then s.closeBracket c rest
  else if c == ':' && s.startsSpec then
    let s := s.mapFrame fun frame => { frame with specs := frame.specs + 1 }
    .ok (s.emit .operator [c] rest)
  else
    match takeOperator s.rest with
    | some (text, rest) => .ok (s.emit .operator text rest)
    | none => .error (.badCharacter c)

def Scan.step (s : Scan) : Except LexError Step := do
  match ← s.formatStep with
  | some s => return .again s
  | none =>
    let s ← s.openToken
    match s.rest with
    | [] => return s.endText
    | '\\' :: rest => return .again (← s.joinLine rest)
    | c :: rest =>
      match takeLineEnd s.rest with
      | some (text, after) => return .again (s.endLine text.toList after)
      | none => return .again (← s.codeToken c rest)

def Scan.run (s : Scan) : Nat → Except LexError (Array Token)
  | 0 => .ok s.tokens
  | fuel + 1 => do
    match ← s.step with
    | .again s => s.run fuel
    | .done s => return s.tokens

def tokenize (text : List Char) : Except LexError (Array Token) :=
  let scan : Scan := { rest := text, lacksLineEnd := text.getLast? != some '\n' }
  scan.run (2 * text.length + 4)

end Hydration.Syntax
