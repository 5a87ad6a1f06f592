/-! What stands between the tokens of a module: blanks, comments and line ends. A line end equal to
the module's usual one is kept as `none`, and a line that starts with the indentation in force
keeps only the fact, so both follow the place where the text is written. -/

namespace Hydration.Syntax

structure Style where
  indent : String := "    "
  newline : String := "\n"
deriving Repr, DecidableEq, Inhabited

abbrev LineEnd := Option String

structure Place where
  style : Style := {}
  margin : String := ""
deriving Repr, DecidableEq, Inhabited

def LineEnd.render (place : Place) (lineEnd : LineEnd) : String :=
  lineEnd.getD place.style.newline

structure LineTail where
  blanks : String := ""
  comment : Option String := none
  lineEnd : LineEnd := none
deriving Repr, DecidableEq, Inhabited

structure EmptyLine where
  indented : Bool := true
  blanks : String := ""
  comment : Option String := none
  lineEnd : LineEnd := none
deriving Repr, DecidableEq, Inhabited

/-- Blanks between two tokens. Only between brackets can they run over several lines. -/
inductive Gap where
  | inline (blanks : String)
  | folded (first : LineTail) (between : List EmptyLine) (indented : Bool) (blanks : String)
deriving Repr, DecidableEq

instance : Inhabited Gap := ⟨.inline ""⟩

def Gap.empty : Gap := .inline ""
def Gap.space : Gap := .inline " "

def LineTail.render (place : Place) (tail : LineTail) : String :=
  tail.blanks ++ tail.comment.getD "" ++ tail.lineEnd.render place

def EmptyLine.render (place : Place) (line : EmptyLine) : String :=
  (if line.indented then place.margin else "") ++ line.blanks ++ line.comment.getD "" ++
    line.lineEnd.render place

def renderLines (place : Place) (lines : List EmptyLine) : String :=
  String.join (lines.map (EmptyLine.render place))

def Gap.render (place : Place) : Gap → String
  | .inline blanks => blanks
  | .folded first between indented blanks =>
    first.render place ++ renderLines place between ++
      (if indented then place.margin else "") ++ blanks

/-- A line end is a line feed, a carriage return, or the pair of them. -/
def takeLineEnd : List Char → Option (String × List Char)
  | '\r' :: '\n' :: rest => some ("\r\n", rest)
  | '\r' :: rest => some ("\r", rest)
  | '\n' :: rest => some ("\n", rest)
  | _ => none

/-- Blanks of one logical line: a backslash joins the next physical line. -/
def takeBlanks : List Char → List Char × List Char
  | '\\' :: '\r' :: '\n' :: rest =>
    let (blanks, left) := takeBlanks rest
    ('\\' :: '\r' :: '\n' :: blanks, left)
  | '\\' :: '\n' :: rest =>
    let (blanks, left) := takeBlanks rest
    ('\\' :: '\n' :: blanks, left)
  | '\\' :: '\r' :: rest =>
    let (blanks, left) := takeBlanks rest
    ('\\' :: '\r' :: blanks, left)
  | c :: rest =>
    if c == ' ' || c == '\t' || c == '\x0c' then
      let (blanks, left) := takeBlanks rest
      (c :: blanks, left)
    else ([], c :: rest)
  | [] => ([], [])

def isLineEndChar (c : Char) : Bool := c == '\n' || c == '\r'

def takeComment : List Char → Option String × List Char
  | '#' :: rest =>
    (some (String.ofList ('#' :: rest.takeWhile fun c => !isLineEndChar c)),
      rest.dropWhile fun c => !isLineEndChar c)
  | rest => (none, rest)

def dropPrefix? : List Char → List Char → Option (List Char)
  | [], rest => some rest
  | p :: ps, c :: rest => if p == c then dropPrefix? ps rest else none
  | _ :: _, [] => none

structure Setting where
  newline : String := "\n"
  margin : List Char := []
deriving Repr, Inhabited

def Setting.lineEnd (setting : Setting) (text : String) : LineEnd :=
  if text == setting.newline then none else some text

/-- Reads one line that holds no code. At the end of the text the last line may lack its end. -/
def takeEmptyLine (setting : Setting) (atEnd : Bool) (cs : List Char) :
    Option (EmptyLine × List Char) :=
  let (indented, body) := match dropPrefix? setting.margin cs with
    | some body => (true, body)
    | none => (false, cs)
  let (blanks, rest) := takeBlanks body
  let (comment, rest) := takeComment rest
  match takeLineEnd rest with
  | some (text, rest) =>
    some (⟨indented, String.ofList blanks, comment, setting.lineEnd text⟩, rest)
  | none =>
    if atEnd && rest.isEmpty && !cs.isEmpty then
      some (⟨indented, String.ofList blanks, comment, none⟩, rest)
    else none

def scanEmptyLines (setting : Setting) (atEnd : Bool) :
    Nat → List Char → List (EmptyLine × List Char)
  | 0, _ => []
  | fuel + 1, cs =>
    match takeEmptyLine setting atEnd cs with
    | some (line, rest) => (line, rest) :: scanEmptyLines setting atEnd fuel rest
    | none => []

def emptyLinesWithRest (setting : Setting) (atEnd : Bool) (cs : List Char) :
    List (EmptyLine × List Char) :=
  scanEmptyLines setting atEnd (cs.length + 1) cs

def emptyLines (setting : Setting) (atEnd : Bool) (cs : List Char) : List EmptyLine :=
  (emptyLinesWithRest setting atEnd cs).map (·.1)

/-- The lines that close a block reach to the last one indented like the block. -/
def footerLines (setting : Setting) (atEnd : Bool) (cs : List Char) :
    List (EmptyLine × List Char) :=
  ((emptyLinesWithRest setting atEnd cs).reverse.dropWhile (!·.1.indented)).reverse

def afterFooter (setting : Setting) (atEnd : Bool) (cs : List Char) : List Char :=
  match (footerLines setting atEnd cs).getLast? with
  | some (_, rest) => rest
  | none => cs

def LineTail.read (setting : Setting) (cs : List Char) : LineTail :=
  let (blanks, rest) := takeBlanks cs
  let (comment, rest) := takeComment rest
  match takeLineEnd rest with
  | some (text, _) => ⟨String.ofList blanks, comment, setting.lineEnd text⟩
  | none => ⟨String.ofList blanks, comment, none⟩

def Gap.read (setting : Setting) (cs : List Char) : Gap :=
  let (blanks, rest) := takeBlanks cs
  let (comment, rest) := takeComment rest
  match takeLineEnd rest with
  | none => .inline (String.ofList blanks)
  | some (text, rest) =>
    let lines := emptyLinesWithRest setting false rest
    let rest := match lines.getLast? with
      | some (_, rest) => rest
      | none => rest
    let first := ⟨String.ofList blanks, comment, setting.lineEnd text⟩
    match dropPrefix? setting.margin rest with
    | some body => .folded first (lines.map (·.1)) true (String.ofList (takeBlanks body).1)
    | none => .folded first (lines.map (·.1)) false (String.ofList (takeBlanks rest).1)

end Hydration.Syntax
