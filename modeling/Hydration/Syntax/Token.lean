/-! Tokens: the words of a module, each with the blanks that stand before it. -/

namespace Hydration.Syntax

inductive TokenKind where
  | name | number | string | operator
  | newline | indent | dedent | finish
  | asyncWord | awaitWord
  | formatStart | formatText | formatEnd
deriving Repr, DecidableEq, Inhabited

/-- `before` is the text between the token and the one it follows, `margin` the indentation in
force there. A `dedent` carries the lines that close its block. `atEnd` tells that `before`
reaches the end of the text. -/
structure Token where
  kind : TokenKind
  text : String := ""
  line : Nat := 1
  column : Nat := 0
  before : List Char := []
  margin : List Char := []
  atEnd : Bool := false
deriving Repr, Inhabited

inductive LexError where
  | mixedIndent
  | tooManyIndents
  | unmatchedDedent
  | strayAfterBackslash
  | endAfterBackslash
  | badCharacter (c : Char)
  | badIdentifier (text : String)
  | badDecimal
  | leadingZeros
  | badHexadecimal
  | badOctal
  | badOctalDigit (digit : Char)
  | badBinary
  | badBinaryDigit (digit : Char)
  | unterminatedString
  | unterminatedTripleString
  | unmatchedBracket (close : Char)
  | mismatchedBracket (close opening : Char) (line : Option Nat)
deriving Repr, DecidableEq

end Hydration.Syntax
