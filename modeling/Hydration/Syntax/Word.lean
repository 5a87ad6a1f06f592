import Hydration.Syntax.Layout
import Hydration.Syntax.Token

/-! Words: tokens with the blanks around them read. A comma or semicolon owns the gap behind it, so
no gap is read twice. -/

namespace Hydration.Syntax

structure Word where
  kind : TokenKind
  text : String
  line : Nat
  column : Nat
  gap : Gap := .empty
  /-- The gap behind a comma or semicolon. -/
  behind : Gap := .empty
  /-- The empty lines before a word that starts a line, or those that close a block. -/
  lines : List EmptyLine := []
  tail : LineTail := {}
deriving Inhabited

def ownsGapBehind (text : String) : Bool := text == "," || text == ";"

def Word.ofToken (newline : String) (previous next : Option Token) (token : Token) : Word :=
  let setting : Setting := { newline, margin := token.margin }
  let owned := (previous.map fun p => ownsGapBehind p.text).getD false
  let tail := LineTail.read setting (token.before ++ token.text.toList)
  { kind := token.kind
    text := token.text
    line := token.line
    column := token.column
    gap := if owned then .empty else Gap.read setting token.before
    behind :=
      match next with
      | some next =>
        if ownsGapBehind token.text then
          Gap.read { newline, margin := next.margin } next.before
        else .empty
      | none => .empty
    lines := emptyLines setting token.atEnd token.before
    tail := if owned then { tail with blanks := "" } else tail }

def Word.ofTokens (newline : String) (tokens : Array Token) : Array Word :=
  tokens.mapIdx fun i token =>
    Word.ofToken newline (if i == 0 then none else tokens[i - 1]?) tokens[i + 1]? token

end Hydration.Syntax
