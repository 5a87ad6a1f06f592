import Hydration.Syntax.Statement
import Hydration.Syntax.Word

/-! Parsers over words. Besides its place a parser keeps the furthest word that some alternative
asked for in vain: the place that a syntax error names. -/

namespace Hydration.Syntax

structure Source where
  words : Array Word
  style : Style

inductive Outcome (α : Type) where
  | ok (value : α) (place furthest : Nat)
  | fail (furthest : Nat)

def Parser (α : Type) := Source → Nat → Nat → Outcome α

namespace Parser

def pure (a : α) : Parser α := fun _ i m => .ok a i m

def bind (p : Parser α) (f : α → Parser β) : Parser β := fun s i m =>
  match p s i m with
  | .ok a i m => f a s i m
  | .fail m => .fail m

instance : Monad Parser where
  pure := Parser.pure
  bind := Parser.bind

def fail : Parser α := fun _ _ m => .fail m

def orElse (p : Parser α) (q : Unit → Parser α) : Parser α := fun s i m =>
  match p s i m with
  | .ok a i m => .ok a i m
  | .fail m => q () s i m

instance : OrElse (Parser α) := ⟨Parser.orElse⟩

/-- Takes the next word if it satisfies the test; a word refused at place `i` marks `i + 1`. -/
def word (test : Word → Bool) : Parser Word := fun s i m =>
  match s.words[i]? with
  | some w => if test w then .ok w (i + 1) m else .fail (max m (i + 1))
  | none => .fail (max m s.words.size)

def kind (kind : TokenKind) : Parser Word := word (·.kind == kind)

def lit (text : String) : Parser Word := word (·.text == text)

def anyOf (texts : List String) : Parser Word := word fun w => texts.contains w.text

def peek : Parser Word := fun s i m =>
  match s.words[i]? with
  | some w => .ok w i m
  | none => .fail m

def next (test : Word → Bool) : Parser Bool := fun s i m =>
  .ok ((s.words[i]?.map test).getD false) i m

def nextIs (text : String) : Parser Bool := next (·.text == text)
def nextIsOf (texts : List String) : Parser Bool := next fun w => texts.contains w.text

def secondIs (text : String) : Parser Bool := fun s i m =>
  .ok ((s.words[i + 1]?.map fun w => w.text == text).getD false) i m

def guard (test : Parser Bool) : Parser Unit := do
  if ← test then Parser.pure () else fail

def guardNot (test : Parser Bool) : Parser Unit := do
  if ← test then fail else Parser.pure ()

def nextGap : Parser Gap := do return (← peek).gap

def style : Parser Style := fun s i m => .ok s.style i m

def optional (p : Parser α) : Parser (Option α) := fun s i m =>
  match p s i m with
  | .ok a i m => .ok (some a) i m
  | .fail m => .ok none i m

def manyUpTo (p : Parser α) : Nat → Parser (List α)
  | 0 => Parser.pure []
  | fuel + 1 => fun s i m =>
    match p s i m with
    | .ok a i m =>
      match manyUpTo p fuel s i m with
      | .ok as i m => .ok (a :: as) i m
      | .fail m => .fail m
    | .fail m => .ok [] i m

/-- As many as there are; every one takes a word. -/
def many (p : Parser α) : Parser (List α) := fun s i m => manyUpTo p (s.words.size + 1) s i m

def atLeastOne (p : Parser α) : Parser (List α) := do
  let first ← p
  return first :: (← many p)

def mark (text : String) : Parser Around := do
  let w ← lit text
  return ⟨w.gap, ← nextGap⟩

/-- A comma or semicolon, which owns the gap behind it. -/
def comma (text : String := ",") : Parser Around := do
  let w ← lit text
  return ⟨w.gap, w.behind⟩

end Parser

def joinCommas (withComma : Option Around → α → α) (first : α) :
    List (Around × α) → Option Around → List α
  | [], trailing => [withComma trailing first]
  | (comma, item) :: rest, trailing =>
    withComma (some comma) first :: joinCommas withComma item rest trailing

namespace Parser

def separated (withComma : Option Around → α → α) (p : Parser α) : Parser (List α) := do
  let first ← p
  let rest ← many (do return (← comma, ← p))
  return joinCommas withComma first rest none

def separatedTrailing (withComma : Option Around → α → α) (p : Parser α) : Parser (List α) := do
  let first ← p
  let rest ← many (do return (← comma, ← p))
  return joinCommas withComma first rest (← optional comma)

def separatedAfter (withComma : Option Around → α → α) (first : α) (p : Parser α) :
    Parser (List α) := do
  let rest ← many (do return (← comma, ← p))
  return joinCommas withComma first rest (← optional comma)

end Parser

end Hydration.Syntax
