import Hydration.Terminal.Emoji

/-! Markup in messages: a tag in square brackets opens a style, and a tag that starts with a slash
closes one. A backslash in front of a tag makes it text. Codes of emoji count in the text between
tags. -/

namespace Hydration.Markup

inductive MarkupError where
  | nothingOpen (position : Nat)
  | notOpen (tag : String) (position : Nat)
deriving Repr, DecidableEq

def MarkupError.message : MarkupError → String
  | .nothingOpen position => s!"closing tag '[/]' at position {position} has nothing to close"
  | .notOpen tag position =>
    s!"closing tag '{tag}' at position {position} doesn't match any open tag"

/-- A tag starts with a lower-case letter or one of three marks. -/
def startsTag (c : Char) : Bool :=
  ('a' ≤ c && c ≤ 'z') || c == '#' || c == '/' || c == '@'

/-- The inside of a tag and what follows it. No tag holds an opening bracket behind its first
character. -/
def takeTag : List Char → Option (List Char × List Char)
  | '[' :: c :: rest =>
    if startsTag c then
      let inside := rest.takeWhile fun c => c != '[' && c != ']'
      match rest.drop inside.length with
      | ']' :: rest => some (c :: inside, rest)
      | _ => none
    else none
  | _ => none

inductive Part where
  | text (content : List Char)
  | tag (inside : List Char) (position : Nat)
deriving Repr

def leadingBackslashes (cs : List Char) : Nat := (cs.takeWhile (· == '\\')).length

def plainPart (plain : List Char) : List Part :=
  if plain.isEmpty then [] else [.text plain.reverse]

/-- Splits a message at its tags; `plain` is the text since the last one, its end first. -/
def parts : Nat → Nat → List Char → List Char → List Part
  | 0, _, plain, _ => plainPart plain
  | _ + 1, _, plain, [] => plainPart plain
  | fuel + 1, position, plain, cs =>
    let escapes := leadingBackslashes cs
    match takeTag (cs.drop escapes) with
    | some (inside, rest) =>
      let next := position + escapes + inside.length + 2
      let part :=
        if escapes % 2 = 1 then .text ('[' :: inside ++ [']'])
        else .tag inside (position + escapes / 2 * 2)
      plainPart plain ++ .text (List.replicate (escapes / 2) '\\') :: part ::
        parts fuel next [] rest
    | none =>
      let size := max escapes 1
      parts fuel (position + size) ((cs.take size).reverse ++ plain) (cs.drop size)

def trim (cs : List Char) : List Char :=
  ((cs.dropWhile (· == ' ')).reverse.dropWhile (· == ' ')).reverse

def shortNames : List (String × String) :=
  [("b", "bold"), ("d", "dim"), ("i", "italic"), ("u", "underline"), ("r", "reverse"),
    ("s", "strike"), ("c", "conceal"), ("o", "overline"), ("uu", "underline2")]

/-- Styles are the same when their names are, long or short, whatever the case. -/
def styleName (cs : List Char) : String :=
  let name := String.ofList ((trim cs).map Char.toLower)
  (shortNames.lookup name).getD name

def tagName (inside : List Char) : List Char := inside.takeWhile (· != '=')

def closeStyle (name : String) : List String → Option (List String)
  | [] => none
  | opened :: rest => if opened == name then some rest else (closeStyle name rest).map (opened :: ·)

def applyTag (stack : List String) (inside : List Char) (position : Nat) :
    Except MarkupError (List String) :=
  match tagName inside with
  | '/' :: name =>
    if (trim name).isEmpty then
      match stack with
      | [] => .error (.nothingOpen position)
      | _ :: rest => .ok rest
    else match closeStyle (styleName name) stack with
      | some rest => .ok rest
      | none => .error (.notOpen ("[" ++ String.ofList inside ++ "]") position)
  | name => .ok (styleName name :: stack)

def unescape : List Char → List Char
  | '\\' :: '[' :: rest => '[' :: unescape rest
  | c :: rest => c :: unescape rest
  | [] => []

def isControl (c : Char) : Bool :=
  c == '\x07' || c == '\x08' || c == '\x0b' || c == '\x0c' || c == '\r'

def renderParts : List String → List Part → Except MarkupError (List Char)
  | _, [] => .ok []
  | stack, .text content :: rest => do
    let shown := (Emoji.replaceCodes (unescape content)).filter fun c => !isControl c
    return shown ++ (← renderParts stack rest)
  | stack, .tag inside position :: rest => do
    renderParts (← applyTag stack inside position) rest

def render (message : List Char) : Except MarkupError (List Char) :=
  renderParts [] (parts (message.length + 1) 0 [] message)

/-- Puts backslashes in front of what would be read as a tag, and doubles those that stand there. -/
def escapeChars : Nat → List Char → List Char
  | 0, cs => cs
  | _ + 1, [] => []
  | fuel + 1, cs =>
    let escapes := leadingBackslashes cs
    match cs.drop escapes with
    | '[' :: c :: rest =>
      let inside := rest.takeWhile fun c => c != ']' && c != '\n'
      if startsTag c && (rest.drop inside.length).head? == some ']' then
        List.replicate (2 * escapes + 1) '\\' ++ '[' :: c :: inside ++ ']' ::
          escapeChars fuel (rest.drop (inside.length + 1))
      else List.replicate escapes '\\' ++ '[' :: escapeChars fuel (c :: rest)
    | c :: rest => List.replicate escapes '\\' ++ c :: escapeChars fuel rest
    | [] => List.replicate escapes '\\'

/-- A text as a message that shows it. A lone backslash at the end is doubled, as a tag may follow. -/
def escape (text : String) : String :=
  let escaped := escapeChars (text.length + 1) text.toList
  String.ofList (if leadingBackslashes escaped.reverse = 1 then escaped ++ ['\\'] else escaped)

end Hydration.Markup
