/-! The normal form of a path: single slashes, no `.` segments, and `..` only where nothing is left
to leave. Two leading slashes are kept, as they may name another root. -/

namespace Hydration.Path

/-- Backslashes separate segments too. -/
def unifySlashes (cs : List Char) : List Char :=
  cs.map fun c => if c == '\\' then '/' else c

def segments (cs : List Char) : List (List Char) := cs.splitOnP (· == '/')

/-- How many slashes a normal form starts with. -/
def leadingSlashes : List Char → Nat
  | '/' :: '/' :: '/' :: _ => 1
  | '/' :: '/' :: _ => 2
  | '/' :: _ => 1
  | _ => 0

/-- Adds a segment to a path held last segment first. -/
def enter (rooted : Bool) (path : List (List Char)) (segment : List Char) : List (List Char) :=
  if segment = [] ∨ segment = ['.'] then path
  else if segment = ['.', '.'] then
    match path with
    | [] => if rooted then [] else [segment]
    | last :: rest => if last = ['.', '.'] then segment :: path else rest
  else segment :: path

def collapse (rooted : Bool) (parts : List (List Char)) : List (List Char) :=
  (parts.foldl (enter rooted) []).reverse

def joinSegments : List (List Char) → List Char
  | [] => []
  | [last] => last
  | segment :: next :: rest => segment ++ '/' :: joinSegments (next :: rest)

def normalChars (cs : List Char) : List Char :=
  let slashes := leadingSlashes cs
  let text := List.replicate slashes '/' ++ joinSegments (collapse (slashes != 0) (segments cs))
  if text.isEmpty then ['.'] else text

/-- The key under which a path is looked up. -/
def normalize (path : String) : String :=
  String.ofList (normalChars (unifySlashes path.toList))

end Hydration.Path
