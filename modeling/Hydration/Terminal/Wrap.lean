import Hydration.Text.Character
import Hydration.Text.Combining

/-! Breaking text into lines of a given width. Words that fit on no line are cut. -/

namespace Hydration.Wrap

def wideRanges : List (Nat × Nat) :=
  [(0x1100, 0x115f), (0x231a, 0x231b), (0x2329, 0x232a), (0x23e9, 0x23ec), (0x23f0, 0x23f0),
    (0x23f3, 0x23f3), (0x25fd, 0x25fe), (0x2614, 0x2615), (0x2648, 0x2653), (0x267f, 0x267f),
    (0x2693, 0x2693), (0x26a1, 0x26a1), (0x26aa, 0x26ab), (0x26bd, 0x26be), (0x26c4, 0x26c5),
    (0x26ce, 0x26ce), (0x26d4, 0x26d4), (0x26ea, 0x26ea), (0x26f2, 0x26f3), (0x26f5, 0x26f5),
    (0x26fa, 0x26fa), (0x26fd, 0x26fd), (0x2705, 0x2705), (0x270a, 0x270b), (0x2728, 0x2728),
    (0x274c, 0x274c), (0x274e, 0x274e), (0x2753, 0x2755), (0x2757, 0x2757), (0x2795, 0x2797),
    (0x27b0, 0x27b0), (0x27bf, 0x27bf), (0x2b1b, 0x2b1c), (0x2b50, 0x2b50), (0x2b55, 0x2b55),
    (0x2e80, 0x303e), (0x3041, 0x33ff), (0x3400, 0x4dbf), (0x4e00, 0xa4cf), (0xa960, 0xa97c),
    (0xac00, 0xd7a3), (0xf900, 0xfaff), (0xfe10, 0xfe19), (0xfe30, 0xfe6b), (0xff01, 0xff60),
    (0xffe0, 0xffe6), (0x1f300, 0x1f64f), (0x1f680, 0x1f6ff), (0x1f900, 0x1f9ff),
    (0x20000, 0x3fffd)]

def cells (c : Char) : Nat :=
  let n := c.toNat
  if n == 0 || n == 0x200d || (0xfe00 ≤ n && n ≤ 0xfe0f) || Text.isCombining c then 0
  else if n < 32 || (0x7f ≤ n && n < 0xa0) then 0
  else if wideRanges.any fun (low, high) => low ≤ n && n ≤ high then 2
  else 1

def width (cs : List Char) : Nat := cs.foldr (fun c n => cells c + n) 0

def takeWord (cs : List Char) : List Char × List Char :=
  let front := cs.takeWhile Text.isBlank
  let rest := cs.drop front.length
  let word := rest.takeWhile fun c => !Text.isBlank c
  let rest := rest.drop word.length
  let back := rest.takeWhile Text.isBlank
  (front ++ word ++ back, rest.drop back.length)

def words : Nat → List Char → List (List Char)
  | 0, _ => []
  | fuel + 1, cs =>
    if cs.all Text.isBlank then []
    else
      let (word, rest) := takeWord cs
      word :: words fuel rest

def trimEnd (cs : List Char) : List Char := (cs.reverse.dropWhile Text.isBlank).reverse

def pieces (limit : Nat) : List Char → List Char → Nat → List (List Char)
  | [], piece, _ => [piece.reverse]
  | c :: rest, piece, used =>
    if used + cells c > limit && !piece.isEmpty then
      piece.reverse :: pieces limit rest [c] (cells c)
    else pieces limit rest (c :: piece) (used + cells c)

/-- Lines so far, the last one first, and the cells used on the last one. -/
structure Broken where
  lines : List (List Char) := [[]]
  used : Nat := 0

def Broken.extend (b : Broken) (cs : List Char) : Broken :=
  match b.lines with
  | [] => { lines := [cs], used := width cs }
  | line :: rest => { lines := (line ++ cs) :: rest, used := b.used + width cs }

def Broken.next (b : Broken) (cs : List Char) : Broken :=
  { lines := cs :: b.lines, used := width cs }

def Broken.isFresh (b : Broken) : Bool := b.lines == [[]]

def Broken.addWord (limit : Nat) (b : Broken) (word : List Char) : Broken :=
  let size := width (trimEnd word)
  if b.used + size ≤ limit then b.extend word
  else if size > limit then
    match pieces limit word [] 0 with
    | [] => b
    | first :: rest =>
      let b := if b.isFresh then b.extend first else b.next first
      rest.foldl Broken.next b
  else if b.isFresh then b.extend word
  else b.next word

def expandTabs : Nat → List Char → List Char
  | _, [] => []
  | column, '\t' :: rest =>
    let step := 8 - column % 8
    List.replicate step ' ' ++ expandTabs (column + step) rest
  | column, c :: rest => c :: expandTabs (column + cells c) rest

def wrapLine (limit : Nat) (line : List Char) : List (List Char) :=
  let line := expandTabs 0 line
  let broken := (words (line.length + 1) line).foldl (Broken.addWord limit) {}
  broken.lines.reverse.map trimEnd

def wrap (limit : Nat) (text : List Char) : List (List Char) :=
  (text.splitOnP (· == '\n')).flatMap (wrapLine limit)

end Hydration.Wrap
