/-! Kinds of characters: blank ones, and the decimal digits of every script. A set of code points is
written as bands, which are the sorted positions at which membership changes: a code point is a member
when an odd number of changes lies at or below it. -/

namespace Hydration.Text

def inBands (changes : Array Nat) (code : Nat) : Bool :=
  changes.foldl (fun inside change => if change ≤ code then !inside else inside) false

/-- The Unicode property White_Space. -/
def isWhiteSpace (c : Char) : Bool :=
  let n := c.toNat
  (9 ≤ n && n ≤ 13) || n == 32 || n == 0x85 || n == 0xa0 || n == 0x1680 ||
    (0x2000 ≤ n && n ≤ 0x200a) || n == 0x2028 || n == 0x2029 || n == 0x202f || n == 0x205f ||
    n == 0x3000

/-- In the wide sense also the information separators of ASCII are blank. -/
def isBlank (c : Char) : Bool := isWhiteSpace c || (28 ≤ c.toNat && c.toNat ≤ 31)

def trimBoth (p : Char → Bool) (cs : List Char) : List Char :=
  ((cs.dropWhile p).reverse.dropWhile p).reverse

def strip (s : String) : String := String.ofList (trimBoth isBlank s.toList)

def decimalBands : Array Nat := #[
  48, 58, 1632, 1642, 1776, 1786, 1984, 1994, 2406, 2416, 2534, 2544, 2662, 2672, 2790, 2800, 2918,
  2928, 3046, 3056, 3174, 3184, 3302, 3312, 3430, 3440, 3558, 3568, 3664, 3674, 3792, 3802, 3872,
  3882, 4160, 4170, 4240, 4250, 6112, 6122, 6160, 6170, 6470, 6480, 6608, 6618, 6784, 6794, 6800,
  6810, 6992, 7002, 7088, 7098, 7232, 7242, 7248, 7258, 42528, 42538, 43216, 43226, 43264, 43274,
  43472, 43482, 43504, 43514, 43600, 43610, 44016, 44026, 65296, 65306, 66720, 66730, 68912, 68922,
  69734, 69744, 69872, 69882, 69942, 69952, 70096, 70106, 70384, 70394, 70736, 70746, 70864, 70874,
  71248, 71258, 71360, 71370, 71472, 71482, 71904, 71914, 72016, 72026, 72784, 72794, 73040, 73050,
  73120, 73130, 92768, 92778, 92864, 92874, 93008, 93018, 120782, 120832, 123200, 123210, 123632,
  123642, 125264, 125274, 130032, 130042]

def isDecimal (c : Char) : Bool :=
  if c.toNat < 128 then c.isDigit else inBands decimalBands c.toNat

/-- The value of a digit. The digits of a script stand in order. -/
def decimalValue (c : Char) : Nat :=
  let start := decimalBands.foldl (fun start n => if n ≤ c.toNat then n else start) 0
  (c.toNat - start) % 10

end Hydration.Text
