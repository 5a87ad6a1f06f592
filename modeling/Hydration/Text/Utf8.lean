/-! Text as bytes. A sequence of bytes that is no UTF-8 is refused with the bytes at fault: a byte
that cannot start a character, the start of a character that goes on wrongly, or one that the end of
the text cuts off. -/

namespace Hydration.Text

inductive Utf8Fault where
  | badStart
  | badContinuation
  | cutOff
deriving Repr, DecidableEq

def Utf8Fault.reason : Utf8Fault → String
  | .badStart => "invalid start byte"
  | .badContinuation => "invalid continuation byte"
  | .cutOff => "unexpected end of data"

structure Utf8Error where
  fault : Utf8Fault
  byte : UInt8
  position : Nat
  count : Nat
deriving Repr, DecidableEq

def hexByte (b : UInt8) : String :=
  String.ofList [Nat.digitChar (b.toNat / 16), Nat.digitChar (b.toNat % 16)]

def Utf8Error.message (e : Utf8Error) : String :=
  if e.count = 1 then
    s!"'utf-8' codec can't decode byte 0x{hexByte e.byte} in position {e.position}: " ++
      e.fault.reason
  else
    s!"'utf-8' codec can't decode bytes in position {e.position}-{e.position + e.count - 1}: " ++
      e.fault.reason

def isContinuation (b : UInt8) : Bool := 0x80 ≤ b && b < 0xC0

/-- How many bytes follow a first byte, and the bounds of the second one. -/
def sequenceShape (b : UInt8) : Option (Nat × UInt8 × UInt8) :=
  if 0xC2 ≤ b && b < 0xE0 then some (1, 0x80, 0xBF)
  else if b == 0xE0 then some (2, 0xA0, 0xBF)
  else if b == 0xED then some (2, 0x80, 0x9F)
  else if 0xE1 ≤ b && b < 0xF0 then some (2, 0x80, 0xBF)
  else if b == 0xF0 then some (3, 0x90, 0xBF)
  else if b == 0xF4 then some (3, 0x80, 0x8F)
  else if 0xF1 ≤ b && b < 0xF4 then some (3, 0x80, 0xBF)
  else none

def goodCount (low high : UInt8) : List UInt8 → Nat
  | [] => 0
  | second :: rest =>
    if low ≤ second && second ≤ high then (rest.takeWhile isContinuation).length + 1 else 0

def leadBits (count : Nat) (b : UInt8) : Nat := b.toNat % Nat.pow 2 (6 - count)

def sequenceValue (lead : Nat) (tail : List UInt8) : Nat :=
  tail.foldl (fun n b => 64 * n + b.toNat % 64) lead

def decodeOne (position : Nat) (b : UInt8) (rest : List UInt8) : Except Utf8Error (Char × Nat) :=
  if b < 0x80 then .ok (Char.ofNat b.toNat, 1)
  else match sequenceShape b with
  | none => .error ⟨.badStart, b, position, 1⟩
  | some (count, low, high) =>
    let tail := rest.take count
    let good := goodCount low high tail
    if good = count then .ok (Char.ofNat (sequenceValue (leadBits count b) tail), count + 1)
    else if good = tail.length then .error ⟨.cutOff, b, position, good + 1⟩
    else .error ⟨.badContinuation, b, position, good + 1⟩

def decodeAt : Nat → Nat → List UInt8 → Except Utf8Error (List Char)
  | 0, _, _ => .ok []
  | _ + 1, _, [] => .ok []
  | fuel + 1, position, b :: rest =>
    match decodeOne position b rest with
    | .error e => .error e
    | .ok (c, size) =>
      match decodeAt fuel (position + size) (rest.drop (size - 1)) with
      | .ok cs => .ok (c :: cs)
      | .error e => .error e

def decode (bytes : List UInt8) : Except Utf8Error String :=
  (decodeAt (bytes.length + 1) 0 bytes).map String.ofList

def encode (text : String) : List UInt8 := text.toUTF8.toList

def unifyLineEnds : List Char → List Char
  | '\r' :: '\n' :: rest => '\n' :: unifyLineEnds rest
  | '\r' :: rest => '\n' :: unifyLineEnds rest
  | c :: rest => c :: unifyLineEnds rest
  | [] => []

def readText (bytes : List UInt8) : Except Utf8Error String :=
  (decode bytes).map fun text => String.ofList (unifyLineEnds text.toList)

end Hydration.Text
