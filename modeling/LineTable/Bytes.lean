/-
Byte strings and the two byte orders.

A byte string is a list of bytes.  A run of bytes stands for a number in one of
two orders, and `Endian.encode` writes a number in a given width so that
`Endian.decode` reads it back.
-/

namespace LineTable

abbrev Bytes := List UInt8

namespace Bytes

/-- The number a byte string stands for when its first byte is the lowest. -/
def lowFirst : Bytes → Nat
  | [] => 0
  | b :: rest => b.toNat + 256 * lowFirst rest

/-- The `width` lowest bytes of a number, lowest first. -/
def ofNatLowFirst : Nat → Nat → Bytes
  | 0, _ => []
  | width + 1, n => UInt8.ofNat n :: ofNatLowFirst width (n / 256)

theorem ofNatLowFirst_length (width n : Nat) : (ofNatLowFirst width n).length = width := by
  induction width generalizing n with
  | zero => rfl
  | succ width ih => simp [ofNatLowFirst, ih]

/-- `bytes` from position `start` on, `size` of them, if they are all there. -/
def slice? (bytes : Bytes) (start size : Nat) : Option Bytes :=
  if start ≤ bytes.length then
    let run := (bytes.drop start).take size
    if run.length = size then some run else none
  else none

/-- `bytes` from position `start` on, if they reach that far. -/
def from? (bytes : Bytes) (start : Nat) : Option Bytes :=
  if start ≤ bytes.length then some (bytes.drop start) else none

/-- The string before the first zero byte, if there is one. -/
def untilZero? : Bytes → Option Bytes
  | [] => none
  | b :: rest => if b = 0 then some [] else (untilZero? rest).map (b :: ·)

def ofAscii (text : String) : Bytes := text.toList.map fun c => UInt8.ofNat c.toNat

end Bytes

/-- The order in which the bytes of a number are stored. -/
inductive Endian where
  | little
  | big
deriving DecidableEq, Repr

namespace Endian

def decode : Endian → Bytes → Nat
  | .little, bytes => bytes.lowFirst
  | .big, bytes => Bytes.lowFirst bytes.reverse

/-- A number written in `width` bytes. -/
def encode : Endian → Nat → Nat → Bytes
  | .little, width, n => Bytes.ofNatLowFirst width n
  | .big, width, n => (Bytes.ofNatLowFirst width n).reverse

theorem encode_length (e : Endian) (width n : Nat) : (e.encode width n).length = width := by
  cases e <;> simp [encode, Bytes.ofNatLowFirst_length]

end Endian

end LineTable
