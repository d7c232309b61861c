/-
Numbers of variable length.

A number is written in groups of seven bits, the lowest first, and every byte but
the last has its top bit set.  A 64-bit number takes at most ten bytes, and the
tenth holds one bit: nine groups leave room for no more.  The last byte of a
signed number carries the sign in its second highest bit.
-/
import LineTable.Reader

namespace LineTable
namespace Leb128

open Reader

/-- `groups` bytes that may all be continued, and then a last one of at most `top`. -/
def unsignedGroups (top : UInt8) : Nat → Reader Nat
  | 0 => do
    let b ← byte
    if b ≤ top then return b.toNat else fail .unsignedLeb128
  | groups + 1 => do
    let b ← byte
    if b < 128 then return b.toNat
    else return b.toNat - 128 + 128 * (← unsignedGroups top groups)

theorem unsignedGroups_shrinks (top : UInt8) : ∀ groups, (unsignedGroups top groups).Shrinks
  | 0 => byte_shrinks.bind _
  | _ + 1 => byte_shrinks.bind _

def unsigned : Reader UInt64 := do
  return UInt64.ofNat (← unsignedGroups 1 9)

def unsigned16 : Reader UInt16 := do
  return UInt16.ofNat (← unsignedGroups 3 2)

theorem unsigned_shrinks : unsigned.Shrinks := Shrinks.bind (unsignedGroups_shrinks 1 9) _

theorem unsigned16_shrinks : unsigned16.Shrinks := Shrinks.bind (unsignedGroups_shrinks 3 2) _

/-- `groups` bytes that may all be continued, and then one that holds only the sign. -/
def signedGroups : Nat → Reader Int
  | 0 => do
    let b ← byte
    if b = 0 then return 0
    else if b = 127 then return -1
    else fail .signedLeb128
  | groups + 1 => do
    let b ← byte
    if b < 64 then return b.toNat
    else if b < 128 then return b.toNat - 128
    else return b.toNat - 128 + 128 * (← signedGroups groups)

def signed : Reader Int64 := do
  return Int64.ofInt (← signedGroups 9)

end Leb128
end LineTable
