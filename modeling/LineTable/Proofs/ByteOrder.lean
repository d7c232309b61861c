/-
Numbers in a fixed width.

A width of `w` bytes holds the numbers below `256 ^ w`.  Either byte order reads back
what it wrote, and never reads more than its width holds.
-/
import LineTable.Bytes
import Mathlib.Algebra.Group.Int.Defs
import Mathlib.Algebra.Group.Nat.Defs

namespace LineTable

namespace Bytes

theorem lowFirst_ofNatLowFirst (width n : Nat) :
    lowFirst (ofNatLowFirst width n) = n % 256 ^ width := by
  induction width generalizing n with
  | zero => simp [ofNatLowFirst, lowFirst, Nat.mod_one]
  | succ width ih =>
    have hb : (UInt8.ofNat n).toNat = n % 256 := UInt8.toNat_ofNat'
    rw [ofNatLowFirst, lowFirst, ih, hb, Nat.pow_succ', Nat.mod_mul]

theorem lowFirst_lt (bytes : Bytes) : lowFirst bytes < 256 ^ bytes.length := by
  induction bytes with
  | nil => simp [lowFirst]
  | cons b rest ih =>
    have hb : b.toNat < 256 := b.toNat_lt
    simp only [lowFirst, List.length_cons, Nat.pow_succ]
    omega

theorem ofNatLowFirst_lowFirst (bytes : Bytes) :
    ofNatLowFirst bytes.length (lowFirst bytes) = bytes := by
  induction bytes with
  | nil => rfl
  | cons b rest ih =>
    have hb : b.toNat < 256 := b.toNat_lt
    have hdiv : (b.toNat + 256 * lowFirst rest) / 256 = lowFirst rest := by omega
    have hlow : UInt8.ofNat (b.toNat + 256 * lowFirst rest) = b := by
      rw [← UInt8.toNat_inj, UInt8.toNat_ofNat']
      omega
    rw [List.length_cons, lowFirst, ofNatLowFirst, hdiv, hlow, ih]

end Bytes

namespace Endian

/-- A number that fits its width is read back. -/
theorem decode_encode (e : Endian) {width n : Nat} (h : n < 256 ^ width) :
    e.decode (e.encode width n) = n := by
  cases e <;> simp [encode, decode, Bytes.lowFirst_ofNatLowFirst, Nat.mod_eq_of_lt h]

theorem decode_lt (e : Endian) (bytes : Bytes) : e.decode bytes < 256 ^ bytes.length := by
  cases e
  · exact Bytes.lowFirst_lt bytes
  · simpa [decode] using Bytes.lowFirst_lt bytes.reverse

/-- Bytes are the only way to write the number that they stand for in their width. -/
theorem encode_decode (e : Endian) (bytes : Bytes) :
    e.encode bytes.length (e.decode bytes) = bytes := by
  cases e with
  | little => exact Bytes.ofNatLowFirst_lowFirst bytes
  | big =>
    have hreversed := Bytes.ofNatLowFirst_lowFirst bytes.reverse
    rw [List.length_reverse] at hreversed
    rw [encode, decode, hreversed, List.reverse_reverse]

end Endian

end LineTable
