/-
Writing numbers of variable length.

`Leb128.encodeUnsigned` and `Leb128.encodeSigned` use as few bytes as the number
allows.  Reading takes exactly those bytes back: the count of groups a reader
admits bounds the numbers it can read, and nine groups and a last byte hold every
number of 64 bits.  A number may also be written with more groups than it needs, as
`Leb128.Holds` says of unsigned ones, and is read back as long as ten bytes hold it.
-/
import LineTable.Proofs.Reading

namespace LineTable
namespace Leb128

open Reader

/-- An unsigned number in as few bytes as it needs. -/
def encodeUnsigned (n : Nat) : Bytes :=
  if n < 128 then [UInt8.ofNat n]
  else UInt8.ofNat (n % 128 + 128) :: encodeUnsigned (n / 128)

/-- A signed number in as few bytes as it needs. -/
def encodeSigned (n : Int) : Bytes :=
  if -64 ≤ n ∧ n < 64 then [UInt8.ofNat (n % 128).toNat]
  else UInt8.ofNat ((n % 128).toNat + 128) :: encodeSigned (n / 128)
termination_by n.natAbs

/-! ### Unsigned numbers -/

/-- The bytes hold a number in groups of seven bits, and all but the last of them say that
more follow.  There may be more groups than the number needs. -/
inductive Groups : Bytes → Nat → Prop where
  | last {b : UInt8} (hb : b.toNat < 128) : Groups [b] b.toNat
  | more {b : UInt8} {bytes : Bytes} {n : Nat} (hb : 128 ≤ b.toNat) (hrest : Groups bytes n) :
    Groups (b :: bytes) (b.toNat - 128 + 128 * n)

/-- The bytes hold a number of 64 bits, which has ten groups at most. -/
structure Holds (bytes : Bytes) (n : UInt64) : Prop where
  groups : Groups bytes n.toNat
  length_le : bytes.length ≤ 10

theorem Groups.ne_nil {bytes : Bytes} {n : Nat} (h : Groups bytes n) : bytes ≠ [] := by
  cases h <;> exact List.cons_ne_nil _ _

/-- A byte below 128 is the last of a number. -/
theorem reads_unsignedLast (top : UInt8) (groups : Nat) {b : UInt8} (hb : b.toNat < 128) :
    (unsignedGroups top (groups + 1)).Reads [b] b.toNat := by
  have hlt : b < 128 := hb
  rw [unsignedGroups]
  refine (reads_byte b).bind_nil ?_
  rw [if_pos hlt]
  exact Reads.pure b.toNat

/-- Any other byte adds its seven bits below the rest of the number. -/
theorem reads_unsignedMore {top : UInt8} {groups : Nat} {b : UInt8} {bytes : Bytes} {n : Nat}
    (hb : 128 ≤ b.toNat) (h : (unsignedGroups top groups).Reads bytes n) :
    (unsignedGroups top (groups + 1)).Reads (b :: bytes) (b.toNat - 128 + 128 * n) := by
  have hge : ¬ b < 128 := Nat.not_lt.mpr hb
  rw [unsignedGroups]
  refine (reads_byte b).bind ?_
  rw [if_neg hge]
  exact h.bind_pure fun n => b.toNat - 128 + 128 * n

theorem Groups.reads {top : UInt8} {bytes : Bytes} {n : Nat} (h : Groups bytes n) (groups : Nat)
    (hlength : bytes.length ≤ groups + 1) (hn : n < 128 ^ groups * (top.toNat + 1)) :
    (unsignedGroups top groups).Reads bytes n := by
  induction h generalizing groups with
  | @last b hb =>
    cases groups with
    | zero =>
      have hle : b ≤ top := by
        rw [UInt8.le_iff_toNat_le]
        omega
      rw [unsignedGroups]
      refine (reads_byte b).bind_nil ?_
      rw [if_pos hle]
      exact Reads.pure b.toNat
    | succ groups => exact reads_unsignedLast top groups hb
  | @more b bytes n hb hrest ih =>
    have hpos := List.length_pos_iff.2 hrest.ne_nil
    rw [List.length_cons] at hlength
    cases groups with
    | zero => omega
    | succ groups =>
      rw [Nat.pow_succ, Nat.mul_right_comm] at hn
      exact reads_unsignedMore hb (ih groups (by omega) (by omega))

/-- Every number of 64 bits is read back, however many groups it takes. -/
theorem Holds.reads {bytes : Bytes} {n : UInt64} (h : Holds bytes n) :
    unsigned.Reads bytes n := by
  have hgroups : (unsignedGroups 1 9).Reads bytes n.toNat :=
    h.groups.reads 9 h.length_le n.toNat_lt
  have hread := hgroups.bind_pure UInt64.ofNat
  rwa [UInt64.ofNat_toNat] at hread

theorem groups_encodeUnsigned (n : Nat) : Groups (encodeUnsigned n) n := by
  induction n using Nat.strongRecOn with
  | _ n ih =>
    rw [encodeUnsigned]
    by_cases hlast : n < 128
    · have hbyte := UInt8.toNat_ofNat_of_lt' (show n < 256 by omega)
      have hgroups := Groups.last (b := UInt8.ofNat n) (by omega)
      rw [hbyte] at hgroups
      rwa [if_pos hlast]
    · have hbyte := UInt8.toNat_ofNat_of_lt' (show n % 128 + 128 < 256 by omega)
      have hgroups := Groups.more (b := UInt8.ofNat (n % 128 + 128)) (by omega)
        (ih (n / 128) (by omega))
      have hvalue : n % 128 + 128 - 128 + 128 * (n / 128) = n := by omega
      rw [hbyte, hvalue] at hgroups
      rwa [if_neg hlast]

theorem length_encodeUnsigned_le (groups n : Nat) (hn : n < 128 ^ (groups + 1)) :
    (encodeUnsigned n).length ≤ groups + 1 := by
  induction groups generalizing n with
  | zero =>
    rw [encodeUnsigned, if_pos (by omega)]
    exact Nat.le_refl 1
  | succ groups ih =>
    rw [encodeUnsigned]
    by_cases hlast : n < 128
    · rw [if_pos hlast, List.length_singleton]
      omega
    · rw [if_neg hlast, List.length_cons]
      rw [Nat.pow_succ] at hn
      exact Nat.succ_le_succ (ih (n / 128) (by omega))

theorem holds_encodeUnsigned (n : UInt64) : Holds (encodeUnsigned n.toNat) n where
  groups := groups_encodeUnsigned n.toNat
  length_le := by
    refine length_encodeUnsigned_le 9 n.toNat ?_
    have hlt := n.toNat_lt
    omega

/-- Every number of 64 bits is read back. -/
theorem reads_unsigned (n : UInt64) : unsigned.Reads (encodeUnsigned n.toNat) n :=
  (holds_encodeUnsigned n).reads

/-! ### Signed numbers -/

/-- A byte below 64 is the last of a number that is not negative. -/
theorem reads_signedLast (groups : Nat) {b : UInt8} (hb : b.toNat < 64) :
    (signedGroups (groups + 1)).Reads [b] b.toNat := by
  have hlt : b < 64 := hb
  rw [signedGroups]
  refine (reads_byte b).bind_nil ?_
  rw [if_pos hlt]
  exact Reads.pure _

/-- A byte from 64 to 127 is the last of a negative number. -/
theorem reads_signedNegative (groups : Nat) {b : UInt8} (hlow : 64 ≤ b.toNat)
    (hhigh : b.toNat < 128) : (signedGroups (groups + 1)).Reads [b] (b.toNat - 128) := by
  have hge : ¬ b < 64 := Nat.not_lt.mpr hlow
  have hlt : b < 128 := hhigh
  rw [signedGroups]
  refine (reads_byte b).bind_nil ?_
  rw [if_neg hge, if_pos hlt]
  exact Reads.pure _

theorem reads_signedMore {groups : Nat} {b : UInt8} {bytes : Bytes} {n : Int}
    (hb : 128 ≤ b.toNat) (h : (signedGroups groups).Reads bytes n) :
    (signedGroups (groups + 1)).Reads (b :: bytes) (b.toNat - 128 + 128 * n) := by
  have hge : ¬ b < 64 := Nat.not_lt.mpr (Nat.le_trans (by decide) hb)
  have hge' : ¬ b < 128 := Nat.not_lt.mpr hb
  rw [signedGroups]
  refine (reads_byte b).bind ?_
  rw [if_neg hge, if_neg hge']
  exact h.bind_pure fun n => (b.toNat : Int) - 128 + 128 * n

theorem reads_signedGroups (groups : Nat) (n : Int) (hlow : -128 ^ groups ≤ n)
    (hhigh : n < 128 ^ groups) : (signedGroups groups).Reads (encodeSigned n) n := by
  induction groups generalizing n with
  | zero =>
    have hcases : n = 0 ∨ n = -1 := by omega
    intro more
    rcases hcases with rfl | rfl <;> rw [encodeSigned] <;> rfl
  | succ groups ih =>
    rw [encodeSigned]
    by_cases hlast : -64 ≤ n ∧ n < 64
    · have hbyte := UInt8.toNat_ofNat_of_lt' (show (n % 128).toNat < 256 by omega)
      rw [if_pos hlast]
      by_cases hneg : n < 0
      · have hread := reads_signedNegative groups (b := UInt8.ofNat (n % 128).toNat)
          (by omega) (by omega)
        have hvalue : ((n % 128).toNat : Int) - 128 = n := by omega
        rwa [hbyte, hvalue] at hread
      · have hread := reads_signedLast groups (b := UInt8.ofNat (n % 128).toNat)
          (by omega)
        have hvalue : ((n % 128).toNat : Int) = n := by omega
        rwa [hbyte, hvalue] at hread
    · have hbyte := UInt8.toNat_ofNat_of_lt' (show (n % 128).toNat + 128 < 256 by omega)
      rw [Int.pow_succ] at hlow hhigh
      have hread := reads_signedMore (b := UInt8.ofNat ((n % 128).toNat + 128)) (by omega)
        (ih (n / 128) (by omega) (by omega))
      have hvalue : (((n % 128).toNat + 128 : Nat) : Int) - 128 + 128 * (n / 128) = n := by omega
      rw [hbyte, hvalue] at hread
      rwa [if_neg hlast]

/-- Every signed number of 64 bits is read back. -/
theorem reads_signed (n : Int64) : signed.Reads (encodeSigned n.toInt) n := by
  have hread := (reads_signedGroups 9 n.toInt n.le_toInt n.toInt_lt).bind_pure Int64.ofInt
  rwa [Int64.ofInt_toInt] at hread

end Leb128
end LineTable
