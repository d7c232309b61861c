/-
Writing instructions.

A statement is an instruction with the choices that its bytes leave open: how many
bytes an address takes, and what fills the rest of an extended instruction's
declared length.  `Statement.encode` writes a statement, `Statement.Expressible`
says which statements a header lets one write, and `read_encode` reads each of
those back and leaves what follows it.
-/
import LineTable.Program.Execution
import LineTable.Proofs.FileNames

namespace LineTable

/-- An instruction together with what its bytes leave open. -/
structure Statement where
  instruction : Instruction
  /-- The number of bytes of an address. -/
  addressSize : Nat := 8
  /-- What follows the operands within the declared length of an extended instruction. -/
  padding : Bytes := []
deriving DecidableEq, Repr

namespace Instruction

/-- The byte that an instruction begins with.  Zero announces an extended one. -/
def opcode : Instruction → UInt8
  | special opcode => opcode
  | copy => 1
  | advancePc _ => 2
  | advanceLine _ => 3
  | setFile _ => 4
  | setColumn _ => 5
  | negateStatement => 6
  | setBasicBlock => 7
  | constAddPc => 8
  | fixedAdvancePc _ => 9
  | setPrologueEnd => 10
  | setEpilogueBegin => 11
  | setIsa _ => 12
  | skip opcode _ => opcode
  | empty | endSequence | setAddress _ | defineFile _ | setDiscriminator _ | skipExtended _ => 0

/-- The operands of a standard instruction. -/
def operands (e : Endian) : Instruction → Bytes
  | advancePc n | setFile n | setColumn n | setIsa n => Leb128.encodeUnsigned n.toNat
  | advanceLine n => Leb128.encodeSigned n.toInt
  | fixedAdvancePc n => e.encode 2 n.toNat
  | skip _ values => values.flatMap fun n => Leb128.encodeUnsigned n.toNat
  | _ => []

end Instruction

namespace Statement

open Instruction

/-- The region of an extended instruction: its opcode, its operands and the padding. -/
def region (e : Endian) (s : Statement) : Bytes :=
  match s.instruction with
  | .endSequence => 1 :: s.padding
  | .setAddress address => 2 :: e.encode s.addressSize address.toNat
  | .defineFile entry => 3 :: (entry.encode ++ s.padding)
  | .setDiscriminator n => 4 :: (Leb128.encodeUnsigned n.toNat ++ s.padding)
  | .skipExtended opcode => opcode :: s.padding
  | _ => []

def encode (e : Endian) (s : Statement) : Bytes :=
  match s.instruction with
  | .empty => [0, 0]
  | .endSequence | .setAddress _ | .defineFile _ | .setDiscriminator _ | .skipExtended _ =>
    0 :: (Leb128.encodeUnsigned (s.region e).length ++ s.region e)
  | i => i.opcode :: i.operands e

/-- Whether a header lets a statement be written.  Standard opcodes lie below the
opcode base and special ones do not, and a declared length has 64 bits. -/
def Expressible (h : Header) (e : Endian) (s : Statement) : Prop :=
  match s.instruction with
  | .special opcode => h.opcodeBase ≤ opcode ∧ h.version = 2 ∧ h.lineRange ≠ 0
  | .constAddPc => 8 < h.opcodeBase ∧ h.lineRange ≠ 0
  | .skip opcode values => 12 < opcode ∧ opcode < h.opcodeBase ∧
      values.length = ((h.operandCount? opcode).getD 0).toNat
  | .empty => True
  | .setAddress address =>
      (s.addressSize = 1 ∨ s.addressSize = 2 ∨ s.addressSize = 4 ∨ s.addressSize = 8) ∧
        address.toNat < 256 ^ s.addressSize
  | .defineFile entry => '\x00' ∉ entry.path.toList ∧ (s.region e).length < 2 ^ 64
  | .skipExtended opcode => (opcode = 0 ∨ 4 < opcode) ∧ (s.region e).length < 2 ^ 64
  | .endSequence | .setDiscriminator _ => (s.region e).length < 2 ^ 64
  | i => i.opcode < h.opcodeBase

end Statement

def assemble (e : Endian) (code : List Statement) : Bytes := code.flatMap (Statement.encode e)

namespace Instruction

open Reader

variable {h : Header} {e : Endian} {i : Instruction} {bytes : Bytes}

theorem reads_special {v : UInt8} (hv : h.opcodeBase ≤ v) :
    (read h e).Reads [v] (.special v) := by
  refine (reads_byte v).bind_nil ?_
  rw [if_pos hv]
  exact Reads.pure _

/-- Opcodes below the opcode base other than zero are standard ones. -/
theorem reads_standard (v : UInt8) (hv : v < h.opcodeBase) (hzero : v ≠ 0)
    (hread : (readStandard h e v).Reads bytes i) : (read h e).Reads (v :: bytes) i := by
  refine (reads_byte v).bind ?_
  rw [if_neg (UInt8.not_le.mpr hv), if_neg hzero]
  exact hread

theorem reads_extended (hbase : 1 ≤ h.opcodeBase) (hread : (readExtended e).Reads bytes i) :
    (read h e).Reads (0 :: bytes) i := by
  have hlt : (0 : UInt8) < h.opcodeBase := hbase
  refine (reads_byte 0).bind ?_
  rw [if_neg (UInt8.not_le.mpr hlt), if_pos rfl]
  exact hread

theorem reads_empty : (readExtended e).Reads [0] .empty := fun _ => rfl

/-- An extended instruction is decided by its region alone, however its length is written. -/
theorem reads_sizedRegion {size region left : Bytes} {length : UInt64}
    (hsize : Leb128.unsigned.Reads size length) (hlength : length.toNat = region.length)
    (hpos : region ≠ []) (hread : (readOperation e region.length).run region = .ok (i, left)) :
    (readExtended e).Reads (size ++ region) i := by
  have hne : length ≠ 0 := by
    rintro rfl
    exact hpos (List.eq_nil_of_length_eq_zero hlength.symm)
  refine hsize.bind ?_
  rw [if_neg hne, hlength]
  exact (reads_take region).bind_nil (reads_within hread)

theorem reads_region {region left : Bytes} (hpos : region ≠ []) (hlength : region.length < 2 ^ 64)
    (hread : (readOperation e region.length).run region = .ok (i, left)) :
    (readExtended e).Reads (Leb128.encodeUnsigned region.length ++ region) i := by
  have hsize : (UInt64.ofNat region.length).toNat = region.length :=
    UInt64.toNat_ofNat_of_lt' hlength
  have hdeclared := Leb128.reads_unsigned (UInt64.ofNat region.length)
  rw [hsize] at hdeclared
  exact reads_sizedRegion hdeclared hsize hpos hread

/-- The region of an operation and its padding. -/
theorem reads_operation (operation : Bytes) {padding : Bytes} (hpos : operation ≠ [])
    (hlength : (operation ++ padding).length < 2 ^ 64)
    (hread : (readOperation e (operation ++ padding).length).Reads operation i) :
    (readExtended e).Reads
      (Leb128.encodeUnsigned (operation ++ padding).length ++ (operation ++ padding)) i :=
  reads_region (List.append_ne_nil_of_left_ne_nil hpos padding) hlength (hread padding)

theorem readOperation_endSequence (size : Nat) :
    (readOperation e size).Reads [1] .endSequence := fun _ => rfl

/-- The size of an address is what its region leaves for it. -/
theorem reads_setAddress {size : Nat} {address : UInt64}
    (hsize : size = 1 ∨ size = 2 ∨ size = 4 ∨ size = 8) (hfits : address.toNat < 256 ^ size) :
    (readExtended e).Reads
      (Leb128.encodeUnsigned (2 :: e.encode size address.toNat).length ++
        2 :: e.encode size address.toNat) (.setAddress address) := by
  have hlength : (2 :: e.encode size address.toNat).length = size + 1 := by
    rw [List.length_cons, Endian.encode_length]
  have hread : (readOperation e (size + 1)).Reads (2 :: e.encode size address.toNat)
      (.setAddress address) :=
    (reads_byte 2).bind ((reads_address e hsize hfits).bind_pure Instruction.setAddress)
  have hrun := hread []
  rw [List.append_nil, ← hlength] at hrun
  exact reads_region (List.cons_ne_nil _ _) (by omega) hrun

theorem readOperation_defineFile (size : Nat) {entry : FileEntry}
    (hpath : '\x00' ∉ entry.path.toList) :
    (readOperation e size).Reads (3 :: entry.encode) (.defineFile entry) :=
  (reads_byte 3).bind ((FileEntry.reads_read hpath).bind_pure Instruction.defineFile)

theorem readOperation_setDiscriminator (size : Nat) (n : UInt64) :
    (readOperation e size).Reads (4 :: Leb128.encodeUnsigned n.toNat) (.setDiscriminator n) :=
  (reads_byte 4).bind ((Leb128.reads_unsigned n).bind_pure Instruction.setDiscriminator)

theorem readOperation_skipExtended (size : Nat) {opcode : UInt8} (h : opcode = 0 ∨ 4 < opcode) :
    (readOperation e size).Reads [opcode] (.skipExtended opcode) := by
  refine (reads_byte opcode).bind_nil ?_
  split
  case h_5 => exact Reads.pure _
  all_goals exact absurd h (by decide)

/-- Opcodes from 13 on are skipped with as many operands as the header declares. -/
theorem readStandard_eq {opcode : UInt8} (hopcode : 12 < opcode) :
    readStandard h e opcode =
      .skip opcode <$> times Leb128.unsigned ((h.operandCount? opcode).getD 0).toNat := by
  unfold readStandard
  split
  case h_13 => rfl
  all_goals exact absurd hopcode (by decide)

theorem readStandard_skip {opcode : UInt8} {values : List UInt64} (hopcode : 12 < opcode)
    (hcount : values.length = ((h.operandCount? opcode).getD 0).toNat) :
    (readStandard h e opcode).Reads (values.flatMap fun n => Leb128.encodeUnsigned n.toNat)
      (.skip opcode values) := by
  have hvalues := (reads_times values fun n _ => Leb128.reads_unsigned n).map
    (Instruction.skip opcode)
  rw [hcount] at hvalues
  rw [readStandard_eq hopcode]
  exact hvalues

end Instruction

namespace Statement

open Instruction

/-- Every statement that a header lets one write is read back. -/
theorem read_encode {h : Header} {e : Endian} {s : Statement} (hbase : 1 ≤ h.opcodeBase)
    (hs : s.Expressible h e) : (Instruction.read h e).Reads (s.encode e) s.instruction := by
  obtain ⟨i, addressSize, padding⟩ := s
  cases i with
  | special v => exact reads_special hs.1
  | copy => exact reads_standard 1 hs (by decide) (Reader.Reads.pure _)
  | advancePc n =>
    exact reads_standard 2 hs (by decide) ((Leb128.reads_unsigned n).map Instruction.advancePc)
  | advanceLine n =>
    exact reads_standard 3 hs (by decide) ((Leb128.reads_signed n).map Instruction.advanceLine)
  | setFile n =>
    exact reads_standard 4 hs (by decide) ((Leb128.reads_unsigned n).map Instruction.setFile)
  | setColumn n =>
    exact reads_standard 5 hs (by decide) ((Leb128.reads_unsigned n).map Instruction.setColumn)
  | negateStatement => exact reads_standard 6 hs (by decide) (Reader.Reads.pure _)
  | setBasicBlock => exact reads_standard 7 hs (by decide) (Reader.Reads.pure _)
  | constAddPc => exact reads_standard 8 hs.1 (by decide) (Reader.Reads.pure _)
  | fixedAdvancePc n =>
    exact reads_standard 9 hs (by decide) ((Reader.reads_u16 e n).map Instruction.fixedAdvancePc)
  | setPrologueEnd => exact reads_standard 10 hs (by decide) (Reader.Reads.pure _)
  | setEpilogueBegin => exact reads_standard 11 hs (by decide) (Reader.Reads.pure _)
  | setIsa n =>
    exact reads_standard 12 hs (by decide) ((Leb128.reads_unsigned n).map Instruction.setIsa)
  | skip opcode values =>
    obtain ⟨hopcode, hlt, hcount⟩ := hs
    have hzero : opcode ≠ 0 := fun h0 => absurd hopcode (by rw [h0]; decide)
    exact reads_standard opcode hlt hzero (readStandard_skip hopcode hcount)
  | empty => exact reads_extended hbase reads_empty
  | endSequence =>
    exact reads_extended hbase
      (reads_operation [1] (by simp) hs (readOperation_endSequence _))
  | setAddress address =>
    obtain ⟨hsize, hfits⟩ := hs
    exact reads_extended hbase (reads_setAddress hsize hfits)
  | defineFile entry =>
    obtain ⟨hpath, hlength⟩ := hs
    exact reads_extended hbase
      (reads_operation (3 :: entry.encode) (by simp) hlength
        (readOperation_defineFile _ hpath))
  | setDiscriminator n =>
    exact reads_extended hbase
      (reads_operation (4 :: Leb128.encodeUnsigned n.toNat) (by simp) hs
        (readOperation_setDiscriminator _ n))
  | skipExtended opcode =>
    obtain ⟨hopcode, hlength⟩ := hs
    exact reads_extended hbase
      (reads_operation [opcode] (by simp) hlength (readOperation_skipExtended _ hopcode))

end Statement
end LineTable
