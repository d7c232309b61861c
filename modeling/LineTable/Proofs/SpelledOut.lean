/-
Compressed instructions spelled out.

A special opcode packs an advance of the address, an advance of the line and a row into
one byte, and opcode eight packs the advance of the address that opcode 255 would make.
`spellOut` puts the standard instructions that they stand for in the place of those that
a stream executes, and leaves every other byte where it is.

The theorem this file exists for is `build_spellOut`: the longer stream builds the same
program.  Special opcodes are all that a version decides, so it builds that program under
every version.
-/
import LineTable.Proofs.ReferenceMachine
import LineTable.Proofs.Streams
import LineTable.Proofs.Yields
import Mathlib

namespace LineTable

/-! ## Spelling out -/

namespace Instruction

/-- Standard opcodes that do what a compressed instruction does.  Any other instruction
keeps its own bytes. -/
def spelling (h : Header) (own : Bytes) : Instruction → Bytes
  | special opcode =>
    let adjusted := opcode.toNat - h.opcodeBase.toNat
    2 :: Leb128.encodeUnsigned (adjusted / h.lineRange.toNat) ++
      3 :: Leb128.encodeSigned (h.lineBase.toInt + (adjusted % h.lineRange.toNat : Nat)) ++ [1]
  | constAddPc =>
    2 :: Leb128.encodeUnsigned ((255 - h.opcodeBase.toNat) / h.lineRange.toNat)
  | _ => own

end Instruction

/-- A stream with each compressed instruction that it executes spelled out. -/
def spellOut (h : Header) (e : Endian) (code : Bytes) : Bytes :=
  match _hread : (Instruction.read h e).run code with
  | .error _ => code
  | .ok (i, rest) => i.spelling h (code.take (code.length - rest.length)) ++ spellOut h e rest
termination_by code.length
decreasing_by exact Instruction.read_shortens _hread

variable {h : Header} {e : Endian}

theorem spellOut_nil : spellOut h e [] = [] := by
  rw [spellOut]
  split
  · rfl
  · rename_i hread
    exact absurd (Instruction.read_shortens hread) (Nat.not_lt_zero _)

theorem spellOut_append {bytes : Bytes} {i : Instruction}
    (hread : (Instruction.read h e).Reads bytes i) (rest : Bytes) :
    spellOut h e (bytes ++ rest) = i.spelling h bytes ++ spellOut h e rest := by
  rw [spellOut]
  split
  · rename_i cause hfail
    rw [hread rest] at hfail
    contradiction
  · rename_i found left hfound
    rw [hread rest] at hfound
    obtain ⟨rfl, rfl⟩ := Prod.mk.inj (Except.ok.inj hfound)
    have hown : (bytes ++ rest).take ((bytes ++ rest).length - rest.length) = bytes := by
      rw [List.length_append, Nat.add_sub_cancel, List.take_left]
    rw [hown]

/-! ### The instructions in between -/

theorem toNat_specialOperations {v : UInt8} (hv : h.opcodeBase ≤ v) :
    (h.specialOperations v).toNat = (v.toNat - h.opcodeBase.toNat) / h.lineRange.toNat := by
  rw [Header.specialOperations, UInt8.toNat_toUInt64, UInt8.toNat_div,
    Reference.toNat_adjusted hv]

theorem toInt_specialLines {v : UInt8} (hv : h.opcodeBase ≤ v) :
    (h.specialLines v).toInt =
      h.lineBase.toInt + ((v.toNat - h.opcodeBase.toNat) % h.lineRange.toNat : Nat) := by
  have hlow := h.lineBase.le_toInt
  have hhigh := h.lineBase.toInt_lt
  have hv256 := v.toNat_lt
  have hmod := Nat.mod_le (v.toNat - h.opcodeBase.toNat) h.lineRange.toNat
  rw [Reference.specialLines_eq hv]
  apply Int64.toInt_ofInt_of_le
  · omega
  · omega

namespace Instruction

theorem reads_advancePc (hbase : 4 ≤ h.opcodeBase) (n : UInt64) :
    (read h e).Reads (2 :: Leb128.encodeUnsigned n.toNat) (advancePc n) := by
  have hlt : 2 < h.opcodeBase := by
    refine UInt8.lt_of_lt_of_le ?_ hbase
    decide
  exact reads_standard 2 hlt (by decide) ((Leb128.reads_unsigned n).map advancePc)

theorem reads_advanceLine (hbase : 4 ≤ h.opcodeBase) (n : Int64) :
    (read h e).Reads (3 :: Leb128.encodeSigned n.toInt) (advanceLine n) := by
  have hlt : 3 < h.opcodeBase := by
    refine UInt8.lt_of_lt_of_le ?_ hbase
    decide
  exact reads_standard 3 hlt (by decide) ((Leb128.reads_signed n).map advanceLine)

theorem reads_copy (hbase : 4 ≤ h.opcodeBase) : (read h e).Reads [1] copy := by
  have hlt : 1 < h.opcodeBase := by
    refine UInt8.lt_of_lt_of_le ?_ hbase
    decide
  exact reads_standard 1 hlt (by decide) (Reader.Reads.pure copy)

/-- A special opcode advances the address, then the line, and records a row. -/
theorem execute_special (hversion : h.version = 2) (hrange : h.lineRange ≠ 0) (v : UInt8) :
    (special v).execute h = (do
      (advancePc (h.specialOperations v)).execute h
      (advanceLine (h.specialLines v)).execute h
      copy.execute h) := by
  funext m
  rw [execute, Execution.bind_of_ok (Header.needSpecialOpcodes_eq_ok hversion m),
    Execution.bind_of_ok (Header.needLineRange_eq_ok hrange m)]
  rfl

theorem execute_constAddPc (hrange : h.lineRange ≠ 0) :
    constAddPc.execute h = (advancePc (h.specialOperations 255)).execute h := by
  funext m
  have hpass := Header.needLineRange_eq_ok hrange m
  exact Execution.bind_of_ok hpass

/-- The version decides nothing but whether special opcodes are interpreted. -/
theorem execute_version (version : UInt16) {i : Instruction} (hi : ∀ v, i ≠ special v) :
    i.execute { h with version } = i.execute h := by
  cases i with
  | special v => exact absurd rfl (hi v)
  | _ => rfl

end Instruction

namespace Machine

theorem Runs.single {bytes : Bytes} {i : Instruction} {m m' : Machine}
    (hread : (Instruction.read h e).Reads bytes i) (hexec : i.execute h m = .ok () m') :
    Runs h e bytes m m' := by
  have hruns := Runs.cons hread hexec (.nil m')
  rwa [List.append_nil] at hruns

theorem Runs.append {a b : Bytes} {m m' last : Machine} (ha : Runs h e a m m')
    (hb : Runs h e b m' last) : Runs h e (a ++ b) m last := by
  induction ha with
  | nil m => exact hb
  | cons hread hexec _ ih =>
    rw [List.append_assoc]
    exact .cons hread hexec (ih hb)

/-- The spelling of an instruction does what the instruction does, under any version. -/
theorem runs_spelling (hversion : h.version = 2) (hrange : h.lineRange ≠ 0)
    (hbase : 4 ≤ h.opcodeBase) (version : UInt16) {bytes : Bytes} {i : Instruction}
    {m m' : Machine} (hread : (Instruction.read h e).Reads bytes i)
    (hexec : i.execute h m = .ok () m') :
    Runs { h with version } e (i.spelling h bytes) m m' := by
  cases i with
  | special v =>
    have hv := Instruction.opcodeBase_le_of_reads hread
    have hadvance := Instruction.reads_advancePc (h := { h with version }) (e := e) hbase
      (h.specialOperations v)
    have hline := Instruction.reads_advanceLine (h := { h with version }) (e := e) hbase
      (h.specialLines v)
    have hcopy := Instruction.reads_copy (h := { h with version }) (e := e) hbase
    rw [toNat_specialOperations hv] at hadvance
    rw [toInt_specialLines hv] at hline
    rw [Instruction.execute_special hversion hrange] at hexec
    exact ((Runs.single hadvance rfl).append (.single hline rfl)).append (.single hcopy hexec)
  | constAddPc =>
    have htop : h.opcodeBase ≤ 255 := Nat.le_of_lt_succ h.opcodeBase.toNat_lt
    have hadvance := Instruction.reads_advancePc (h := { h with version }) (e := e) hbase
      (h.specialOperations 255)
    rw [toNat_specialOperations htop] at hadvance
    rw [Instruction.execute_constAddPc hrange] at hexec
    exact .single hadvance hexec
  | _ =>
    refine .single hread ((congrFun (Instruction.execute_version version ?_) m).trans hexec)
    exact fun _ => nofun

theorem Runs.spellOut (hversion : h.version = 2) (hrange : h.lineRange ≠ 0)
    (hbase : 4 ≤ h.opcodeBase) (version : UInt16) {code : Bytes} {m last : Machine}
    (hruns : Runs h e code m last) :
    Runs { h with version } e (LineTable.spellOut h e code) m last := by
  induction hruns with
  | nil m =>
    rw [spellOut_nil]
    exact .nil m
  | cons hread hexec _ ih =>
    rw [spellOut_append hread]
    exact (runs_spelling hversion hrange hbase version hread hexec).append ih

end Machine

/-- A stream with its compressed instructions spelled out builds the same program, under
its own version and under any other. -/
theorem build_spellOut {code : Bytes} {p : Program} (hversion : h.version = 2)
    (hrange : h.lineRange ≠ 0) (hbase : 4 ≤ h.opcodeBase)
    (hbuild : Program.build h e code = .ok p) :
    Program.build h e (spellOut h e code) = .ok p ∧
      ∀ version, Program.build { h with version } e (spellOut h e code) =
        .ok { p with header := { h with version } } := by
  obtain ⟨m, hrun, rfl⟩ := Program.build_eq_ok_iff.1 hbuild
  have hspelled : ∀ version, Machine.run { h with version } e (spellOut h e code)
      (Machine.ofHeader h) = .ok () m := fun version =>
    ((Machine.runs_of_run hrun).spellOut hversion hrange hbase version).run_eq
  refine ⟨?_, fun version => ?_⟩
  · exact Program.build_eq_ok_iff.2 ⟨m, hspelled h.version, rfl⟩
  · exact Program.build_eq_ok_iff.2 ⟨m, hspelled version, rfl⟩

/-- Behind two rows, of which the second lies 17 instructions behind the first. -/
def sampleRows : Machine where
  state := { State.ofHeader sampleHeader with address := 136, line := 3 }
  rows := #[{ State.ofHeader sampleHeader with address := 68, line := -1, position := 0 },
    { State.ofHeader sampleHeader with address := 136, line := 3, position := 1 }]
  files := #[]

/-- Opcode 255 steps 17 instructions on and two lines back here. -/
theorem build_spellOut_sample :
    (sampleHeader.version = 2 ∧ sampleHeader.lineRange ≠ 0 ∧ 4 ≤ sampleHeader.opcodeBase) ∧
      ∃ p, Program.build sampleHeader .big [255, 8, 3, 4, 1] = .ok p ∧
        p.rows.map (fun row => (row.address, row.line)) = [(68, -1), (136, 3)] ∧
        Program.build { sampleHeader with version := 4 } .big
          [2, 17, 3, 0x7E, 1, 2, 17, 3, 4, 1] =
            .ok { p with header := { sampleHeader with version := 4 } } := by
  have hbase : 4 ≤ sampleHeader.opcodeBase := by decide
  have hrange : sampleHeader.lineRange ≠ 0 := by decide
  have hspelled : spellOut sampleHeader .big [255, 8, 3, 4, 1] =
      [2, 17, 3, 0x7E, 1, 2, 17, 3, 4, 1] := by
    have hspecial : (Instruction.read sampleHeader .big).Reads [255] (.special 255) :=
      Instruction.reads_special (by decide)
    have hconst : (Instruction.read sampleHeader .big).Reads [8] .constAddPc := fun _ => rfl
    have hline : (Instruction.read sampleHeader .big).Reads [3, 4] (.advanceLine 4) :=
      fun _ => rfl
    have hcopy := Instruction.reads_copy (e := .big) hbase
    have hbytes := spellOut_append hspecial ([8] ++ ([3, 4] ++ ([1] ++ [])))
    rw [spellOut_append hconst, spellOut_append hline, spellOut_append hcopy, spellOut_nil]
      at hbytes
    calc spellOut sampleHeader .big [255, 8, 3, 4, 1]
        = 2 :: Leb128.encodeUnsigned 17 ++ 3 :: Leb128.encodeSigned (-2) ++ [1] ++
            (2 :: Leb128.encodeUnsigned 17 ++ [3, 4, 1]) := hbytes
      _ = [2, 17, 3, 0x7E, 1, 2, 17, 3, 4, 1] := by cbv
  have hrun : Machine.run sampleHeader .big [255, 8, 3, 4, 1] (.ofHeader sampleHeader) =
      .ok () sampleRows := by cbv
  have hbuild := Program.build_eq_ok_iff.2 ⟨sampleRows, hrun, rfl⟩
  have hversions := (build_spellOut rfl hrange hbase hbuild).2 4
  rw [hspelled] at hversions
  exact ⟨⟨rfl, hrange, hbase⟩, _, hbuild, rfl, hversions⟩

end LineTable
