/-
Where a header stops a run.

A header refuses special opcodes for its version, and instructions that divide by a zero
line range.  A run that stops for either has executed the front of its stream, and the
refused instruction is the single byte behind that front (`Program.build_refused_iff`):
neither what comes before it nor what follows changes the error.  Every other failure is a
stream that cannot be read, so `build_refusals` tells the three kinds of failure apart by
the bytes alone.
-/
import LineTable.Proofs.Assembly
import LineTable.Proofs.Failures
import LineTable.Proofs.Streams
import LineTable.Proofs.Yields
import Mathlib

namespace LineTable

variable {h : Header} {e : Endian} {cause : LineError}

namespace Machine

/-- A run that stops cannot read on, or has come to an instruction that is refused. -/
theorem exists_refused_of_run {code : Bytes} {m m' : Machine}
    (hrun : run h e code m = .error cause m') :
    (∃ c, cause = .malformed c) ∨
      ∃ front bytes behind i, code = front ++ (bytes ++ behind) ∧ Runs h e front m m' ∧
        (Instruction.read h e).Reads bytes i ∧ h.Refuses i cause := by
  fun_induction run h e code m with
  | case1 => contradiction
  | case2 _ _ _ c =>
    cases hrun
    exact .inl ⟨c, rfl⟩
  | case3 code m _ i rest hread cause' m'' hexec =>
    cases hrun
    obtain ⟨hrefused, rfl⟩ := Instruction.execute_error_iff.1 hexec
    obtain ⟨bytes, rfl, hreads⟩ := Reader.exists_reads hread
    exact .inr ⟨[], bytes, rest, i, rfl, .nil _, hreads, hrefused⟩
  | case4 code m _ i rest hread m'' hexec ih =>
    obtain hmalformed | ⟨front, bytes, behind, j, rfl, hruns, hreads, hrefused⟩ := ih hrun
    · exact .inl hmalformed
    · obtain ⟨own, rfl, hown⟩ := Reader.exists_reads hread
      refine .inr ⟨own ++ front, bytes, behind, j, (List.append_assoc _ _ _).symm, ?_, hreads,
        hrefused⟩
      exact .cons hown hexec hruns

theorem run_refused {bytes : Bytes} {i : Instruction}
    (hread : (Instruction.read h e).Reads bytes i) (hrefused : h.Refuses i cause)
    (behind : Bytes) (m : Machine) : run h e (bytes ++ behind) m = .error cause m := by
  have hne : (bytes ++ behind).isEmpty = false := by
    have := ne_nil_of_reads hread
    simp [this]
  have hexec : i.execute h m = .error cause m := Instruction.execute_error_iff.2 ⟨hrefused, rfl⟩
  rw [run_eq, hne, hread behind]
  simp only [Bool.false_eq_true, if_false, hexec]

end Machine

namespace Program

/-- A stream that can be read up to its failure builds a program up to the instruction that
is refused. -/
theorem build_refused_iff {code : Bytes} (hcause : ¬ ∃ c, cause = .malformed c) :
    build h e code = .error cause ↔
      ∃ front bytes behind i p, code = front ++ (bytes ++ behind) ∧ build h e front = .ok p ∧
        (Instruction.read h e).Reads bytes i ∧ h.Refuses i cause := by
  rw [build_eq_error_iff]
  constructor
  · rintro ⟨m, hrun⟩
    obtain hmalformed | ⟨front, bytes, behind, i, hcode, hruns, hread, hrefused⟩ :=
      Machine.exists_refused_of_run hrun
    · exact absurd hmalformed hcause
    · have hfront := build_eq_ok_iff.2 ⟨m, hruns.run_eq, rfl⟩
      exact ⟨front, bytes, behind, i, _, hcode, hfront, hread, hrefused⟩
  · rintro ⟨front, bytes, behind, i, p, rfl, hfront, hread, hrefused⟩
    obtain ⟨m, hrun, -⟩ := build_eq_ok_iff.1 hfront
    refine ⟨m, ?_⟩
    rw [Machine.run_append hrun]
    exact Machine.run_refused hread hrefused behind m

end Program

namespace Instruction

theorem reads_special_iff {bytes : Bytes} {v : UInt8} :
    (read h e).Reads bytes (special v) ↔ bytes = [v] ∧ h.opcodeBase ≤ v := by
  constructor
  · intro hread
    have hrun := hread []
    obtain hplain | ⟨w, hbytes, ⟨hw, hbase⟩ | ⟨hw, -⟩⟩ := opcode_of_read hrun
    · cases hplain
    · cases hw
      rw [List.append_nil] at hbytes
      exact ⟨hbytes, hbase⟩
    · cases hw
  · rintro ⟨rfl, hbase⟩
    exact reads_special hbase

theorem reads_constAddPc_iff {bytes : Bytes} :
    (read h e).Reads bytes constAddPc ↔ bytes = [8] ∧ 8 < h.opcodeBase := by
  constructor
  · intro hread
    have hrun := hread []
    obtain hplain | ⟨w, hbytes, ⟨hw, -⟩ | ⟨-, rfl, hbase⟩⟩ := opcode_of_read hrun
    · cases hplain
    · cases hw
    · rw [List.append_nil] at hbytes
      exact ⟨hbytes, hbase⟩
  · rintro ⟨rfl, hbase⟩
    exact reads_standard 8 hbase (by decide) (Reader.Reads.pure _)

end Instruction

namespace Program

/-- Special opcodes, and they alone, need version two. -/
theorem build_unsupported_iff {code : Bytes} :
    build h e code = .error (.unsupportedVersion h.version) ↔
      h.version ≠ 2 ∧ ∃ front v behind p, code = front ++ [v] ++ behind ∧
        build h e front = .ok p ∧ h.opcodeBase ≤ v := by
  have hcause : ¬ ∃ c, LineError.unsupportedVersion h.version = .malformed c := nofun
  rw [build_refused_iff hcause]
  constructor
  · rintro ⟨front, bytes, behind, i, p, rfl, hfront, hread, hrefused⟩
    cases hrefused with
    | version v hversion =>
      obtain ⟨rfl, hbase⟩ := Instruction.reads_special_iff.1 hread
      exact ⟨hversion, front, v, behind, p, (List.append_assoc _ _ _).symm, hfront, hbase⟩
  · rintro ⟨hversion, front, v, behind, p, rfl, hfront, hbase⟩
    exact ⟨front, [v], behind, .special v, p, List.append_assoc _ _ _, hfront,
      Instruction.reads_special_iff.2 ⟨rfl, hbase⟩, .version v hversion⟩

/-- Two kinds of opcodes divide by the line range.  The version decides which of its errors a
special opcode ends with. -/
theorem build_zeroLineRange_iff {code : Bytes} :
    build h e code = .error (.zeroLineRange h.offset) ↔
      h.lineRange = 0 ∧ ∃ front v behind p, code = front ++ [v] ++ behind ∧
        build h e front = .ok p ∧
        (h.version = 2 ∧ h.opcodeBase ≤ v ∨ v = 8 ∧ v < h.opcodeBase) := by
  have hcause : ¬ ∃ c, LineError.zeroLineRange h.offset = .malformed c := nofun
  rw [build_refused_iff hcause]
  constructor
  · rintro ⟨front, bytes, behind, i, p, rfl, hfront, hread, hrefused⟩
    cases hrefused with
    | special v hversion hrange =>
      obtain ⟨rfl, hbase⟩ := Instruction.reads_special_iff.1 hread
      exact ⟨hrange, front, v, behind, p, (List.append_assoc _ _ _).symm, hfront,
        .inl ⟨hversion, hbase⟩⟩
    | constAddPc hrange =>
      obtain ⟨rfl, hbase⟩ := Instruction.reads_constAddPc_iff.1 hread
      exact ⟨hrange, front, 8, behind, p, (List.append_assoc _ _ _).symm, hfront,
        .inr ⟨rfl, hbase⟩⟩
  · rintro ⟨hrange, front, v, behind, p, rfl, hfront, ⟨hversion, hbase⟩ | ⟨rfl, hbase⟩⟩
    · exact ⟨front, [v], behind, .special v, p, List.append_assoc _ _ _, hfront,
        Instruction.reads_special_iff.2 ⟨rfl, hbase⟩, .special v hversion hrange⟩
    · exact ⟨front, [8], behind, .constAddPc, p, List.append_assoc _ _ _, hfront,
        Instruction.reads_constAddPc_iff.2 ⟨rfl, hbase⟩, .constAddPc hrange⟩

end Program

/-- A stream is refused for its version exactly when a special opcode follows a front of it
that builds a program, and for a zero line range exactly when such a front is followed by an
opcode that divides by it.  Any other failure is malformed. -/
theorem build_refusals (h : Header) (e : Endian) (code : Bytes) :
    (Program.build h e code = .error (.unsupportedVersion h.version) ↔
      h.version ≠ 2 ∧ ∃ front v behind p, code = front ++ [v] ++ behind ∧
        Program.build h e front = .ok p ∧ h.opcodeBase ≤ v) ∧
    (Program.build h e code = .error (.zeroLineRange h.offset) ↔
      h.lineRange = 0 ∧ ∃ front v behind p, code = front ++ [v] ++ behind ∧
        Program.build h e front = .ok p ∧
        (h.version = 2 ∧ h.opcodeBase ≤ v ∨ v = 8 ∧ v < h.opcodeBase)) ∧
    ∀ cause, Program.build h e code = .error cause →
      cause = .unsupportedVersion h.version ∨ cause = .zeroLineRange h.offset ∨
        ∃ c, cause = .malformed c := by
  refine ⟨Program.build_unsupported_iff, Program.build_zeroLineRange_iff, fun cause hbuild => ?_⟩
  obtain ⟨m, hrun⟩ := Program.build_eq_error_iff.1 hbuild
  obtain (hversion | hrange) | hmalformed := Machine.cause_of_run hrun
  · exact .inl hversion
  · exact .inr (.inl hrange)
  · exact .inr (.inr hmalformed)

/-- A header of version three at offset 16 that nothing can divide by. -/
def zeroRangeHeader : Header := { Header.ofFields 3 13 (-5) 0 1 with offset := 16 }

/-- Behind a row a special opcode is refused for its version although the line range is zero,
and opcode eight for that range.  The byte behind either could not be read. -/
theorem build_refusals_sample :
    Program.build zeroRangeHeader .little [1, 0x20, 2] = .error (.unsupportedVersion 3) ∧
      Program.build zeroRangeHeader .little [1, 8, 2] = .error (.zeroLineRange 16) ∧
      ∃ c, Program.build zeroRangeHeader .little [1, 2] = .error (.malformed c) := by
  have hrows : (Program.build zeroRangeHeader .little [1]).toOption.map (·.rows.length) =
      some 1 := by cbv
  have hcut : Program.build zeroRangeHeader .little [1, 2] = .error (.malformed .endOfInput) := by
    cbv
  obtain ⟨p, hfront, -⟩ := exists_ok_of_toOption hrows
  refine ⟨?_, ?_, ?_⟩
  · exact (build_refusals zeroRangeHeader .little _).1.2
      ⟨by decide, [1], 0x20, [2], p, rfl, hfront, by decide⟩
  · exact (build_refusals zeroRangeHeader .little _).2.1.2
      ⟨rfl, [1], 8, [2], p, rfl, hfront, .inr ⟨rfl, by decide⟩⟩
  · obtain hcause | hcause | ⟨c, hcause⟩ := (build_refusals zeroRangeHeader .little _).2.2 _ hcut
    · contradiction
    · contradiction
    · exact ⟨c, hcause ▸ hcut⟩

end LineTable
