/-
How far instructions advance.

Every advance of an address or of a line wraps around on its own.  Words add up as numbers
do, except for whole turns, so the advances of many instructions are one: the sum of what the
instructions state, taken without bound and wrapped once at the end.  The theorem this file
exists for is `executeAll_advances`.  A sum does not depend on the order of its parts, and
neither does the place where a list of instructions ends.
-/
import LineTable.Proofs.Outcomes
import LineTable.Proofs.SpelledOut
import Mathlib

namespace LineTable
namespace Instruction

/-- The instruction moves the address and the line from where they are, if it moves them. -/
def Relative : Instruction → Prop
  | setAddress _ | endSequence => False
  | _ => True

/-- How many operations the address advances by. -/
def operations (h : Header) : Instruction → Nat
  | special opcode => (opcode.toNat - h.opcodeBase.toNat) / h.lineRange.toNat
  | advancePc operations => operations.toNat
  | constAddPc => (255 - h.opcodeBase.toNat) / h.lineRange.toNat
  | _ => 0

/-- How many bytes the address advances by, whatever the length of an operation is. -/
def fixedBytes : Instruction → Nat
  | fixedAdvancePc bytes => bytes.toNat
  | _ => 0

/-- How many lines the line advances by. -/
def lines (h : Header) : Instruction → Int
  | special opcode =>
    h.lineBase.toInt + ((opcode.toNat - h.opcodeBase.toNat) % h.lineRange.toNat : Nat)
  | advanceLine lines => lines.toInt
  | _ => 0

variable {h : Header}

theorem address_advance (operations : UInt64) (s : State) :
    (s.advance h operations).address =
      s.address + UInt64.ofNat (h.minimumInstructionLength.toNat * operations.toNat) := by
  rw [UInt64.ofNat_mul, UInt64.ofNat_toNat, UInt64.ofNat_uInt8ToNat, UInt64.mul_comm]
  rfl

theorem address_outcome {i : Instruction} (hproper : i.Proper h) (hrelative : i.Relative)
    (m : Machine) :
    (i.outcome h m).state.address = m.state.address +
      UInt64.ofNat (h.minimumInstructionLength.toNat * i.operations h + i.fixedBytes) := by
  cases i with
  | special v =>
    show (State.advance h (h.specialOperations v) _).address = _
    rw [address_advance, toNat_specialOperations (hproper v rfl)]
    rfl
  | advancePc operations => exact address_advance operations m.state
  | constAddPc =>
    have htop : h.opcodeBase ≤ 255 := Nat.le_of_lt_succ h.opcodeBase.toNat_lt
    show (State.advance h (h.specialOperations 255) m.state).address = _
    rw [address_advance, toNat_specialOperations htop]
    rfl
  | fixedAdvancePc bytes =>
    show m.state.address + bytes.toUInt64 =
      m.state.address + UInt64.ofNat (h.minimumInstructionLength.toNat * 0 + bytes.toNat)
    rw [Nat.mul_zero, Nat.zero_add, UInt64.ofNat_uInt16ToNat]
  | setAddress | endSequence => exact absurd hrelative id
  | _ => exact (UInt64.add_zero _).symm

theorem line_outcome {i : Instruction} (hproper : i.Proper h) (hrelative : i.Relative)
    (m : Machine) :
    (i.outcome h m).state.line = m.state.line + Int64.ofInt (i.lines h) := by
  cases i with
  | special v =>
    show m.state.line + h.specialLines v = _
    rw [lines, ← toInt_specialLines (hproper v rfl), Int64.ofInt_toInt]
  | advanceLine lines =>
    show m.state.line + lines = _
    rw [Instruction.lines, Int64.ofInt_toInt]
  | setAddress | endSequence => exact absurd hrelative id
  | _ => exact (Int64.add_zero _).symm

end Instruction

namespace Machine

open Instruction

variable {h : Header} {code : List Instruction}

theorem address_after (hproper : ∀ i ∈ code, i.Proper h) (hrelative : ∀ i ∈ code, i.Relative)
    (m : Machine) :
    (m.after h code).state.address = m.state.address +
      UInt64.ofNat (h.minimumInstructionLength.toNat * (code.map (operations h)).sum +
        (code.map fixedBytes).sum) := by
  induction code generalizing m with
  | nil => exact (UInt64.add_zero _).symm
  | cons i rest ih =>
    rw [List.forall_mem_cons] at hproper hrelative
    rw [after_cons, ih hproper.2 hrelative.2, address_outcome hproper.1 hrelative.1,
      UInt64.add_assoc, ← UInt64.ofNat_add]
    simp only [List.map_cons, List.sum_cons, Nat.mul_add]
    congr 2
    omega

theorem line_after (hproper : ∀ i ∈ code, i.Proper h) (hrelative : ∀ i ∈ code, i.Relative)
    (m : Machine) :
    (m.after h code).state.line = m.state.line + Int64.ofInt (code.map (lines h)).sum := by
  induction code generalizing m with
  | nil => exact (Int64.add_zero _).symm
  | cons i rest ih =>
    rw [List.forall_mem_cons] at hproper hrelative
    rw [after_cons, ih hproper.2 hrelative.2, line_outcome hproper.1 hrelative.1,
      Int64.add_assoc, ← Int64.ofInt_add, List.map_cons, List.sum_cons]

/-- The order of the instructions does not decide where they end. -/
theorem place_of_perm {reordered : List Instruction} (hperm : reordered.Perm code)
    (hproper : ∀ i ∈ code, i.Proper h) (hrelative : ∀ i ∈ code, i.Relative) (m : Machine) :
    (m.after h reordered).state.address = (m.after h code).state.address ∧
      (m.after h reordered).state.line = (m.after h code).state.line := by
  have hproper' : ∀ i ∈ reordered, i.Proper h := fun i hi => hproper i (hperm.mem_iff.1 hi)
  have hrelative' : ∀ i ∈ reordered, i.Relative := fun i hi => hrelative i (hperm.mem_iff.1 hi)
  constructor
  · rw [address_after hproper hrelative, address_after hproper' hrelative',
      (hperm.map _).sum_eq, (hperm.map fixedBytes).sum_eq]
  · rw [line_after hproper hrelative, line_after hproper' hrelative', (hperm.map _).sum_eq]

end Machine

/-- Instructions that only move the address and the line from where they are advance both by
the sums of what they state.  So they do in any order, and in any stream that holds them. -/
theorem executeAll_advances {h : Header} {code : List Instruction} {m last : Machine}
    (hproper : ∀ i ∈ code, i.Proper h) (hrelative : ∀ i ∈ code, i.Relative)
    (hexec : executeAll h code m = .ok () last) :
    last.state.address.toNat = (m.state.address.toNat +
        h.minimumInstructionLength.toNat * (code.map (Instruction.operations h)).sum +
          (code.map Instruction.fixedBytes).sum) % 2 ^ 64 ∧
      last.state.line.toInt =
        (m.state.line.toInt + (code.map (Instruction.lines h)).sum).bmod (2 ^ 64) ∧
      (∀ reordered, reordered.Perm code → ∃ other, executeAll h reordered m = .ok () other ∧
        other.state.address = last.state.address ∧ other.state.line = last.state.line) ∧
      ∀ e stream other, Machine.run h e stream m = .ok () other →
        (Instruction.readAll h e stream).Perm code →
        other.state.address = last.state.address ∧ other.state.line = last.state.line := by
  obtain ⟨haccepts, hlast⟩ := executeAll_eq_ok_iff.1 hexec
  have hplace : ∀ reordered, reordered.Perm code →
      (m.after h reordered).state.address = last.state.address ∧
        (m.after h reordered).state.line = last.state.line := by
    intro reordered hperm
    rw [hlast]
    exact Machine.place_of_perm hperm hproper hrelative m
  refine ⟨?_, ?_, ?_, ?_⟩
  · rw [hlast, Machine.address_after hproper hrelative, UInt64.toNat_add, UInt64.toNat_ofNat']
    omega
  · rw [hlast, Machine.line_after hproper hrelative, Int64.toInt_add, Int64.toInt_ofInt]
    exact Int.add_bmod_bmod
  · intro reordered hperm
    refine ⟨m.after h reordered, executeAll_eq_ok_iff.2 ⟨fun i hi => ?_, rfl⟩, hplace _ hperm⟩
    exact haccepts i (hperm.mem_iff.1 hi)
  · intro e stream other hrun hperm
    rw [Machine.eq_after_of_run hrun]
    exact hplace _ hperm

/-- A machine before the last addresses, on the last line. -/
def lastPlaces : Machine :=
  .ofState { State.start true with address := 0xFFFFFFFFFFFFFFF8, line := 0x7FFFFFFFFFFFFFFF }

def advancingCode : List Instruction :=
  [.special 255, .constAddPc, .fixedAdvancePc 3, .advanceLine 4, .advancePc 2]

/-- The same advances in another order. -/
def reorderedCode : List Instruction :=
  [.advancePc 2, .fixedAdvancePc 3, .special 255, .advanceLine 4, .constAddPc]

def reorderedStream : Bytes := [2, 2, 9, 3, 0, 255, 3, 4, 8]

/-- Behind a row 71 bytes on from the first address, and four lines on from that row. -/
def wrappedPlaces : Machine where
  state := { State.start true with address := 139, line := -0x7FFFFFFFFFFFFFFF }
  rows := #[{ State.start true with address := 71, line := 0x7FFFFFFFFFFFFFFD, position := 0 }]
  files := #[]

/-- Both the address and the line wrap around on the way. -/
theorem executeAll_advances_sample :
    (∀ i ∈ advancingCode, i.Proper sampleHeader) ∧ (∀ i ∈ advancingCode, i.Relative) ∧
      ∃ last, executeAll sampleHeader advancingCode lastPlaces = .ok () last ∧
        last.state.address.toNat = 139 ∧ last.state.line.toInt = -(2 ^ 63) + 1 ∧
        ∃ other, Machine.run sampleHeader .little reorderedStream lastPlaces = .ok () other ∧
          other.state.address = last.state.address ∧ other.state.line = last.state.line := by
  have hproper : ∀ i ∈ advancingCode, i.Proper sampleHeader := by
    simp only [advancingCode, List.forall_mem_cons]
    refine ⟨?_, nofun, nofun, nofun, nofun, nofun⟩
    intro v hv
    cases hv
    decide
  have hrelative : ∀ i ∈ advancingCode, i.Relative := by
    simp only [advancingCode, List.forall_mem_cons]
    exact ⟨trivial, trivial, trivial, trivial, trivial, nofun⟩
  have hexec : executeAll sampleHeader advancingCode lastPlaces =
      .ok () (lastPlaces.after sampleHeader advancingCode) := rfl
  have hread : Instruction.readAll sampleHeader .little reorderedStream = reorderedCode := by cbv
  have hrun : Machine.run sampleHeader .little reorderedStream lastPlaces =
      .ok () wrappedPlaces := by cbv
  obtain ⟨haddress, hline, -, hstreams⟩ := executeAll_advances hproper hrelative hexec
  refine ⟨hproper, hrelative, _, hexec, ?_, ?_, _, hrun, hstreams .little _ _ hrun ?_⟩
  · rw [haddress]
    decide
  · rw [hline]
    decide
  · rw [hread]
    decide

end LineTable
