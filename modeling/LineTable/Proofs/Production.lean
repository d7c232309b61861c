/-
How much a program can produce.

An instruction adds a row, a file or nothing, and takes a byte or more.  So the rows and
the files that a run adds are no more than the bytes of its stream, whatever lengths and
counts the stream states, and those of a program are no more than the bytes of its
section.
-/
import LineTable.Proofs.RowIndex
import LineTable.Proofs.Streams

namespace LineTable

def Machine.produced (m : Machine) : Nat := m.rows.size + m.files.size

namespace Execution

variable {α β : Type}

/-- A computation that succeeds adds at most so many rows and files. -/
def AddsAtMost (x : Execution α) (count : Nat) : Prop :=
  ∀ m a m', x m = .ok a m' → m'.produced ≤ m.produced + count

theorem addsAtMost_pure (a : α) : AddsAtMost (pure a) 0 := by
  intro m b m' hexec
  cases hexec
  exact Nat.le_refl _

theorem addsAtMost_throw (cause : LineError) (count : Nat) :
    AddsAtMost (throw cause : Execution α) count := by
  intro m a m' hexec
  cases hexec

theorem addsAtMost_modify {f : Machine → Machine} {count : Nat}
    (hf : ∀ m, (f m).produced ≤ m.produced + count) : AddsAtMost (modify f) count := by
  intro m a m' hexec
  cases hexec
  exact hf m

theorem AddsAtMost.bind {x : Execution α} {next : α → Execution β} {first second count : Nat}
    (hx : AddsAtMost x first) (hnext : ∀ a, AddsAtMost (next a) second)
    (hcount : first + second = count) : AddsAtMost (x >>= next) count := by
  intro m b m' hexec
  change EStateM.bind x next m = .ok b m' at hexec
  unfold EStateM.bind at hexec
  cases hfirst : x m with
  | error cause middle =>
    rw [hfirst] at hexec
    cases hexec
  | ok a middle =>
    rw [hfirst] at hexec
    have hmiddle := hx m a middle hfirst
    have hlast := hnext a middle b m' hexec
    omega

end Execution

namespace Machine

open Execution

variable {h : Header} {e : Endian}

theorem addsAtMost_write (f : State → State) : AddsAtMost (write f) 0 :=
  addsAtMost_modify fun _ => Nat.le_refl _

theorem addsAtMost_pushRow : AddsAtMost (modify pushRow) 1 := by
  refine addsAtMost_modify fun m => ?_
  simp only [produced, pushRow, Array.size_push]
  omega

theorem addsAtMost_pushFile (entry : FileEntry) : AddsAtMost (modify (·.pushFile entry)) 1 := by
  refine addsAtMost_modify fun m => ?_
  simp only [produced, pushFile, Array.size_push]
  omega

theorem addsAtMost_record : AddsAtMost record 1 :=
  addsAtMost_pushRow.bind (fun _ => addsAtMost_write _) rfl

theorem addsAtMost_needLineRange (h : Header) : AddsAtMost h.needLineRange 0 := by
  unfold Header.needLineRange
  split
  · exact addsAtMost_throw _ 0
  · exact addsAtMost_pure ()

theorem addsAtMost_needSpecialOpcodes (h : Header) : AddsAtMost h.needSpecialOpcodes 0 := by
  unfold Header.needSpecialOpcodes
  split
  · exact addsAtMost_pure ()
  · exact addsAtMost_throw _ 0

/-- An instruction adds one row or one file at most. -/
theorem execute_addsAtMost (h : Header) (i : Instruction) : AddsAtMost (i.execute h) 1 := by
  have hidle {x : Execution Unit} (hx : AddsAtMost x 0) : AddsAtMost x 1 := by
    intro m a m' hexec
    exact Nat.le_succ_of_le (hx m a m' hexec)
  cases i with
  | special opcode =>
    refine (addsAtMost_needSpecialOpcodes h).bind (fun _ => ?_) (Nat.zero_add 1)
    refine (addsAtMost_needLineRange h).bind (fun _ => ?_) (Nat.zero_add 1)
    refine (addsAtMost_write _).bind (fun _ => ?_) (Nat.zero_add 1)
    exact (addsAtMost_write _).bind (fun _ => addsAtMost_record) (Nat.zero_add 1)
  | copy => exact addsAtMost_record
  | endSequence =>
    refine (addsAtMost_write _).bind (fun _ => ?_) (Nat.zero_add 1)
    exact addsAtMost_pushRow.bind (fun _ => addsAtMost_write _) rfl
  | defineFile entry => exact addsAtMost_pushFile entry
  | constAddPc => exact hidle ((addsAtMost_needLineRange h).bind (fun _ => addsAtMost_write _) rfl)
  | skip | empty | skipExtended => exact hidle (addsAtMost_pure ())
  | advancePc | advanceLine | setFile | setColumn | negateStatement | setBasicBlock
  | fixedAdvancePc | setPrologueEnd | setEpilogueBegin | setIsa | setAddress
  | setDiscriminator =>
    rw [Instruction.execute]
    exact hidle (addsAtMost_write _)

/-- A run adds no more rows and files than its stream has bytes. -/
theorem Runs.produced_le {code : Bytes} {m last : Machine} (hruns : Runs h e code m last) :
    last.produced ≤ m.produced + code.length := by
  induction hruns with
  | nil m => exact Nat.le_refl _
  | @cons bytes rest i m m' last hread hexec _ ih =>
    have hadded := execute_addsAtMost h i m () m' hexec
    have hbytes : 0 < bytes.length := List.length_pos_iff.2 (ne_nil_of_reads hread)
    rw [List.length_append]
    omega

end Machine

namespace Program

theorem produced_le_of_build {h : Header} {e : Endian} {code : Bytes} {p : Program}
    (hbuild : build h e code = .ok p) : p.rows.length + p.definedFiles.length ≤ code.length := by
  obtain ⟨m, hrun, rfl⟩ := build_eq_ok_iff.1 hbuild
  have hproduced := (Machine.runs_of_run hrun).produced_le
  rwa [show (Machine.ofHeader h).produced = 0 from rfl, Nat.zero_add] at hproduced

end Program

/-! ## From bytes -/

theorem Reader.runLine_length_le {α : Type} {r : Reader α} {input rest : Bytes} {value : α}
    (hread : r.runLine input = .ok (value, rest)) : rest.length ≤ input.length := by
  unfold runLine at hread
  cases hrun : r.run input with
  | error cause =>
    rw [hrun] at hread
    cases hread
  | ok found =>
    rw [hrun] at hread
    cases hread
    exact r.length_le hrun

theorem Reader.length_le_of_take {count : Nat} {input taken rest : Bytes}
    (hread : (take count).runLine input = .ok (taken, rest)) : taken.length ≤ input.length := by
  simp only [runLine, take] at hread
  split at hread
  · cases hread
    exact List.length_take_le' _ _
  · contradiction

theorem Reader.length_le_of_unitBytes {e : Endian} {format : Format} {input unit rest : Bytes}
    (hread : (unitBytes e).runLine input = .ok ((format, unit), rest)) :
    unit.length ≤ input.length := by
  rw [unitBytes, runLine_bind] at hread
  obtain ⟨⟨⟨_, length⟩, behind⟩, hlength, hread⟩ := exists_ok_of_bind hread
  rw [runLine_bind] at hread
  obtain ⟨⟨taken, _⟩, htake, hread⟩ := exists_ok_of_bind hread
  cases hread
  calc taken.length
    _ ≤ behind.length := length_le_of_take htake
    _ ≤ input.length := runLine_length_le hlength

/-- A header leaves no more for the opcode stream than it was given. -/
theorem Header.code_length_le {e : Endian} {offset : UInt64} {input code : Bytes} {h : Header}
    (hread : Header.read e offset input = .ok (h, code)) : code.length ≤ input.length := by
  unfold Header.read at hread
  obtain ⟨⟨⟨format, unit⟩, behind⟩, hunit, hread⟩ := exists_ok_of_bind hread
  obtain ⟨⟨version, versioned⟩, hversion, hread⟩ := exists_ok_of_bind hread
  dsimp only at hread
  split at hread
  · contradiction
  obtain ⟨⟨length, sized⟩, hlength, hread⟩ := exists_ok_of_bind hread
  obtain ⟨⟨fields, code⟩, hfields, hread⟩ := exists_ok_of_bind hread
  obtain ⟨⟨header, _⟩, -, hread⟩ := exists_ok_of_bind hread
  cases hread
  calc code.length
    _ ≤ sized.length := Reader.runLine_length_le hfields
    _ ≤ versioned.length := Reader.runLine_length_le hlength
    _ ≤ unit.length := Reader.runLine_length_le hversion
    _ ≤ input.length := Reader.length_le_of_unitBytes hunit

namespace LineSection

/-- A section never gives more rows and files than it has bytes. -/
theorem produced_le_of_decode {s : LineSection} {offset : UInt64} {p : Program}
    (hdecode : s.decode offset = .ok p) :
    p.rows.length + p.definedFiles.length ≤ s.size := by
  obtain ⟨h, code, hread, hbuild⟩ := exists_read_of_decode hdecode
  calc p.rows.length + p.definedFiles.length
    _ ≤ code.length := Program.produced_le_of_build hbuild
    _ ≤ (s.bytes.drop offset.toNat).length := Header.code_length_le hread
    _ ≤ s.size := by
      rw [List.length_drop]
      exact Nat.sub_le _ _

end LineSection

end LineTable
