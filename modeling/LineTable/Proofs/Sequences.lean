/-
Sequences one after the other.

A sequence ends by putting the machine back to where it started.  What follows therefore
runs as if it stood alone, with the rows and the files of the machine before its own.
`Machine.continuedBy` puts them there, and a run from the machine at the end of a
sequence is the run from a new one, continued (`Machine.run_endSequence`).  The theorem
this file exists for is `build_sequences`, which says the same of programs.
-/
import LineTable.Proofs.Assembly
import LineTable.Proofs.Invariants
import Mathlib

namespace LineTable
namespace Machine

variable {h : Header} {e : Endian}

/-- The machine `later` with the rows and the files of `m` before its own. -/
def continuedBy (m later : Machine) : Machine where
  state := later.state
  rows := m.rows ++ later.rows.map fun row =>
    { row with position := m.rows.size + row.position }
  files := m.files ++ later.files

theorem continuedBy_ofState (m : Machine) : m.continuedBy (ofState m.state) = m := by
  simp [continuedBy, ofState]

theorem pushRow_continuedBy (m later : Machine) :
    (m.continuedBy later).pushRow = m.continuedBy later.pushRow := by
  simp [continuedBy, pushRow]

theorem pushFile_continuedBy (m later : Machine) (entry : FileEntry) :
    (m.continuedBy later).pushFile entry = m.continuedBy (later.pushFile entry) := by
  simp [continuedBy, pushFile]

/-- A machine goes on in the same way behind any other one. -/
theorem stable_continuedBy (m : Machine) : Stable fun n later => n = m.continuedBy later where
  write := by
    rintro f _ _ later rfl
    rfl
  pushRow := by
    rintro _ later rfl
    exact pushRow_continuedBy m later
  pushFile := by
    rintro entry _ later rfl
    exact pushFile_continuedBy m later entry

/-! ### The end of a sequence -/

/-- The row that ends a sequence. -/
def endRow (m : Machine) : Row :=
  { m.state.toRegisters with endSequence := true, position := m.rows.size }

/-- The machine at the end of a sequence, before the next one. -/
def ended (m : Machine) : Machine :=
  { m with state := m.state.restart, rows := m.rows.push m.endRow }

theorem execute_endSequence (m : Machine) :
    Instruction.endSequence.execute h m = .ok () m.ended := rfl

theorem reads_endSequence (hbase : 1 ≤ h.opcodeBase) :
    (Instruction.read h e).Reads [0, 1, 1] .endSequence := by
  have hregion : (Instruction.readExtended e).Reads [1, 1] .endSequence := fun _ => rfl
  exact Instruction.reads_extended hbase hregion

/-- After the end of a sequence a stream runs as it does on its own. -/
theorem run_endSequence (hbase : 1 ≤ h.opcodeBase) {a : Bytes} {m : Machine}
    (ha : run h e a (ofHeader h) = .ok () m) (b : Bytes) :
    Execution.Related (fun n later => n = m.ended.continuedBy later)
      (run h e (a ++ [0, 1, 1] ++ b) (ofHeader h)) (run h e b (ofHeader h)) := by
  have hstart : m.ended = m.ended.continuedBy (ofHeader h) := by
    have hstate : m.ended.state = State.ofHeader h := restart_of_run ha
    have hself := continuedBy_ofState m.ended
    rw [hstate] at hself
    exact hself.symm
  have hend : run h e (a ++ [0, 1, 1] ++ b) (ofHeader h) = run h e b m.ended := by
    rw [List.append_assoc, run_append ha,
      run_of_reads (reads_endSequence hbase) (execute_endSequence m)]
  rw [hend]
  exact run_respects (stable_continuedBy m.ended) b _ _ hstart

end Machine

/-- A sequence runs as it does on its own, behind the rows and files of another one. -/
theorem build_sequences {h : Header} {e : Endian} (hbase : 1 ≤ h.opcodeBase) {a : Bytes}
    {p : Program} (ha : Program.build h e a = .ok p) (b : Bytes) :
    ∃ m, Machine.run h e a (Machine.ofHeader h) = .ok () m ∧
      (∀ cause, Program.build h e (a ++ [0, 1, 1] ++ b) = .error cause ↔
        Program.build h e b = .error cause) ∧
      ∀ q, Program.build h e b = .ok q →
        ∃ r, Program.build h e (a ++ [0, 1, 1] ++ b) = .ok r ∧
          r.rows.map (·.toRegisters) = p.rows.map (·.toRegisters) ++
            { m.state.toRegisters with endSequence := true } :: q.rows.map (·.toRegisters) ∧
          r.rows.map (·.position) = List.range r.rows.length ∧
          r.definedFiles = p.definedFiles ++ q.definedFiles := by
  obtain ⟨m, hrun, rfl⟩ := Program.build_eq_ok_iff.1 ha
  have hends := Machine.run_endSequence hbase hrun b
  refine ⟨m, hrun, ?_⟩
  unfold Program.build
  generalize hwhole : Machine.run h e (a ++ [0, 1, 1] ++ b) (Machine.ofHeader h) = whole at hends
  generalize Machine.run h e b (Machine.ofHeader h) = alone at hends ⊢
  cases hends with
  | error cause _ => simp
  | @ok n later _ hn =>
    refine ⟨by simp, ?_⟩
    rintro q hq
    obtain rfl := Except.ok.inj hq
    refine ⟨Program.ofMachine h n, rfl, ?_, Machine.numbered_of_run hwhole, ?_⟩
    · subst hn
      simp [Program.ofMachine, Machine.continuedBy, Machine.ended, Machine.endRow]
    · subst hn
      simp [Program.ofMachine, Machine.continuedBy, Machine.ended]

/-- A header of version two with the opcodes of that version. -/
def shortHeader : Header := .ofFields 2 10 (-5) 14 1

/-- A machine that left `isStatement` cleared behind its only row, on line five. -/
def sampleEnd : Machine where
  state := { State.ofHeader shortHeader with line := 5, isStatement := false }
  rows := #[{ State.ofHeader shortHeader with line := 5, isStatement := false, position := 0 }]
  files := #[]

/-- A machine behind a row at address one. -/
def sampleNextEnd : Machine where
  state := { State.ofHeader shortHeader with address := 1 }
  rows := #[{ State.ofHeader shortHeader with address := 1, position := 0 }]
  files := #[]

theorem build_sequences_sample :
    1 ≤ shortHeader.opcodeBase ∧
      (∃ p, Program.build shortHeader .little [6, 3, 4, 1] = .ok p) ∧
      (∃ r, Program.build shortHeader .little ([6, 3, 4, 1] ++ [0, 1, 1] ++ [2, 1, 1]) = .ok r ∧
        r.rows.map (·.toRegisters) =
          [{ Registers.initial true with line := 5, isStatement := false },
            { Registers.initial true with line := 5, isStatement := false, endSequence := true },
            { Registers.initial true with address := 1 }]) ∧
      Program.build shortHeader .little ([6, 3, 4, 1] ++ [0, 1, 1] ++ [2]) =
        .error (.malformed .endOfInput) := by
  have hbase : 1 ≤ shortHeader.opcodeBase := by decide
  have hrun : Machine.run shortHeader .little [6, 3, 4, 1] (.ofHeader shortHeader) =
      .ok () sampleEnd := by cbv
  have hnext : Machine.run shortHeader .little [2, 1, 1] (.ofHeader shortHeader) =
      .ok () sampleNextEnd := by cbv
  have hcut : Machine.run shortHeader .little [2] (.ofHeader shortHeader) =
      .error (.malformed .endOfInput) (.ofHeader shortHeader) := by cbv
  have hp := Program.build_eq_ok_iff.2 ⟨sampleEnd, hrun, rfl⟩
  have hq := Program.build_eq_ok_iff.2 ⟨sampleNextEnd, hnext, rfl⟩
  obtain ⟨m, hm, -, hsucceeds⟩ := build_sequences hbase hp [2, 1, 1]
  obtain ⟨_, -, hfails, -⟩ := build_sequences hbase hp [2]
  obtain ⟨r, hr, hrows, -, -⟩ := hsucceeds _ hq
  obtain rfl : m = sampleEnd := by
    rw [hrun] at hm
    cases hm
    rfl
  refine ⟨hbase, ⟨_, hp⟩, ⟨r, hr, hrows⟩, (hfails _).2 ?_⟩
  rw [Program.build, hcut]

end LineTable
