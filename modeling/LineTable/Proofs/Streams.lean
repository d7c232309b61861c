/-
Opcode streams in parts.

A stream that runs to its end falls into instructions, and each of them takes the same
bytes whatever follows.  `Machine.Runs` is that decomposition as a relation, so a fact
about whole streams is an induction over their instructions.  Since no instruction looks
past its own bytes, what follows a stream runs from the machine that the stream leaves
behind (`Machine.run_append`).
-/
import LineTable.Proofs.Run

namespace LineTable

/-- A reader that succeeds takes some bytes off the front, whatever follows them. -/
theorem Reader.exists_reads {α : Type} {r : Reader α} {input rest : Bytes} {value : α}
    (h : r.run input = .ok (value, rest)) :
    ∃ bytes, input = bytes ++ rest ∧ r.Reads bytes value := by
  obtain ⟨bytes, hinput, hmore⟩ := r.run_append h
  exact ⟨bytes, hinput, hmore⟩

namespace Machine

/-- The stream takes one machine to another, instruction by instruction. -/
inductive Runs (h : Header) (e : Endian) : Bytes → Machine → Machine → Prop where
  | nil (m : Machine) : Runs h e [] m m
  | cons {bytes rest : Bytes} {i : Instruction} {m m' last : Machine}
      (hread : (Instruction.read h e).Reads bytes i) (hexec : i.execute h m = .ok () m')
      (hrest : Runs h e rest m' last) : Runs h e (bytes ++ rest) m last

variable {h : Header} {e : Endian}

theorem Runs.run_eq {code : Bytes} {m last : Machine} (hruns : Runs h e code m last) :
    run h e code m = .ok () last := by
  induction hruns with
  | nil m => exact run_nil m
  | cons hread hexec _ ih =>
    rw [run_of_reads hread hexec]
    exact ih

/-- A stream that runs to its end is a list of instructions. -/
theorem runs_of_run {code : Bytes} {m last : Machine} (hrun : run h e code m = .ok () last) :
    Runs h e code m last := by
  fun_induction run h e code m with
  | case1 code m hnil =>
    obtain rfl : code = [] := List.isEmpty_iff.1 hnil
    cases hrun
    exact .nil _
  | case2 | case3 => contradiction
  | case4 code m _ i rest hread m' hexec ih =>
    obtain ⟨bytes, rfl, hreads⟩ := Reader.exists_reads hread
    exact .cons hreads hexec (ih hrun)

/-- What follows a stream runs from the machine that the stream leaves behind, and fails
as it would from there. -/
theorem run_append {code : Bytes} {m last : Machine} (hrun : run h e code m = .ok () last)
    (more : Bytes) : run h e (code ++ more) m = run h e more last := by
  have hruns := runs_of_run hrun
  clear hrun
  induction hruns with
  | nil m => rfl
  | cons hread hexec _ ih =>
    rw [List.append_assoc, run_of_reads hread hexec]
    exact ih

end Machine

namespace Program

/-- A program that was built shows the machine that ran its opcode stream. -/
theorem build_eq_ok_iff {h : Header} {e : Endian} {code : Bytes} {p : Program} :
    build h e code = .ok p ↔
      ∃ m, Machine.run h e code (Machine.ofHeader h) = .ok () m ∧ ofMachine h m = p := by
  rw [build]
  cases Machine.run h e code (Machine.ofHeader h) with
  | ok done m => simp
  | error cause m => simp

/-- A program is not built for the reason that its opcode stream stops for. -/
theorem build_eq_error_iff {h : Header} {e : Endian} {code : Bytes} {cause : LineError} :
    build h e code = .error cause ↔
      ∃ m, Machine.run h e code (Machine.ofHeader h) = .error cause m := by
  rw [build]
  cases Machine.run h e code (Machine.ofHeader h) with
  | ok done m => simp
  | error cause m => simp

end Program
end LineTable
