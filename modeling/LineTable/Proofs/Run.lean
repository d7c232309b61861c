/-
Running an opcode stream instruction by instruction.

`Machine.run_eq` is the loop without its proof of termination, and
`run_of_reads` executes the instruction at the front of a stream, whatever follows
it.
-/
import LineTable.Program
import LineTable.Proofs.Reading

namespace LineTable

/-- A computation that succeeds hands its machine to the next one. -/
theorem Execution.bind_of_ok {α β : Type} {first : Execution α} {next : α → Execution β}
    {m m' : Machine} {a : α} (h : first m = .ok a m') : (first >>= next) m = next a m' := by
  show EStateM.bind first next m = next a m'
  rw [EStateM.bind, h]

/-- A computation whose result shows something has succeeded. -/
theorem exists_ok_of_toOption {ε α β : Type} {x : Except ε α} {f : α → β} {b : β}
    (h : x.toOption.map f = some b) : ∃ a, x = .ok a ∧ f a = b := by
  cases x with
  | error cause => contradiction
  | ok a => exact ⟨a, rfl, Option.some.inj h⟩

theorem eq_ok_of_toOption {ε α : Type} {x : Except ε α} {a : α} (h : x.toOption = some a) :
    x = .ok a := by
  cases x with
  | error cause => contradiction
  | ok b => exact congrArg Except.ok (Option.some.inj h)

/-! ### What an instruction needs of the header -/

theorem Header.needSpecialOpcodes_eq_ok {h : Header} (hversion : h.version = 2) (m : Machine) :
    h.needSpecialOpcodes m = .ok () m := by
  rw [needSpecialOpcodes, if_pos hversion]
  rfl

theorem Header.needLineRange_eq_ok {h : Header} (hrange : h.lineRange ≠ 0) (m : Machine) :
    h.needLineRange m = .ok () m := by
  rw [needLineRange, if_neg hrange]
  rfl

namespace Machine

variable {h : Header} {e : Endian}

theorem run_eq (code : Bytes) (m : Machine) :
    run h e code m =
      if code.isEmpty then .ok () m
      else
        match (Instruction.read h e).run code with
        | .error cause => .error (.malformed cause) m
        | .ok (i, rest) =>
          match i.execute h m with
          | .error cause m' => .error cause m'
          | .ok () m' => run h e rest m' := by
  rw [run]
  split
  · rfl
  · split
    · rename_i hread
      exact hread ▸ rfl
    · rename_i hread
      exact hread ▸ rfl

theorem run_nil (m : Machine) : run h e [] m = .ok () m := by
  rw [run_eq]
  rfl

/-- An instruction takes at least its opcode. -/
theorem ne_nil_of_reads {bytes : Bytes} {i : Instruction}
    (hread : (Instruction.read h e).Reads bytes i) : bytes ≠ [] := by
  rintro rfl
  exact absurd (Instruction.read_shortens (hread [])) (Nat.lt_irrefl 0)

/-- The instruction at the front of a stream is executed first. -/
theorem run_of_reads {bytes : Bytes} {i : Instruction} {m m' : Machine}
    (hread : (Instruction.read h e).Reads bytes i) (hexec : i.execute h m = .ok () m')
    (rest : Bytes) : run h e (bytes ++ rest) m = run h e rest m' := by
  have hne : (bytes ++ rest).isEmpty = false := by
    have := ne_nil_of_reads hread
    simp [this]
  rw [run_eq, hne, hread rest]
  simp only [Bool.false_eq_true, if_false, hexec]

end Machine
end LineTable
