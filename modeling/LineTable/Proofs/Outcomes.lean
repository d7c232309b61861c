/-
What executed instructions make of a machine.

An instruction that its header accepts makes one machine of another
(`Instruction.execute_eq_ok_iff`).  It updates the state first.  A row that it records shows
the state then, and recording settles the state for the next row.  So instructions that are
executed one after the other are a fold over machines (`executeAll_eq_ok_iff`), and a stream
that runs to its end executes the instructions it holds (`Machine.executeAll_of_run`).
-/
import LineTable.Proofs.Failures
import LineTable.Proofs.Streams
import LineTable.Proofs.Yields

namespace LineTable

/-! ## One instruction -/

def Header.Accepts (h : Header) (i : Instruction) : Prop := ∀ cause, ¬ h.Refuses i cause

namespace Instruction

/-- Special instructions, copies and the ends of sequences record a row. -/
def records : Instruction → Bool
  | special _ | copy | endSequence => true
  | _ => false

/-- The file that an instruction adds to the table. -/
def definedFile? : Instruction → Option FileEntry
  | defineFile entry => some entry
  | _ => none

/-- The discriminator as its register holds it. -/
def discriminator? : Instruction → Option UInt32
  | setDiscriminator n => some (UInt32.ofNat (min n.toNat (UInt32.size - 1)))
  | _ => none

/-- What an instruction writes to the state, before it records a row. -/
def update (h : Header) : Instruction → State → State
  | special opcode, s =>
    { s with line := s.line + h.specialLines opcode }.advance h (h.specialOperations opcode)
  | advancePc operations, s => s.advance h operations
  | advanceLine lines, s => { s with line := s.line + lines }
  | setFile file, s => { s with file }
  | setColumn column, s => { s with column }
  | negateStatement, s => { s with isStatement := !s.isStatement }
  | setBasicBlock, s => { s with basicBlock := true }
  | constAddPc, s => s.advance h (h.specialOperations 255)
  | fixedAdvancePc bytes, s => { s with address := s.address + bytes.toUInt64 }
  | setPrologueEnd, s => { s with prologueEnd := true }
  | setEpilogueBegin, s => { s with epilogueBegin := true }
  | setIsa isa, s => { s with isa }
  | endSequence, s => { s with endSequence := true }
  | setAddress address, s => { s with address }
  | setDiscriminator n, s =>
    { s with discriminator := UInt32.ofNat (min n.toNat (UInt32.size - 1)) }
  | copy, s | skip _ _, s | empty, s | defineFile _, s | skipExtended _, s => s

/-- What a recorded row leaves of the state. -/
def settle : Instruction → State → State
  | special _ | copy => State.clearRowFlags
  | endSequence => State.restart
  | _ => id

/-- The machine that an accepted instruction makes of another one. -/
def outcome (h : Header) (i : Instruction) (m : Machine) : Machine where
  state := i.settle (i.update h m.state)
  rows :=
    if i.records then m.rows.push { (i.update h m.state).toRegisters with position := m.rows.size }
    else m.rows
  files := m.files ++ i.definedFile?.toArray

variable {h : Header}

theorem accepts_special_iff {v : UInt8} :
    h.Accepts (special v) ↔ h.version = 2 ∧ h.lineRange ≠ 0 := by
  constructor
  · intro hi
    by_cases hversion : h.version = 2
    · exact ⟨hversion, fun hrange => hi _ (.special v hversion hrange)⟩
    · exact absurd (.version v hversion) (hi _)
  · intro ⟨hversion, hrange⟩ cause hrefused
    cases hrefused with
    | version _ hother => exact hother hversion
    | special _ _ hzero => exact hrange hzero

theorem accepts_constAddPc_iff : h.Accepts constAddPc ↔ h.lineRange ≠ 0 := by
  constructor
  · intro hi hrange
    exact hi _ (.constAddPc hrange)
  · intro hrange cause hrefused
    cases hrefused with
    | constAddPc hzero => exact hrange hzero

theorem execute_of_accepts {i : Instruction} (hi : h.Accepts i) (m : Machine) :
    i.execute h m = .ok () (i.outcome h m) := by
  cases i with
  | special v =>
    obtain ⟨hversion, hrange⟩ := accepts_special_iff.1 hi
    rw [execute, Execution.bind_of_ok (Header.needSpecialOpcodes_eq_ok hversion m),
      Execution.bind_of_ok (Header.needLineRange_eq_ok hrange m)]
    rfl
  | constAddPc =>
    have hrange := accepts_constAddPc_iff.1 hi
    rw [execute, Execution.bind_of_ok (Header.needLineRange_eq_ok hrange m)]
    rfl
  | defineFile entry =>
    show EStateM.Result.ok () (m.pushFile entry) = .ok () { m with files := m.files ++ #[entry] }
    rw [Machine.pushFile, Array.push_eq_append]
  | _ => rfl

theorem execute_eq_ok_iff {i : Instruction} {m m' : Machine} :
    i.execute h m = .ok () m' ↔ h.Accepts i ∧ m' = i.outcome h m := by
  constructor
  · intro hexec
    have hi : h.Accepts i := by
      intro cause hrefused
      have hfail : i.execute h m = .error cause m := execute_error_iff.2 ⟨hrefused, rfl⟩
      rw [hfail] at hexec
      contradiction
    rw [execute_of_accepts hi] at hexec
    cases hexec
    exact ⟨hi, rfl⟩
  · intro ⟨hi, hm'⟩
    rw [hm', execute_of_accepts hi]

end Instruction

/-! ## Instructions one after the other -/

/-- Executes instructions one after the other. -/
def executeAll (h : Header) (code : List Instruction) : Execution Unit :=
  code.forM (Instruction.execute h)

/-- The machine that accepted instructions make of another one. -/
def Machine.after (h : Header) (code : List Instruction) (m : Machine) : Machine :=
  code.foldl (fun m i => i.outcome h m) m

variable {h : Header} {e : Endian}

theorem executeAll_cons {i : Instruction} {m m' : Machine} (hexec : i.execute h m = .ok () m')
    (rest : List Instruction) : executeAll h (i :: rest) m = executeAll h rest m' := by
  show (i.execute h >>= fun _ => executeAll h rest) m = _
  exact Execution.bind_of_ok hexec

theorem Machine.after_cons (i : Instruction) (rest : List Instruction) (m : Machine) :
    m.after h (i :: rest) = (i.outcome h m).after h rest := rfl

theorem Machine.after_concat (code : List Instruction) (i : Instruction) (m : Machine) :
    m.after h (code ++ [i]) = i.outcome h (m.after h code) :=
  List.foldl_append

theorem executeAll_eq_ok_iff {code : List Instruction} {m m' : Machine} :
    executeAll h code m = .ok () m' ↔ (∀ i ∈ code, h.Accepts i) ∧ m' = m.after h code := by
  induction code generalizing m with
  | nil =>
    show EStateM.Result.ok () m = .ok () m' ↔ _
    simp [Machine.after, eq_comm]
  | cons i rest ih =>
    rw [List.forall_mem_cons]
    cases hfirst : i.execute h m with
    | ok done middle =>
      obtain ⟨hi, hmiddle⟩ := Instruction.execute_eq_ok_iff.1 hfirst
      rw [executeAll_cons hfirst, ih, hmiddle, Machine.after_cons]
      simp [hi]
    | error cause stopped =>
      have hrefused := (Instruction.execute_error_iff.1 hfirst).1
      constructor
      · intro hexec
        change EStateM.bind (i.execute h) (fun _ => executeAll h rest) m = _ at hexec
        rw [EStateM.bind, hfirst] at hexec
        contradiction
      · intro ⟨⟨hi, _⟩, _⟩
        exact absurd hrefused (hi cause)

namespace Instruction

/-- The instructions that a stream holds, up to the first one that cannot be read. -/
def readAll (h : Header) (e : Endian) (code : Bytes) : List Instruction :=
  match _hread : (read h e).run code with
  | .error _ => []
  | .ok (i, rest) => i :: readAll h e rest
termination_by code.length
decreasing_by exact read_shortens _hread

theorem readAll_nil : readAll h e [] = [] := by
  rw [readAll]
  split
  · rfl
  · rename_i hread
    exact absurd (read_shortens hread) (Nat.not_lt_zero _)

theorem readAll_append {bytes : Bytes} {i : Instruction} (hread : (read h e).Reads bytes i)
    (rest : Bytes) : readAll h e (bytes ++ rest) = i :: readAll h e rest := by
  rw [readAll]
  split
  · rename_i cause hfail
    rw [hread rest] at hfail
    contradiction
  · rename_i found left hfound
    rw [hread rest] at hfound
    cases hfound
    rfl

end Instruction

/-- A stream that runs to its end executes the instructions that it holds. -/
theorem Machine.executeAll_of_run {code : Bytes} {m last : Machine}
    (hrun : run h e code m = .ok () last) :
    executeAll h (Instruction.readAll h e code) m = .ok () last := by
  have hruns := runs_of_run hrun
  clear hrun
  induction hruns with
  | nil m =>
    rw [Instruction.readAll_nil]
    rfl
  | cons hread hexec _ ih =>
    rw [Instruction.readAll_append hread, executeAll_cons hexec]
    exact ih

theorem Machine.eq_after_of_run {code : Bytes} {m last : Machine}
    (hrun : run h e code m = .ok () last) :
    last = m.after h (Instruction.readAll h e code) :=
  (executeAll_eq_ok_iff.1 (executeAll_of_run hrun)).2

end LineTable
