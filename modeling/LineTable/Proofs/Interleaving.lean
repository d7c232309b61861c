/-
Reading and executing in turns.

`Machine.perform` reads a whole instruction before it executes any of it.  A `Stepwise`
computation takes its operands off the stream one at a time and writes to the machine in
between, so it may stop with some operands read and something written.  Both end alike
(`Dispatch.performs`): every operand is read before the first write, and what else can fail is
tested before it too.

Hence the theorem this file exists for, `Dispatch.failure_keeps_machine`: an instruction that
fails, whatever it fails for, leaves the machine as it was.
-/
import LineTable.Proofs.Failures
import LineTable.Proofs.Yields
import Mathlib

namespace LineTable

/-- A computation that reads from a stream, writes to a machine and may fail part of the
way. -/
abbrev Stepwise := EStateM LineError (Machine × Bytes)

namespace Stepwise

variable {α β : Type}

/-- Reads from the stream. -/
def fetch (r : Reader α) : Stepwise α := fun (m, input) =>
  match r.run input with
  | .error cause => .error (.malformed cause) (m, input)
  | .ok (a, rest) => .ok a (m, rest)

/-- Writes to the machine. -/
def act (x : Execution α) : Stepwise α := fun (m, input) =>
  match x m with
  | .error cause m' => .error cause (m', input)
  | .ok a m' => .ok a (m', input)

/-- Reads from a region of its own in the place of the stream, and ignores what is left of
it. -/
def inRegion (region : Bytes) (x : Stepwise α) : Stepwise α := fun (m, input) =>
  match x (m, region) with
  | .error cause (m', _) => .error cause (m', input)
  | .ok a (m', _) => .ok a (m', input)

open Reader

section

variable (h : Header) (e : Endian)

def skipOperands : Nat → Stepwise Unit
  | 0 => pure ()
  | count + 1 => do
    let _ ← fetch Leb128.unsigned
    skipOperands count

def standard (opcode : UInt8) : Stepwise Unit :=
  match opcode with
  | 1 => act (Instruction.copy.execute h)
  | 2 => do act ((Instruction.advancePc (← fetch Leb128.unsigned)).execute h)
  | 3 => do act ((Instruction.advanceLine (← fetch Leb128.signed)).execute h)
  | 4 => do act ((Instruction.setFile (← fetch Leb128.unsigned)).execute h)
  | 5 => do act ((Instruction.setColumn (← fetch Leb128.unsigned)).execute h)
  | 6 => act (Instruction.negateStatement.execute h)
  | 7 => act (Instruction.setBasicBlock.execute h)
  | 8 => act (Instruction.constAddPc.execute h)
  | 9 => do act ((Instruction.fixedAdvancePc (← fetch (u16 e))).execute h)
  | 10 => act (Instruction.setPrologueEnd.execute h)
  | 11 => act (Instruction.setEpilogueBegin.execute h)
  | 12 => do act ((Instruction.setIsa (← fetch Leb128.unsigned)).execute h)
  | _ => skipOperands ((h.operandCount? opcode).getD 0).toNat

def defineFile : Stepwise Unit := do
  let path ← fetch zeroTerminated
  let directoryIndex ← fetch Leb128.unsigned
  let modificationTime ← fetch Leb128.unsigned
  let length ← fetch Leb128.unsigned
  act ((Instruction.defineFile
    ⟨Utf8.decode path, directoryIndex, modificationTime, length⟩).execute h)

/-- The operands of an extended opcode, in a region of `size` bytes with the opcode. -/
def operands (size : Nat) (opcode : UInt8) : Stepwise Unit :=
  match opcode with
  | 1 => act (Instruction.endSequence.execute h)
  | 2 => do act ((Instruction.setAddress (← fetch (address e (size - 1)))).execute h)
  | 3 => defineFile h
  | 4 => do act ((Instruction.setDiscriminator (← fetch Leb128.unsigned)).execute h)
  | _ => pure ()

def operation (size : Nat) : Stepwise Unit := do
  operands h e size (← fetch byte)

def extended : Stepwise Unit := do
  let size ← fetch Leb128.unsigned
  if size = 0 then pure ()
  else
    let region ← fetch (take size.toNat)
    inRegion region (operation h e size.toNat)

end

/-! ## Reading first -/

/-- The same end: the same machine behind the same bytes, or the same error in the same
machine. -/
inductive SameEnd :
    EStateM.Result LineError (Machine × Bytes) Unit → EStateM.Result LineError Machine Bytes →
      Prop where
  | ok (m : Machine) (rest : Bytes) : SameEnd (.ok () (m, rest)) (.ok rest m)
  | error (cause : LineError) (m : Machine) (left : Bytes) :
    SameEnd (.error cause (m, left)) (.error cause m)

/-- The computation ends as it does when the instruction is read first. -/
def Performs (h : Header) (x : Stepwise Unit) (r : Reader Instruction) : Prop :=
  ∀ m input, SameEnd (x (m, input)) (Machine.perform h r input m)

variable {h : Header} {e : Endian}

theorem perform_eq (r : Reader Instruction) (input : Bytes) (m : Machine) :
    Machine.perform h r input m =
      match r.run input with
      | .error cause => .error (.malformed cause) m
      | .ok (i, rest) =>
        match i.execute h m with
        | .error cause m' => .error cause m'
        | .ok () m' => .ok rest m' := by
  unfold Machine.perform
  cases r.run input with
  | error cause => rfl
  | ok found =>
    obtain ⟨i, rest⟩ := found
    show EStateM.bind (i.execute h) (fun _ => pure rest) m = _
    simp only [EStateM.bind]
    cases i.execute h m <;> rfl

theorem performs_act (i : Instruction) : Performs h (act (i.execute h)) (pure i) := by
  intro m input
  rw [perform_eq]
  simp only [act, run_pure]
  cases i.execute h m with
  | ok done m' => exact .ok m' input
  | error cause m' => exact .error cause m' input

theorem performs_pure (i : Instruction) (hi : i.execute h = pure ()) :
    Performs h (pure ()) (pure i) := by
  have hact := performs_act (h := h) i
  rw [hi] at hact
  exact hact

theorem Performs.fetch {r : Reader α} {next : α → Stepwise Unit} {next' : α → Reader Instruction}
    (hnext : ∀ a, Performs h (next a) (next' a)) :
    Performs h (Stepwise.fetch r >>= next) (r >>= next') := by
  intro m input
  rw [perform_eq, run_bind]
  show SameEnd (EStateM.bind (Stepwise.fetch r) next (m, input)) _
  simp only [EStateM.bind, Stepwise.fetch]
  cases r.run input with
  | error cause => exact .error _ m input
  | ok found =>
    have hfound := hnext found.1 m found.2
    rw [perform_eq] at hfound
    exact hfound

theorem Performs.inRegion {region : Bytes} {x : Stepwise Unit} {r : Reader Instruction}
    (hx : Performs h x r) : Performs h (Stepwise.inRegion region x) (within region r) := by
  intro m input
  have hregion := hx m region
  rw [perform_eq] at hregion ⊢
  simp only [Stepwise.inRegion, within]
  generalize x (m, region) = stepped at hregion ⊢
  cases hrun : r.run region with
  | error cause =>
    rw [hrun] at hregion
    cases hregion
    exact .error _ m input
  | ok found =>
    rw [hrun] at hregion
    simp only [run_pure]
    simp only at hregion
    cases hexec : found.1.execute h m with
    | ok done m' =>
      rw [hexec] at hregion
      cases hregion
      exact .ok m' input
    | error cause m' =>
      rw [hexec] at hregion
      cases hregion
      exact .error cause m' input

theorem performs_skipOperands (skipped : List UInt64 → Instruction)
    (hskipped : ∀ operands, (skipped operands).execute h = pure ()) (count : Nat) :
    Performs h (skipOperands count) (skipped <$> times Leb128.unsigned count) := by
  induction count generalizing skipped with
  | zero => exact performs_pure (skipped []) (hskipped [])
  | succ count ih =>
    -- The first operand is read before the other ones.
    have hfirst : skipped <$> times Leb128.unsigned (count + 1) =
        Leb128.unsigned >>= fun first =>
          (fun others => skipped (first :: others)) <$> times Leb128.unsigned count := by
      simp only [times, map_eq_pure_bind, bind_assoc, pure_bind]
    rw [hfirst]
    refine Performs.fetch fun first => ih _ fun others => ?_
    exact hskipped (first :: others)

theorem performs_standard (opcode : UInt8) :
    Performs h (standard h e opcode) (Instruction.readStandard h e opcode) := by
  unfold Instruction.readStandard
  split
  case h_13 =>
    unfold standard
    split
    case h_13 => exact performs_skipOperands (.skip opcode) (fun _ => rfl) _
    all_goals contradiction
  case h_1 => exact performs_act .copy
  case h_6 => exact performs_act .negateStatement
  case h_7 => exact performs_act .setBasicBlock
  case h_8 => exact performs_act .constAddPc
  case h_10 => exact performs_act .setPrologueEnd
  case h_11 => exact performs_act .setEpilogueBegin
  -- The other ones have one operand.
  all_goals exact Performs.fetch fun _ => performs_act _

theorem performs_defineFile :
    Performs h (defineFile h) (FileEntry.read >>= fun entry => pure (.defineFile entry)) := by
  simp only [FileEntry.read, FileEntry.readAfter, bind_assoc, pure_bind]
  refine Performs.fetch fun path => Performs.fetch fun directoryIndex => ?_
  exact Performs.fetch fun modificationTime => Performs.fetch fun length => performs_act _

theorem performs_operation (size : Nat) :
    Performs h (operation h e size) (Instruction.readOperation e size) := by
  refine Performs.fetch fun opcode => ?_
  split
  case h_5 =>
    unfold operands
    split
    case h_5 => exact performs_pure (.skipExtended opcode) rfl
    all_goals contradiction
  · exact performs_act .endSequence
  · exact Performs.fetch fun _ => performs_act _
  · exact performs_defineFile
  · exact Performs.fetch fun _ => performs_act _

theorem performs_extended : Performs h (extended h e) (Instruction.readExtended e) := by
  refine Performs.fetch fun size => ?_
  split
  · exact performs_pure .empty rfl
  · exact Performs.fetch fun region => (performs_operation size.toNat).inRegion

end Stepwise

/-! ## Instructions that fail -/

/-- A failed read leaves the machine, and so does an instruction that is refused. -/
theorem Machine.eq_of_perform_error {h : Header} {r : Reader Instruction} {input : Bytes}
    {m m' : Machine} {cause : LineError} (hfail : perform h r input m = .error cause m') :
    m' = m := by
  rw [Stepwise.perform_eq] at hfail
  cases hread : r.run input with
  | error c =>
    rw [hread] at hfail
    cases hfail
    rfl
  | ok found =>
    rw [hread] at hfail
    simp only at hfail
    cases hexec : found.1.execute h m with
    | ok done m'' =>
      rw [hexec] at hfail
      cases hfail
    | error c m'' =>
      rw [hexec] at hfail
      cases hfail
      exact (Instruction.execute_error_iff.1 hexec).2

/-- The three kinds of instructions, which their opcodes tell apart. -/
inductive Dispatch where
  | special (opcode : UInt8)
  | standard (opcode : UInt8)
  | extended

namespace Dispatch

variable (h : Header) (e : Endian)

/-- Reads the instruction behind its opcode. -/
def reader : Dispatch → Reader Instruction
  | special opcode => pure (.special opcode)
  | standard opcode => Instruction.readStandard h e opcode
  | extended => Instruction.readExtended e

/-- Reads the instruction operand by operand and executes it on the way. -/
def stepwise : Dispatch → Stepwise Unit
  | special opcode => Stepwise.act ((Instruction.special opcode).execute h)
  | standard opcode => Stepwise.standard h e opcode
  | extended => Stepwise.extended h e

theorem performs (d : Dispatch) : Stepwise.Performs h (d.stepwise h e) (d.reader h e) := by
  cases d with
  | special opcode => exact Stepwise.performs_act _
  | standard opcode => exact Stepwise.performs_standard opcode
  | extended => exact Stepwise.performs_extended

/-- An instruction that fails leaves the registers, the rows and the files of any machine as
they were.  It does so also when it reads and writes in turns, and it fails for the same
reason then. -/
theorem failure_keeps_machine (d : Dispatch) (input : Bytes) (m : Machine) :
    (∀ cause m', Machine.perform h (d.reader h e) input m = .error cause m' → m' = m) ∧
      ∀ cause m' left, d.stepwise h e (m, input) = .error cause (m', left) →
        m' = m ∧ Machine.perform h (d.reader h e) input m = .error cause m := by
  refine ⟨fun cause m' hfail => Machine.eq_of_perform_error hfail, fun cause m' left hfail => ?_⟩
  have hends := d.performs h e m input
  rw [hfail] at hends
  generalize hperform : Machine.perform h (d.reader h e) input m = performed at hends
  cases hends
  obtain rfl := Machine.eq_of_perform_error hperform
  exact ⟨rfl, rfl⟩

/-- A machine in the middle of a sequence that has named a file. -/
def busyMachine : Machine where
  state := { State.start false with address := 16, isStatement := true, discriminator := 3 }
  rows := #[]
  files := #[⟨"a.c", 0, 0, 0⟩]

/-- A file whose length is missing behind its path, its directory and its time, which are read
before anything fails, and a special opcode that is refused for its version. -/
theorem failure_keeps_machine_sample :
    (Dispatch.extended.stepwise (.ofFields 2 10 (-5) 14 1) .little
          (busyMachine, [5, 3, 98, 0, 1, 2, 9]) =
        .error (.malformed .endOfInput) (busyMachine, [9]) ∧
      Machine.perform (.ofFields 2 10 (-5) 14 1)
          (Dispatch.extended.reader (.ofFields 2 10 (-5) 14 1) .little) [5, 3, 98, 0, 1, 2, 9]
          busyMachine =
        .error (.malformed .endOfInput) busyMachine) ∧
      ∃ m, Machine.perform (.ofFields 3 10 (-5) 14 1)
          ((Dispatch.special 32).reader (.ofFields 3 10 (-5) 14 1) .little) [] busyMachine =
        .error (.unsupportedVersion 3) m ∧ m = busyMachine := by
  have hcut : Dispatch.extended.stepwise (.ofFields 2 10 (-5) 14 1) .little
      (busyMachine, [5, 3, 98, 0, 1, 2, 9]) =
        .error (.malformed .endOfInput) (busyMachine, [9]) := by cbv
  have hrefused : Machine.perform (.ofFields 3 10 (-5) 14 1)
      ((Dispatch.special 32).reader (.ofFields 3 10 (-5) 14 1) .little) [] busyMachine =
        .error (.unsupportedVersion 3) busyMachine := by cbv
  obtain ⟨-, hsame⟩ := (failure_keeps_machine _ _ _ _ busyMachine).2 _ _ _ hcut
  exact ⟨⟨hcut, hsame⟩, _, hrefused, (failure_keeps_machine _ _ _ _ busyMachine).1 _ _ hrefused⟩

end Dispatch
end LineTable
