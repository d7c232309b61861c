/-
The line machine of the standard.

The reference machine keeps its numbers without bound and writes a row whenever an
instruction says so.  It knows nothing of bytes, of words or of errors.  The theorem
this file exists for is `build_assemble`: the program built from the bytes of a list
of statements has exactly the rows and the files of the reference machine, each row
reduced to words when it is looked at, and never fails.

The proof runs both machines side by side.  `Reference.Machine.toMachine` is the
line machine that holds the words of a reference machine, one instruction commutes
with it (`execute_toMachine`), and so does a whole list of statements.
-/
import LineTable.Proofs.Assembly
import LineTable.Proofs.Run

namespace LineTable
namespace Reference

/-- The registers of the standard. -/
structure Registers where
  address : Nat
  line : Int
  file : Nat
  column : Nat
  discriminator : Nat
  isStatement : Bool
  basicBlock : Bool
  endSequence : Bool
  prologueEnd : Bool
  epilogueBegin : Bool
  isa : Nat
deriving DecidableEq, Repr

namespace Registers

/-- The registers at the start of a sequence. -/
def initial (isStatement : Bool) : Registers where
  address := 0
  line := 1
  file := 1
  column := 0
  discriminator := 0
  isStatement := isStatement
  basicBlock := false
  endSequence := false
  prologueEnd := false
  epilogueBegin := false
  isa := 0

/-- Operations advance the address by whole instructions. -/
def advance (h : Header) (operations : Nat) (r : Registers) : Registers :=
  { r with address := r.address + operations * h.minimumInstructionLength.toNat }

/-- What a row leaves behind for the next one. -/
def afterRow (r : Registers) : Registers :=
  { r with discriminator := 0, basicBlock := false, prologueEnd := false, epilogueBegin := false }

/-- The registers as words.  Numbers wrap around, but a discriminator that is too
large for its word becomes the greatest one. -/
def toWords (r : Registers) : LineTable.Registers where
  address := UInt64.ofNat r.address
  line := Int64.ofInt r.line
  file := UInt64.ofNat r.file
  column := UInt64.ofNat r.column
  discriminator := UInt32.ofNat (min r.discriminator (UInt32.size - 1))
  isStatement := r.isStatement
  basicBlock := r.basicBlock
  endSequence := r.endSequence
  prologueEnd := r.prologueEnd
  epilogueBegin := r.epilogueBegin
  isa := UInt64.ofNat r.isa

/-- The state of the line machine that holds the words. -/
def toState (h : Header) (r : Registers) : State :=
  { r.toWords with defaultIsStatement := h.defaultIsStatement }

end Registers

/-- The reference machine with the rows and files it has written so far. -/
structure Machine where
  registers : Registers
  rows : List Registers
  files : List FileEntry
deriving DecidableEq, Repr

namespace Machine

/-- The machine before the first instruction. -/
def start (h : Header) : Machine := ⟨.initial h.defaultIsStatement, [], []⟩

/-- Writes a row and goes on from the registers it leaves behind. -/
def record (m : Machine) (row : Registers) : Machine :=
  { m with registers := row.afterRow, rows := m.rows ++ [row] }

def step (h : Header) (m : Machine) : Instruction → Machine
  | .special opcode =>
    let adjusted := opcode.toNat - h.opcodeBase.toNat
    let advanced := m.registers.advance h (adjusted / h.lineRange.toNat)
    m.record { advanced with
      line := advanced.line + (h.lineBase.toInt + (adjusted % h.lineRange.toNat : Nat)) }
  | .copy => m.record m.registers
  | .advancePc operations => { m with registers := m.registers.advance h operations.toNat }
  | .advanceLine lines =>
    { m with registers := { m.registers with line := m.registers.line + lines.toInt } }
  | .setFile file => { m with registers := { m.registers with file := file.toNat } }
  | .setColumn column => { m with registers := { m.registers with column := column.toNat } }
  | .negateStatement =>
    { m with registers := { m.registers with isStatement := !m.registers.isStatement } }
  | .setBasicBlock => { m with registers := { m.registers with basicBlock := true } }
  | .constAddPc =>
    { m with registers :=
        m.registers.advance h ((255 - h.opcodeBase.toNat) / h.lineRange.toNat) }
  | .fixedAdvancePc bytes =>
    { m with registers := { m.registers with address := m.registers.address + bytes.toNat } }
  | .setPrologueEnd => { m with registers := { m.registers with prologueEnd := true } }
  | .setEpilogueBegin => { m with registers := { m.registers with epilogueBegin := true } }
  | .setIsa isa => { m with registers := { m.registers with isa := isa.toNat } }
  | .skip _ _ | .empty | .skipExtended _ => m
  | .endSequence =>
    { m with
      registers := .initial h.defaultIsStatement
      rows := m.rows ++ [{ m.registers with endSequence := true }] }
  | .setAddress address => { m with registers := { m.registers with address := address.toNat } }
  | .defineFile entry => { m with files := m.files ++ [entry] }
  | .setDiscriminator n => { m with registers := { m.registers with discriminator := n.toNat } }

/-- Executes a list of instructions. -/
def run (h : Header) (code : List Instruction) : Machine := code.foldl (step h) (start h)

/-- The rows as words, numbered in the order in which they were written. -/
def table (m : Machine) : List Row :=
  m.rows.mapIdx fun position row => { row.toWords with position }

/-- The line machine that holds the words of a reference machine. -/
def toMachine (h : Header) (m : Machine) : LineTable.Machine where
  state := m.registers.toState h
  rows := m.table.toArray
  files := m.files.toArray

end Machine

/-! ### One instruction -/

variable {h : Header}

namespace Registers

theorem advance_toState (operations : Nat) (r : Registers) :
    State.advance h (UInt64.ofNat operations) (r.toState h) =
      (r.advance h operations).toState h := by
  simp [State.advance, advance, toState, toWords]

end Registers

/-- What a special opcode adds to the opcode base, without wrapping around. -/
theorem toNat_adjusted {opcode : UInt8} (hopcode : h.opcodeBase ≤ opcode) :
    (opcode - h.opcodeBase).toNat = opcode.toNat - h.opcodeBase.toNat :=
  UInt8.toNat_sub_of_le _ _ hopcode

theorem specialOperations_eq {opcode : UInt8} (hopcode : h.opcodeBase ≤ opcode) :
    h.specialOperations opcode =
      UInt64.ofNat ((opcode.toNat - h.opcodeBase.toNat) / h.lineRange.toNat) := by
  rw [Header.specialOperations, ← toNat_adjusted hopcode, ← UInt8.toNat_div]
  exact (UInt64.ofNat_uInt8ToNat _).symm

theorem specialLines_eq {opcode : UInt8} (hopcode : h.opcodeBase ≤ opcode) :
    h.specialLines opcode = Int64.ofInt (h.lineBase.toInt +
      ((opcode.toNat - h.opcodeBase.toNat) % h.lineRange.toNat : Nat)) := by
  rw [Header.specialLines, ← toNat_adjusted hopcode, ← UInt8.toNat_mod]

namespace Machine

theorem write_toMachine {f : State → State} {m : Machine} {r : Registers}
    (hf : f (m.registers.toState h) = r.toState h) :
    LineTable.Machine.write f (m.toMachine h) = .ok () ({ m with registers := r }.toMachine h) := by
  show EStateM.Result.ok () { m.toMachine h with state := f (m.registers.toState h) } = _
  rw [hf]
  rfl

theorem table_record (m : Machine) (row : Registers) :
    { m with rows := m.rows ++ [row] }.table =
      m.table ++ [{ row.toWords with position := m.rows.length }] := by
  simp [table, List.mapIdx_concat]

/-- Appending the current registers as a row. -/
theorem pushRow_toMachine (m : Machine) :
    (m.toMachine h).pushRow = { m with rows := m.rows ++ [m.registers] }.toMachine h := by
  have hsize : (m.toMachine h).rows.size = m.rows.length := by simp [toMachine, table]
  rw [LineTable.Machine.pushRow, hsize]
  simp only [toMachine, table_record, List.push_toArray]
  rfl

theorem record_toMachine (m : Machine) :
    LineTable.Machine.record (m.toMachine h) = .ok () ((m.record m.registers).toMachine h) := by
  show LineTable.Machine.write State.clearRowFlags (m.toMachine h).pushRow = _
  rw [pushRow_toMachine]
  exact write_toMachine rfl

theorem execute_special {m : Machine} {opcode : UInt8} (hopcode : h.opcodeBase ≤ opcode)
    (hversion : h.version = 2) (hrange : h.lineRange ≠ 0) :
    (Instruction.special opcode).execute h (m.toMachine h) =
      .ok () ((m.step h (.special opcode)).toMachine h) := by
  let adjusted := opcode.toNat - h.opcodeBase.toNat
  let lines := h.lineBase.toInt + (adjusted % h.lineRange.toNat : Nat)
  let moved : Registers := { m.registers with line := m.registers.line + lines }
  have hneedVersion := Header.needSpecialOpcodes_eq_ok hversion (m.toMachine h)
  have hneedRange := Header.needLineRange_eq_ok hrange (m.toMachine h)
  have hline := write_toMachine (h := h) (m := m) (r := moved)
    (f := fun s => { s with line := s.line + h.specialLines opcode }) (by
      rw [specialLines_eq hopcode]
      simp [moved, lines, adjusted, Registers.toState, Registers.toWords])
  have haddress := write_toMachine (h := h) (m := { m with registers := moved })
    (r := moved.advance h (adjusted / h.lineRange.toNat))
    (f := State.advance h (h.specialOperations opcode)) (by
      rw [specialOperations_eq hopcode]
      exact Registers.advance_toState _ moved)
  rw [Instruction.execute, Execution.bind_of_ok hneedVersion, Execution.bind_of_ok hneedRange,
    Execution.bind_of_ok hline, Execution.bind_of_ok haddress, record_toMachine]
  rfl

theorem execute_constAddPc {m : Machine} (hrange : h.lineRange ≠ 0) :
    Instruction.constAddPc.execute h (m.toMachine h) =
      .ok () ((m.step h .constAddPc).toMachine h) := by
  have hneedRange := Header.needLineRange_eq_ok hrange (m.toMachine h)
  rw [Instruction.execute, Execution.bind_of_ok hneedRange]
  have hbase : h.opcodeBase ≤ 255 := Nat.le_of_lt_succ h.opcodeBase.toNat_lt
  refine write_toMachine ?_
  rw [specialOperations_eq hbase]
  exact Registers.advance_toState _ m.registers

theorem execute_endSequence (m : Machine) :
    Instruction.endSequence.execute h (m.toMachine h) =
      .ok () ((m.step h .endSequence).toMachine h) := by
  have hended := write_toMachine (h := h) (m := m)
    (r := { m.registers with endSequence := true })
    (f := fun s => { s with endSequence := true }) rfl
  have hpushed : (modify LineTable.Machine.pushRow : Execution Unit)
      ({ m with registers := { m.registers with endSequence := true } }.toMachine h) = _ :=
    congrArg (EStateM.Result.ok ()) (pushRow_toMachine _)
  rw [Instruction.execute, Execution.bind_of_ok hended, Execution.bind_of_ok hpushed]
  exact write_toMachine rfl

/-- One instruction of a statement commutes with the words of a machine. -/
theorem execute_toMachine {e : Endian} {s : Statement} (hs : s.Expressible h e) (m : Machine) :
    s.instruction.execute h (m.toMachine h) =
      .ok () ((m.step h s.instruction).toMachine h) := by
  obtain ⟨i, addressSize, padding⟩ := s
  show i.execute h (m.toMachine h) = .ok () ((m.step h i).toMachine h)
  cases i with
  | special opcode => exact execute_special hs.1 hs.2.1 hs.2.2
  | copy => exact record_toMachine m
  | advancePc operations =>
    have hadvance := Registers.advance_toState (h := h) operations.toNat m.registers
    rw [UInt64.ofNat_toNat] at hadvance
    exact write_toMachine hadvance
  | advanceLine lines =>
    rw [Instruction.execute, step]
    exact write_toMachine (by simp [Registers.toState, Registers.toWords])
  | setFile file =>
    rw [Instruction.execute, step]
    exact write_toMachine (by simp [Registers.toState, Registers.toWords])
  | setColumn column =>
    rw [Instruction.execute, step]
    exact write_toMachine (by simp [Registers.toState, Registers.toWords])
  | negateStatement =>
    rw [Instruction.execute, step]
    exact write_toMachine rfl
  | setBasicBlock =>
    rw [Instruction.execute, step]
    exact write_toMachine rfl
  | constAddPc => exact execute_constAddPc hs.2
  | fixedAdvancePc bytes =>
    rw [Instruction.execute, step]
    exact write_toMachine (by simp [Registers.toState, Registers.toWords])
  | setPrologueEnd =>
    rw [Instruction.execute, step]
    exact write_toMachine rfl
  | setEpilogueBegin =>
    rw [Instruction.execute, step]
    exact write_toMachine rfl
  | setIsa isa =>
    rw [Instruction.execute, step]
    exact write_toMachine (by simp [Registers.toState, Registers.toWords])
  | skip _ _ => rfl
  | empty => rfl
  | endSequence => exact execute_endSequence m
  | setAddress address =>
    rw [Instruction.execute, step]
    exact write_toMachine (by simp [Registers.toState, Registers.toWords])
  | defineFile entry =>
    show EStateM.Result.ok () ((m.toMachine h).pushFile entry) = _
    simp [LineTable.Machine.pushFile, toMachine, step, table]
  | setDiscriminator n =>
    rw [Instruction.execute, step]
    exact write_toMachine rfl
  | skipExtended _ => rfl

end Machine

/-! ### Whole programs -/

theorem run_assemble {e : Endian} (hbase : 1 ≤ h.opcodeBase) (code : List Statement)
    (hcode : ∀ s ∈ code, s.Expressible h e) (m : Machine) :
    LineTable.Machine.run h e (assemble e code) (m.toMachine h) =
      .ok () (((code.map Statement.instruction).foldl (Machine.step h) m).toMachine h) := by
  induction code generalizing m with
  | nil => exact LineTable.Machine.run_nil _
  | cons s rest ih =>
    have hs := hcode s List.mem_cons_self
    have hrest := ih (fun t ht => hcode t (List.mem_cons_of_mem s ht)) (m.step h s.instruction)
    rw [assemble, List.flatMap_cons, LineTable.Machine.run_of_reads
      (Statement.read_encode hbase hs) (Machine.execute_toMachine hs m)]
    exact hrest

end Reference

/-- The program built from the bytes of a list of statements has the rows and the
files of the reference machine. -/
theorem build_assemble {h : Header} {e : Endian} (hbase : 1 ≤ h.opcodeBase)
    (code : List Statement) (hcode : ∀ s ∈ code, s.Expressible h e) :
    ∃ p, Program.build h e (assemble e code) = .ok p ∧ p.header = h ∧
      p.rows = (Reference.Machine.run h (code.map Statement.instruction)).table ∧
      p.definedFiles = (Reference.Machine.run h (code.map Statement.instruction)).files := by
  have hstart : Machine.ofHeader h = (Reference.Machine.start h).toMachine h := rfl
  have hrun := Reference.run_assemble hbase code hcode (Reference.Machine.start h)
  refine ⟨Program.ofMachine h
    ((Reference.Machine.run h (code.map Statement.instruction)).toMachine h), ?_, rfl, ?_, ?_⟩
  · rw [Program.build, hstart, hrun]
    rfl
  · simp [Program.ofMachine, Reference.Machine.toMachine]
  · simp [Program.ofMachine, Reference.Machine.toMachine]

/-- A header whose opcode 13 is not of the standard and has two operands. -/
def sampleHeader : Header :=
  { Header.ofFields 2 14 (-5) 14 4 with operandCounts := [0, 1, 1, 1, 1, 0, 0, 0, 1, 0, 0, 1, 2] }

/-- Statements of each class, some of them padded or without effect. -/
def sampleCode : List Statement :=
  [{ instruction := .setAddress 0x1000, addressSize := 4 }, { instruction := .special 40 },
    { instruction := .skip 13 [200, 7] },
    { instruction := .skipExtended 128, padding := [1, 2, 3] },
    { instruction := .setDiscriminator 5000000000, padding := [0] },
    { instruction := .advanceLine (-3) }, { instruction := .copy }, { instruction := .empty },
    { instruction := .defineFile ⟨"b.c", 0, 0, 0⟩ },
    { instruction := .endSequence, padding := [9] }]

theorem sampleCode_expressible : ∀ s ∈ sampleCode, s.Expressible sampleHeader .big := by
  simp only [sampleCode, List.forall_mem_cons]
  refine ⟨⟨.inr (.inr (.inl rfl)), by decide⟩, ⟨by decide, rfl, by decide⟩,
    ⟨by decide, by decide, rfl⟩, ⟨.inr (by decide), by decide⟩, ?_, ?_, ?_, trivial,
    ⟨by decide, ?_⟩, ?_, nofun⟩
  all_goals
    show _ < _
    cbv

theorem build_assemble_sample :
    (1 ≤ sampleHeader.opcodeBase ∧ ∀ s ∈ sampleCode, s.Expressible sampleHeader .big) ∧
      ∃ p, Program.build sampleHeader .big (assemble .big sampleCode) = .ok p ∧
        p.rows.map (fun row => (row.address, row.line, row.discriminator)) =
          [(0x1004, 8, 0), (0x1004, 5, 0xFFFFFFFF), (0x1004, 5, 0)] := by
  have hbase : 1 ≤ sampleHeader.opcodeBase := by decide
  obtain ⟨p, hbuild, -, hrows, -⟩ := build_assemble hbase sampleCode sampleCode_expressible
  refine ⟨⟨hbase, sampleCode_expressible⟩, p, hbuild, ?_⟩
  rw [hrows]
  cbv

end LineTable
