/-
What instructions do to the line machine.

A machine is the state together with the rows and the files it has produced so
far.  Instructions write to it in place, so a machine survives an error and shows
what was written before it.  Special opcodes are interpreted in version two only,
and an instruction that divides by the line range needs one that is not zero.
Both are tested before anything is written.
-/
import LineTable.Program.Instruction

namespace LineTable

/-- The line machine with the rows and files it has produced so far. -/
structure Machine where
  state : State
  rows : Array Row
  files : Array FileEntry
deriving DecidableEq, Repr

/-- A computation that writes to a machine and may fail part of the way. -/
abbrev Execution := EStateM LineError Machine

namespace Machine

def ofState (s : State) : Machine := ⟨s, #[], #[]⟩

/-- The machine before the first instruction. -/
def ofHeader (h : Header) : Machine := ofState (State.ofHeader h)

def pushRow (m : Machine) : Machine :=
  { m with rows := m.rows.push { m.state.toRegisters with position := m.rows.size } }

def pushFile (m : Machine) (entry : FileEntry) : Machine :=
  { m with files := m.files.push entry }

def write (f : State → State) : Execution Unit :=
  modify fun m => { m with state := f m.state }

/-- Records a row and clears what describes only that row. -/
def record : Execution Unit := do
  modify pushRow
  write State.clearRowFlags

end Machine

namespace Header

/-- Fails unless the line range can be divided by. -/
def needLineRange (h : Header) : Execution Unit :=
  if h.lineRange = 0 then throw (.zeroLineRange h.offset) else pure ()

/-- Fails unless special opcodes are interpreted. -/
def needSpecialOpcodes (h : Header) : Execution Unit :=
  if h.version = 2 then pure () else throw (.unsupportedVersion h.version)

/-- How many operations a special opcode advances the address by. -/
def specialOperations (h : Header) (opcode : UInt8) : UInt64 :=
  ((opcode - h.opcodeBase) / h.lineRange).toUInt64

/-- How many lines a special opcode advances the line by. -/
def specialLines (h : Header) (opcode : UInt8) : Int64 :=
  Int64.ofInt (h.lineBase.toInt + ((opcode - h.opcodeBase) % h.lineRange).toNat)

end Header

namespace Instruction

open Machine

def execute (h : Header) : Instruction → Execution Unit
  | special opcode => do
    h.needSpecialOpcodes
    h.needLineRange
    write fun s => { s with line := s.line + h.specialLines opcode }
    write (State.advance h (h.specialOperations opcode))
    record
  | copy => record
  | advancePc operations => write (State.advance h operations)
  | advanceLine lines => write fun s => { s with line := s.line + lines }
  | setFile file => write fun s => { s with file }
  | setColumn column => write fun s => { s with column }
  | negateStatement => write fun s => { s with isStatement := !s.isStatement }
  | setBasicBlock => write fun s => { s with basicBlock := true }
  | constAddPc => do
    h.needLineRange
    write (State.advance h (h.specialOperations 255))
  | fixedAdvancePc bytes => write fun s => { s with address := s.address + bytes.toUInt64 }
  | setPrologueEnd => write fun s => { s with prologueEnd := true }
  | setEpilogueBegin => write fun s => { s with epilogueBegin := true }
  | setIsa isa => write fun s => { s with isa }
  | skip _ _ => pure ()
  | empty => pure ()
  | endSequence => do
    write fun s => { s with endSequence := true }
    modify pushRow
    write State.restart
  | setAddress address => write fun s => { s with address }
  | defineFile entry => modify (·.pushFile entry)
  | setDiscriminator discriminator =>
    write fun s =>
      { s with discriminator := UInt32.ofNat (min discriminator.toNat (UInt32.size - 1)) }
  | skipExtended _ => pure ()

end Instruction

namespace Machine

/-- Reads an instruction and executes it.  What follows the instruction is returned. -/
def perform (h : Header) (instruction : Reader Instruction) (input : Bytes) : Execution Bytes := do
  match instruction.run input with
  | .error cause => throw (.malformed cause)
  | .ok (i, rest) =>
    i.execute h
    return rest

/-- Executes an opcode stream to its end. -/
def run (h : Header) (e : Endian) (code : Bytes) (m : Machine) :
    EStateM.Result LineError Machine Unit :=
  if code.isEmpty then .ok () m
  else
    match _hread : (Instruction.read h e).run code with
    | .error cause => .error (.malformed cause) m
    | .ok (i, rest) =>
      match i.execute h m with
      | .error cause m' => .error cause m'
      | .ok () m' => run h e rest m'
termination_by code.length
decreasing_by exact Instruction.read_shortens _hread

end Machine
end LineTable
