/-
The registers of the line machine, and the rows that record them.
-/
import LineTable.Program.Header

namespace LineTable

/-- The registers of the line machine.  Lines are signed, since a program may step
below line zero. -/
structure Registers where
  address : UInt64
  line : Int64
  file : UInt64
  column : UInt64
  discriminator : UInt32
  /-- The address is a good place for a breakpoint. -/
  isStatement : Bool
  basicBlock : Bool
  /-- The address is the first one past a sequence. -/
  endSequence : Bool
  prologueEnd : Bool
  epilogueBegin : Bool
  isa : UInt64
deriving DecidableEq, Repr

namespace Registers

/-- The registers at the start of a sequence. -/
def initial (isStatement : Bool) : Registers where
  address := 0
  line := 1
  file := 1
  column := 0
  discriminator := 0
  isStatement := isStatement
  basicBlock := false
  endSequence := false
  prologueEnd := false
  epilogueBegin := false
  isa := 0

/-- What describes only the row just recorded is cleared. -/
def clearRowFlags (r : Registers) : Registers :=
  { r with basicBlock := false, prologueEnd := false, epilogueBegin := false, discriminator := 0 }

end Registers

/-- The line machine between two instructions. -/
structure State extends Registers where
  /-- What `isStatement` is at the start of a sequence. -/
  defaultIsStatement : Bool
deriving DecidableEq, Repr

namespace State

def start (defaultIsStatement : Bool) : State :=
  { Registers.initial defaultIsStatement with defaultIsStatement }

def ofHeader (h : Header) : State := start h.defaultIsStatement

/-- The state at the start of the next sequence. -/
def restart (s : State) : State := start s.defaultIsStatement

def clearRowFlags (s : State) : State := { s with toRegisters := s.toRegisters.clearRowFlags }

/-- Operations advance the address by whole instructions.  Addresses wrap. -/
def advance (h : Header) (operations : UInt64) (s : State) : State :=
  { s with address := s.address + operations * h.minimumInstructionLength.toUInt64 }

end State

/-- A row of the line table: the registers when it was recorded, and how many rows
were recorded before it. -/
structure Row extends Registers where
  position : Nat
deriving DecidableEq, Repr

end LineTable
