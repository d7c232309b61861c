/-
Instructions of a line program.

An opcode at or above the opcode base is special, opcode zero announces an
extended instruction, and the rest are standard.  Instructions that are not
interpreted still take their bytes: a standard one has the operands that the
header declares, and an extended one states its length.
-/
import LineTable.Program.Registers

namespace LineTable

inductive Instruction where
  | special (opcode : UInt8)
  | copy
  | advancePc (operations : UInt64)
  | advanceLine (lines : Int64)
  | setFile (file : UInt64)
  | setColumn (column : UInt64)
  | negateStatement
  | setBasicBlock
  | constAddPc
  | fixedAdvancePc (bytes : UInt16)
  | setPrologueEnd
  | setEpilogueBegin
  | setIsa (isa : UInt64)
  /-- A standard opcode without a meaning of its own. -/
  | skip (opcode : UInt8) (operands : List UInt64)
  /-- An extended instruction of length zero. -/
  | empty
  | endSequence
  | setAddress (address : UInt64)
  | defineFile (file : FileEntry)
  | setDiscriminator (discriminator : UInt64)
  /-- An extended opcode without a meaning. -/
  | skipExtended (opcode : UInt8)
deriving DecidableEq, Repr

namespace Instruction

open Reader

def readStandard (h : Header) (e : Endian) (opcode : UInt8) : Reader Instruction :=
  match opcode with
  | 1 => pure .copy
  | 2 => .advancePc <$> Leb128.unsigned
  | 3 => .advanceLine <$> Leb128.signed
  | 4 => .setFile <$> Leb128.unsigned
  | 5 => .setColumn <$> Leb128.unsigned
  | 6 => pure .negateStatement
  | 7 => pure .setBasicBlock
  | 8 => pure .constAddPc
  | 9 => .fixedAdvancePc <$> u16 e
  | 10 => pure .setPrologueEnd
  | 11 => pure .setEpilogueBegin
  | 12 => .setIsa <$> Leb128.unsigned
  | _ => .skip opcode <$> times Leb128.unsigned ((h.operandCount? opcode).getD 0).toNat

/-- An extended opcode and its operands, which fill a region of `size` bytes.  The
size of an address is that of the space left for it. -/
def readOperation (e : Endian) (size : Nat) : Reader Instruction := do
  let opcode ← byte
  match opcode with
  | 1 => return .endSequence
  | 2 => return .setAddress (← address e (size - 1))
  | 3 => return .defineFile (← FileEntry.read)
  | 4 => return .setDiscriminator (← Leb128.unsigned)
  | _ => return .skipExtended opcode

/-- An extended instruction after its marker.  What an operation leaves of its
region is skipped. -/
def readExtended (e : Endian) : Reader Instruction := do
  let size ← Leb128.unsigned
  if size = 0 then return .empty
  else
    let region ← take size.toNat
    within region (readOperation e size.toNat)

def read (h : Header) (e : Endian) : Reader Instruction := do
  let opcode ← byte
  if h.opcodeBase ≤ opcode then return .special opcode
  else if opcode = 0 then readExtended e
  else readStandard h e opcode

theorem read_shortens {h : Header} {e : Endian} {code rest : Bytes} {i : Instruction}
    (hr : (read h e).run code = .ok (i, rest)) : rest.length < code.length :=
  byte_shrinks.bind _ hr

end Instruction
end LineTable
