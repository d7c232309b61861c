/-
The header of a line program.

A program is a unit that states its own length.  The header states its length
again, so the opcode stream begins where the header ends and ends where the unit
does.  Versions two to four share one layout.
-/
import LineTable.LineError
import LineTable.Program.FileEntry

namespace LineTable

/-- Whether lengths and offsets take four or eight bytes. -/
inductive Format where
  | dwarf32
  | dwarf64
deriving DecidableEq, Repr

namespace Format

def wordSize : Format → Nat
  | dwarf32 => 4
  | dwarf64 => 8

end Format

namespace Reader

/-- The length of a unit.  The highest values of the short form are reserved, and
the highest of all announces the long form. -/
def initialLength (e : Endian) : Reader (Format × Nat) := do
  let short ← number e 4
  if short < 0xFFFFFFF0 then return (.dwarf32, short)
  else if short = 0xFFFFFFFF then return (.dwarf64, ← number e 8)
  else fail .reservedLength

/-- The bytes of a unit behind the length it states. -/
def unitBytes (e : Endian) : Reader (Format × Bytes) := do
  let (format, length) ← initialLength e
  return (format, ← take length)

def word (e : Endian) (format : Format) : Reader Nat := number e format.wordSize

end Reader

structure Header where
  /-- Where the program begins in its section. -/
  offset : UInt64
  format : Format
  version : UInt16
  minimumInstructionLength : UInt8
  maximumOperations : UInt8
  defaultIsStatement : Bool
  lineBase : Int8
  lineRange : UInt8
  /-- The first special opcode. -/
  opcodeBase : UInt8
  /-- How many operands each standard opcode has, from opcode one on. -/
  operandCounts : List UInt8
  directories : List String
  files : List FileEntry
deriving DecidableEq, Repr

namespace Header

/-- How many operands the opcodes of the standard have, from opcode one on. -/
def standardOperandCounts : List UInt8 := [0, 1, 1, 1, 1, 0, 0, 0, 1, 0, 0, 1]

/-- The standard operand counts below an opcode base; further opcodes have none. -/
def defaultOperandCounts (opcodeBase : UInt8) : List UInt8 :=
  (List.range (opcodeBase.toNat - 1)).map fun i => standardOperandCounts.getD i 0

/-- A header without files at the start of its section. -/
def ofFields (version : UInt16) (opcodeBase : UInt8) (lineBase : Int8) (lineRange : UInt8)
    (minimumInstructionLength : UInt8) : Header where
  offset := 0
  format := .dwarf32
  version := version
  minimumInstructionLength := minimumInstructionLength
  maximumOperations := 1
  defaultIsStatement := true
  lineBase := lineBase
  lineRange := lineRange
  opcodeBase := opcodeBase
  operandCounts := defaultOperandCounts opcodeBase
  directories := []
  files := []

/-- How many operands a standard opcode has, if the header says so. -/
def operandCount? (h : Header) (opcode : UInt8) : Option UInt8 :=
  if opcode = 0 then none else h.operandCounts[opcode.toNat - 1]?

/-- The fields between the header's length and the opcode stream. -/
def readFields (offset : UInt64) (format : Format) (version : UInt16) : Reader Header := do
  let minimumInstructionLength ← Reader.byte
  let maximumOperations ← if 4 ≤ version then Reader.byte else pure 1
  let defaultIsStatement ← Reader.byte
  let lineBase ← Reader.byte
  let lineRange ← Reader.byte
  let opcodeBase ← Reader.byte
  let operandCounts ← Reader.take (opcodeBase.toNat - 1)
  let directories ← Reader.table fun path => pure (Utf8.decode path)
  let files ← Reader.table FileEntry.readAfter
  return {
    offset, format, version, minimumInstructionLength, maximumOperations
    defaultIsStatement := defaultIsStatement != 0
    lineBase := lineBase.toInt8
    lineRange, opcodeBase, operandCounts, directories, files }

/-- The header of the unit at the front of `input`, and the unit's opcode stream. -/
def read (e : Endian) (offset : UInt64) (input : Bytes) : Except LineError (Header × Bytes) := do
  let ((format, unit), _) ← (Reader.unitBytes e).runLine input
  let (version, unit) ← (Reader.u16 e).runLine unit
  if version < 2 ∨ 4 < version then throw (.unsupportedVersion version)
  let (length, unit) ← (Reader.word e format).runLine unit
  let (fields, code) ← (Reader.take length).runLine unit
  let (header, _) ← (readFields offset format version).runLine fields
  return (header, code)

end Header
end LineTable
