/-
The header of the line program that a unit refers to.

A unit is refused if this header cannot be read.  The check covers versions two to
five, of which the last describes the entries of its tables itself, and it does
not look at the opcode stream.
-/
import LineTable.Info.Form
import LineTable.Program.FileEntry

namespace LineTable
namespace Info
namespace LineHeader

open Reader

/-- The forms that values of table entries can have. -/
def entryForms : List UInt16 :=
  [0x03, 0x04, 0x05, 0x06, 0x07, 0x08, 0x09, 0x0A, 0x0B, 0x0C, 0x0D, 0x0E, 0x0F, 0x17, 0x1A, 0x1D,
    0x1E, 0x1F, 0x25, 0x26, 0x27, 0x28, 0x1F02, 0x1F21]

/-- Reads past a value of a table entry. -/
def entryValue (c : Encoding) (form : UInt16) : Reader Unit := do
  if entryForms.contains form then
    let _ ← FormValue.readDirect c ⟨0, form, none⟩ form
  else fail .unknownForm

/-- The forms of the values of an entry, one of which must be its path. -/
def entryFormat : Reader (List UInt16) := do
  let count ← byte
  let columns ← times (do
    let content ← Leb128.unsigned
    let form ← Leb128.unsigned16
    return (content, form)) count.toNat
  if columns.countP (fun column => column.1 = 1) = 1 then return columns.map (·.2)
  else fail .missingPath

/-- Reads past each of some values. -/
def all (c : Encoding) : List UInt16 → Reader Unit
  | [] => pure ()
  | form :: forms => do
    entryValue c form
    all c forms

/-- A table that describes its entries. -/
def describedTable (c : Encoding) : Reader Unit := do
  let forms ← entryFormat
  let count ← Leb128.unsigned
  let _ ← times (all c forms) count.toNat

/-- Fails if a field that must not be zero is. -/
def nonzero (field : UInt8) (cause : ReadError) : Reader Unit :=
  if field = 0 then fail cause else pure ()

/-- The fields behind the header's length. -/
def fields (c : Encoding) : Reader Unit := do
  nonzero (← byte) .instructionLengthZero
  if 4 ≤ c.version then nonzero (← byte) .operationsZero
  let _ ← byte
  let _ ← byte
  nonzero (← byte) .lineRangeZero
  let opcodeBase ← byte
  nonzero opcodeBase .opcodeBaseZero
  let _ ← take (opcodeBase.toNat - 1)
  if c.version ≤ 4 then
    let _ ← table fun _ => pure ()
    let _ ← table FileEntry.readAfter
  else
    describedTable c
    describedTable c

/-- The contents of the unit that holds a line program. -/
def contents (e : Endian) (format : Format) (addressSize : Nat) : Reader Unit := do
  let version ← number e 2
  if version < 2 ∨ 5 < version then fail .unknownVersion
  else
    let addressSize ← if version = 5 then
        let size ← Reader.addressSize
        if (← byte) ≠ 0 then fail .segmentSize
        else pure size
      else pure addressSize
    let length ← word e format
    within (← take length) (fields ⟨e, format, version, addressSize⟩)

/-- Reads past the header of a line program. -/
def read (e : Endian) (addressSize : Nat) : Reader Unit := do
  let (format, unit) ← unitBytes e
  within unit (contents e format addressSize)

end LineHeader
end Info
end LineTable
