/-
What can go wrong between a line program's bytes and its rows.
-/
import LineTable.Reader
import LineTable.Text.Number

namespace LineTable

/-- Why there is no line program. -/
inductive LineError where
  /-- The program's version, or an opcode of it in this version, is not interpreted. -/
  | unsupportedVersion (version : UInt16)
  /-- An opcode divides by the line range, and the header at `offset` declares zero. -/
  | zeroLineRange (offset : UInt64)
  /-- Header or opcodes cannot be read. -/
  | malformed (cause : ReadError)
  /-- A program's offset lies past the end of its section. -/
  | offsetOutOfRange (offset : UInt64) (size : Nat)
  /-- Nothing but symbols describes the unit, so it has no line program. -/
  | symbolsOnly (file : String)
deriving DecidableEq, Repr

namespace LineError

def message : LineError → String
  | unsupportedVersion version => s!"line number program with version {version} is not supported"
  | zeroLineRange offset =>
    s!"line number program at offset {Number.hex offset.toNat} has a zero line range"
  | malformed cause => "malformed line number program: " ++ cause.message
  | offsetOutOfRange offset size =>
    s!"line program offset {Number.hex offset.toNat} is outside .debug_line ({size} bytes)"
  | symbolsOnly file => s!"translation unit {file} does not expose a DWARF line program"

end LineError

/-- Runs a reader where only line programs are read. -/
def Reader.runLine {α : Type} (r : Reader α) (input : Bytes) : Except LineError (α × Bytes) :=
  (r.run input).mapError .malformed

end LineTable
