/-
Writing headers.

A `Layout` holds what an assembler puts into a header: the fields that a reader
gives back, the byte behind the statement flag, and what pads the header after its
tables.  The theorem this file exists for is `Header.read_layout`: the header is
read back field by field, and the opcode stream is exactly what stands between the
end of the header and the end of the unit.
-/
import LineTable.Proofs.FileNames

namespace LineTable

/-- The lengths of a unit that a format can state lie below this one. -/
def Format.lengthLimit : Format → Nat
  | dwarf32 => 0xFFFFFFF0
  | dwarf64 => 2 ^ 64

/-- A header as it is written. -/
structure Layout where
  format : Format
  version : UInt16
  minimumInstructionLength : UInt8
  /-- Written in version four only. -/
  maximumOperations : UInt8
  /-- Any byte but zero sets the flag. -/
  statementByte : UInt8
  lineBase : Int8
  lineRange : UInt8
  opcodeBase : UInt8
  operandCounts : List UInt8
  directories : List String
  files : List FileEntry
  /-- What follows the tables within the header's length. -/
  padding : Bytes
  version_supported : 2 ≤ version ∧ version ≤ 4
  operandCounts_length : operandCounts.length = opcodeBase.toNat - 1
  directories_named : ∀ directory ∈ directories, IsName directory
  files_named : ∀ file ∈ files, IsName file.path

namespace Layout

/-- The header that a layout stands for, at an offset of its section. -/
def header (l : Layout) (offset : UInt64) : Header where
  offset := offset
  format := l.format
  version := l.version
  minimumInstructionLength := l.minimumInstructionLength
  maximumOperations := if 4 ≤ l.version then l.maximumOperations else 1
  defaultIsStatement := l.statementByte != 0
  lineBase := l.lineBase
  lineRange := l.lineRange
  opcodeBase := l.opcodeBase
  operandCounts := l.operandCounts
  directories := l.directories
  files := l.files

/-- The fields between the header's length and the padding. -/
def fields (l : Layout) : Bytes :=
  [l.minimumInstructionLength] ++ ((if 4 ≤ l.version then [l.maximumOperations] else []) ++
    ([l.statementByte] ++ ([l.lineBase.toUInt8] ++ ([l.lineRange] ++ ([l.opcodeBase] ++
      (l.operandCounts ++ ((l.directories.flatMap (fun d => Utf8.encode d ++ [0]) ++ [0]) ++
        (l.files.flatMap FileEntry.encode ++ [0]))))))))

/-- The unit of a layout and an opcode stream, without its length. -/
def unit (l : Layout) (e : Endian) (code : Bytes) : Bytes :=
  e.encode 2 l.version.toNat ++
    (e.encode l.format.wordSize (l.fields ++ l.padding).length ++ ((l.fields ++ l.padding) ++ code))

def initialLength (format : Format) (e : Endian) (length : Nat) : Bytes :=
  match format with
  | .dwarf32 => e.encode 4 length
  | .dwarf64 => e.encode 4 0xFFFFFFFF ++ e.encode 8 length

/-- The bytes of a layout and an opcode stream. -/
def encode (l : Layout) (e : Endian) (code : Bytes) : Bytes :=
  initialLength l.format e (l.unit e code).length ++ l.unit e code

end Layout

open Reader

theorem reads_initialLength (e : Endian) (format : Format) {length : Nat}
    (h : length < format.lengthLimit) :
    (initialLength e).Reads (Layout.initialLength format e length) (format, length) := by
  cases format with
  | dwarf32 =>
    have hshort : length < 0xFFFFFFF0 := h
    refine (reads_number e (show length < 256 ^ 4 by omega)).bind_nil ?_
    rw [if_pos hshort]
    exact Reads.pure _
  | dwarf64 =>
    refine (reads_number e (show 0xFFFFFFFF < 256 ^ 4 by decide)).bind ?_
    rw [if_neg (by decide), if_pos rfl]
    exact (reads_number e (show length < 256 ^ 8 from h)).bind_pure (Format.dwarf64, ·)

theorem reads_unitBytes (e : Endian) (format : Format) {unit : Bytes}
    (h : unit.length < format.lengthLimit) :
    (unitBytes e).Reads (Layout.initialLength format e unit.length ++ unit) (format, unit) :=
  (reads_initialLength e format h).bind ((reads_take unit).bind_pure (format, ·))

namespace Layout

variable (l : Layout)

/-- Headers before version four do not state the operations per instruction. -/
theorem reads_maximumOperations {β : Type} {next : UInt8 → Reader β} {bytes : Bytes} {b : β}
    (hnext : (next (if 4 ≤ l.version then l.maximumOperations else 1)).Reads bytes b) :
    (if 4 ≤ l.version then byte >>= next else pure 1 >>= next).Reads
      ((if 4 ≤ l.version then [l.maximumOperations] else []) ++ bytes) b := by
  by_cases h : 4 ≤ l.version
  · simp only [if_pos h] at hnext ⊢
    exact (reads_byte l.maximumOperations).bind hnext
  · simp only [if_neg h] at hnext ⊢
    exact hnext

theorem reads_operandCounts :
    (take (l.opcodeBase.toNat - 1)).Reads l.operandCounts l.operandCounts := by
  rw [← l.operandCounts_length]
  exact reads_take l.operandCounts

theorem reads_fields (offset : UInt64) :
    (Header.readFields offset l.format l.version).Reads l.fields (l.header offset) := by
  have hbase : l.lineBase.toUInt8.toInt8 = l.lineBase := Int8.toInt8_toUInt8 _
  refine (reads_byte l.minimumInstructionLength).bind ?_
  refine l.reads_maximumOperations ?_
  refine (reads_byte l.statementByte).bind ?_
  refine (reads_byte l.lineBase.toUInt8).bind ?_
  refine (reads_byte l.lineRange).bind ?_
  refine (reads_byte l.opcodeBase).bind ?_
  refine l.reads_operandCounts.bind ?_
  refine (reads_directories l.directories l.directories_named).bind ?_
  rw [hbase]
  exact (reads_files l.files l.files_named).bind_pure fun files =>
    { l.header offset with files := files }

/-- The length of the header fits its word, since that of the unit does. -/
theorem length_lt {l : Layout} {e : Endian} {code : Bytes}
    (hfit : (l.unit e code).length < l.format.lengthLimit) :
    (l.fields ++ l.padding).length < 256 ^ l.format.wordSize := by
  have hlimit : l.format.lengthLimit ≤ 256 ^ l.format.wordSize := by
    cases l.format <;> decide
  have hle : (l.fields ++ l.padding).length ≤ (l.unit e code).length := by
    simp only [unit, List.length_append]
    omega
  omega

end Layout

/-- A header is read back as it was written, and what remains of its unit is the
opcode stream. -/
theorem Header.read_layout (l : Layout) (e : Endian) (offset : UInt64) (code trailing : Bytes)
    (hfit : (l.unit e code).length < l.format.lengthLimit) :
    Header.read e offset (l.encode e code ++ trailing) = .ok (l.header offset, code) := by
  have hunit := (reads_unitBytes e l.format hfit).runLine trailing
  have hversion := (reads_u16 e l.version).runLine
    (e.encode l.format.wordSize (l.fields ++ l.padding).length ++ ((l.fields ++ l.padding) ++ code))
  have hsupported : ¬ (l.version < 2 ∨ 4 < l.version) := by
    rw [not_or, UInt16.not_lt, UInt16.not_lt]
    exact l.version_supported
  have hlength := (reads_number e (l.length_lt hfit)).runLine ((l.fields ++ l.padding) ++ code)
  have hregion := (reads_take (l.fields ++ l.padding)).runLine code
  have hfields := (l.reads_fields offset).runLine l.padding
  rw [Header.read, Layout.encode, hunit]
  simp only [bind, Except.bind]
  rw [Layout.unit, hversion]
  simp only [if_neg hsupported, pure, Except.pure]
  rw [word, hlength]
  simp only
  rw [hregion]
  simp only
  rw [hfields]

/-- A long header of version four with names in both tables and padding. -/
def sampleLayout : Layout where
  format := .dwarf64
  version := 4
  minimumInstructionLength := 4
  maximumOperations := 2
  statementByte := 255
  lineBase := -3
  lineRange := 12
  opcodeBase := 3
  operandCounts := [0, 1]
  directories := ["inc", "src/λ"]
  files := [⟨"main.c", 2, 300, 0xFFFFFFFFFFFFFFFF⟩]
  padding := [0, 1, 2]
  version_supported := by decide
  operandCounts_length := rfl
  directories_named := by simp [IsName]
  files_named := by simp [IsName]

theorem Header.read_layout_sample :
    (sampleLayout.unit .big [1, 0, 1, 1]).length < Format.lengthLimit .dwarf64 ∧
      Header.read .big 7 (sampleLayout.encode .big [1, 0, 1, 1] ++ [0xFF]) =
        .ok (sampleLayout.header 7, [1, 0, 1, 1]) := by
  have hfit : (sampleLayout.unit .big [1, 0, 1, 1]).length < Format.lengthLimit .dwarf64 := by cbv
  exact ⟨hfit, Header.read_layout sampleLayout .big 7 [1, 0, 1, 1] [0xFF] hfit⟩

end LineTable
