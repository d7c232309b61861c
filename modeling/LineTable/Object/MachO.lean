/-
Sections of Mach-O files.

Sections are listed in the segment commands.  Reading stops quietly at a command
whose size is wrong, but a segment or a symbol table that does not fit its command
is refused.
-/
import LineTable.Object.Section

namespace LineTable
namespace MachO

structure Layout where
  endian : Endian
  wide : Bool
deriving DecidableEq, Repr

namespace Layout

def word (l : Layout) : Reader Nat := Reader.number l.endian 4

def extent (l : Layout) : Reader Nat := Reader.number l.endian (if l.wide then 8 else 4)

def headerSize (l : Layout) : Nat := if l.wide then 32 else 28

def symbolSize (l : Layout) : Nat := if l.wide then 16 else 12

def segmentCommand (l : Layout) : Nat := if l.wide then 0x19 else 1

end Layout

/-- The number of load commands and the size of their table. -/
def readHeader (l : Layout) : Reader (Nat × Nat) := do
  let _ ← Reader.take 16
  let count ← l.word
  let size ← l.word
  let _ ← Reader.take (l.headerSize - 24)
  return (count, size)

/-- A segment command: the number of its sections, which follow it. -/
def readSegment (l : Layout) : Reader Nat := do
  let _ ← Reader.take 24
  let _ ← l.extent
  let _ ← l.extent
  let _ ← l.extent
  let _ ← l.extent
  let _ ← Reader.take 8
  let count ← l.word
  let _ ← l.word
  return count

/-- Sections of these kinds are filled with zeros and have no contents. -/
def zeroFilled : List Nat := [0x1, 0xC, 0x12]

/-- Contents at a place in the file, behind the older mark of compression if the name
announces it. -/
def contentsOf (file name : Bytes) (flags offset size : Nat) : Except ObjectError Packed :=
  let hasContents := !zeroFilled.contains (flags % 256)
  if (Bytes.ofAscii "__zdebug_").isPrefixOf name then
    if hasContents then Packed.marked file offset size
    else .error (.contents .nothingMarked)
  else if hasContents then Packed.atPlace file .plain size offset size
  else .ok (Packed.plain [])

def readSection (l : Layout) (file : Bytes) : Reader Section := do
  let name ← Reader.take 16
  let _ ← Reader.take 16
  let _ ← l.extent
  let size ← l.extent
  let offset ← l.word
  let _ ← l.word
  let _ ← l.word
  let _ ← l.word
  let flags ← l.word
  let _ ← Reader.take (if l.wide then 12 else 8)
  let name := Section.nameInField name
  return ⟨some name, contentsOf file name flags offset size⟩

/-- A symbol command: where the symbols lie. -/
def readSymbols (l : Layout) : Reader (Nat × Nat) := do
  let _ ← Reader.take 8
  let offset ← l.word
  let count ← l.word
  let _ ← l.word
  let _ ← l.word
  return (offset, count)

/-- The sections that a command lists. -/
def commandSections (l : Layout) (file : Bytes) (kind : Nat) (command : Bytes) :
    Except MachOFault (List Section) :=
  if kind = l.segmentCommand then
    match (readSegment l).run command with
    | .error _ => .error .command
    | .ok (count, rest) =>
      match (Reader.times (readSection l file) count).run rest with
      | .error _ => .error .sectionCount
      | .ok (found, _) => .ok found
  else if kind = 2 then
    match (readSymbols l).run command with
    | .error _ => .error .command
    | .ok ((offset, count), _) =>
      if offset + count * l.symbolSize ≤ file.length then .ok [] else .error .symbolTable
  else .ok []

/-- A command begins with its kind and its size, which covers the eight bytes of both. -/
def readCommand (l : Layout) : Reader (Nat × Nat) := do
  let kind ← l.word
  let size ← l.word
  return (kind, size)

/-- The sections that `count` commands list, as far as the commands go. -/
def commandList (l : Layout) (file : Bytes) : Nat → Bytes → Except MachOFault (List Section)
  | 0, _ => .ok []
  | count + 1, table =>
    match (readCommand l).run table with
    | .error _ => .ok []
    | .ok ((kind, size), _) =>
      if size < 8 then .ok []
      else
        match (Reader.take size).run table with
        | .error _ => .ok []
        | .ok (command, rest) => do
          let found ← commandSections l file kind command
          return found ++ (← commandList l file count rest)

def sections (l : Layout) (file : Bytes) : Except MachOFault (List Section) :=
  match (readHeader l).run file with
  | .error _ => .error .header
  | .ok ((count, size), rest) =>
    match (Reader.take size).run rest with
    | .error _ => .ok []
    | .ok (table, _) => commandList l file count table

end MachO
end LineTable
