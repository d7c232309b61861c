/-
Sections of COFF files.

A file has a short header, or a long one that leaves room for more sections.
Numbers are stored lowest byte first.  A name that does not fit its field is a
place in the string table, written behind a slash in decimal or behind two
slashes in 64 digits.
-/
import LineTable.Object.Section

namespace LineTable
namespace Coff

def half : Reader Nat := Reader.number .little 2

def word : Reader Nat := Reader.number .little 4

structure Header where
  sectionCount : Nat
  symbolOffset : Nat
  symbolCount : Nat
  symbolSize : Nat
  /-- Where the section table begins. -/
  sectionOffset : Nat
deriving Repr

def Header.read : Reader Header := do
  let _ ← half
  let sectionCount ← half
  let _ ← word
  let symbolOffset ← word
  let symbolCount ← word
  let optionalSize ← half
  let _ ← half
  return { sectionCount, symbolOffset, symbolCount, symbolSize := 18,
           sectionOffset := 20 + optionalSize }

/-- The long header, of which the first 44 bytes identify the file. -/
def Header.readLong : Reader Header := do
  let _ ← Reader.take 44
  let sectionCount ← word
  let symbolOffset ← word
  let symbolCount ← word
  return { sectionCount, symbolOffset, symbolCount, symbolSize := 20, sectionOffset := 56 }

/-- Where the string table lies: it follows the symbols and states its size. -/
def stringTable (h : Header) (file : Bytes) : Except CoffFault (Option (Nat × Nat)) :=
  if h.symbolOffset = 0 then .ok none
  else
    let first := h.symbolOffset + h.symbolSize * h.symbolCount
    if file.length < first then .error .symbolTable
    else
      match file.slice? first 4 with
      | none => .error .stringTable
      | some size => .ok (some (first, first + Endian.little.decode size))

/-- A number in decimal that a zero byte may end. -/
def decimalOffset (value : Nat) : Bytes → Option Nat
  | [] => some value
  | b :: rest =>
    if b = 0 then some value
    else if 48 ≤ b ∧ b ≤ 57 then decimalOffset (value * 10 + (b.toNat - 48)) rest
    else none

/-- The value of one of 64 digits. -/
def digit64? (b : UInt8) : Option Nat :=
  if 65 ≤ b ∧ b ≤ 90 then some (b.toNat - 65)
  else if 97 ≤ b ∧ b ≤ 122 then some (b.toNat - 97 + 26)
  else if 48 ≤ b ∧ b ≤ 57 then some (b.toNat - 48 + 52)
  else if b = 43 then some 62
  else if b = 47 then some 63
  else none

/-- A number in 64 digits, which must fit four bytes. -/
def offset64? (digits : Bytes) : Option Nat := do
  let values ← digits.mapM digit64?
  let value := values.foldl (fun value digit => value * 64 + digit) 0
  if value < UInt32.size then some value else none

def nameOf (file : Bytes) (strings : Option (Nat × Nat)) (field : Bytes) : Option Bytes :=
  let atOffset (offset : Option Nat) := do
    let (first, last) ← strings
    Section.stringBetween file (first + (← offset)) last
  match field with
  | 47 :: 47 :: digits => atOffset (offset64? digits)
  | 47 :: digits => atOffset (decimalOffset 0 digits)
  | _ => some (Section.nameInField field)

/-- An entry of the section table. -/
structure SectionEntry where
  name : Bytes
  /-- The size that the section has in memory. -/
  virtualSize : Nat
  size : Nat
  offset : Nat
  flags : Nat
deriving Repr

def SectionEntry.read : Reader SectionEntry := do
  let name ← Reader.take 8
  let virtualSize ← word
  let _ ← word
  let size ← word
  let offset ← word
  let _ ← Reader.take 12
  let flags ← word
  return { name, virtualSize, size, offset, flags }

/-- The section table at a place, if it lies in the file. -/
def sectionEntries? (file : Bytes) (offset count : Nat) : Option (List SectionEntry) := do
  let table ← file.slice? offset (40 * count)
  let (entries, _) ← ((Reader.times SectionEntry.read count).run table).toOption
  return entries

/-- The contents of a section, which has none if a flag says so. -/
def contentsOf (file : Bytes) (s : SectionEntry) : Except ObjectError Packed :=
  if s.flags.testBit 7 then .ok (Packed.plain [])
  else Packed.plainAt file (.coff .contents) s.offset s.size

def header (long : Bool) (file : Bytes) : Except CoffFault Header :=
  match (if long then Header.readLong else Header.read).run file with
  | .error _ => .error (if long then .longHeader else .header)
  | .ok (h, _) => .ok h

def sections (long : Bool) (file : Bytes) : Except CoffFault (List Section) := do
  let h ← header long file
  match sectionEntries? file h.sectionOffset h.sectionCount with
  | none => throw .sectionTable
  | some entries =>
    let strings ← stringTable h file
    return entries.map fun s => ⟨nameOf file strings s.name, contentsOf file s⟩

end Coff
end LineTable
