/-
Sections of PE files.

A header for an older system stands in front and says where the file begins.  There a
signature is followed by a COFF header and by an optional header of one of two widths,
which a list of directories fills up, and behind these comes the section table.  The
symbol table is not needed: where it is damaged, only the names that are kept behind
it cannot be read.
-/
import LineTable.Object.Coff

namespace LineTable
namespace Pe

/-- What tells the wide optional header from the narrow one. -/
def optionalMagic (wide : Bool) : Nat := if wide then 0x20B else 0x10B

/-- The size of the optional header without the directories. -/
def optionalSize (wide : Bool) : Nat := if wide then 112 else 96

structure Headers where
  signature : Nat
  coff : Coff.Header
  magic : Nat
  directoryCount : Nat
deriving Repr

/-- The headers from the signature up to the directories, the number of which comes last. -/
def Headers.read (wide : Bool) : Reader Headers := do
  let signature ← Coff.word
  let coff ← Coff.Header.read
  let magic ← Coff.half
  let _ ← Reader.take (optionalSize wide - 6)
  let directoryCount ← Coff.word
  return { signature, coff, magic, directoryCount }

/-- The place of the signature. -/
def signatureOffset (file : Bytes) : Except PeFault Nat :=
  match file.slice? 0 64 with
  | none => .error .oldHeader
  | some old =>
    if (Bytes.ofAscii "MZ").isPrefixOf old then .ok (Endian.little.decode (old.drop 60))
    else .error .oldMagic

/-- The place of the signature and the headers that it begins. -/
def headers (wide : Bool) (file : Bytes) : Except PeFault (Nat × Headers) := do
  let offset ← signatureOffset file
  match (Headers.read wide).run (file.drop offset) with
  | .error _ => throw .headers
  | .ok (h, _) =>
    -- `PE` and two zero bytes
    if h.signature = 0x4550 then return (offset, h) else throw .magic

/-- Whether the optional header is the wide one, if it is either.  What decides it lies
in the part that both have. -/
def isWide? (file : Bytes) : Option Bool :=
  match headers false file with
  | .error _ => none
  | .ok (_, h) =>
    if h.magic = optionalMagic false then some false
    else if h.magic = optionalMagic true then some true
    else none

/-- The contents of a section: what the file holds of it, and no more than it has in memory. -/
def contentsOf (file : Bytes) (s : Coff.SectionEntry) : Except ObjectError Packed :=
  Packed.plainAt file (.pe .contents) s.offset (min s.virtualSize s.size)

/-- The place of the section table, which comes behind the directories. -/
def tableOffset (wide : Bool) (file : Bytes) (offset : Nat) (h : Headers) : Except PeFault Nat :=
  let fixed := offset + 24 + optionalSize wide
  -- The COFF header counts from its own place, behind the signature.
  let table := offset + 4 + h.coff.sectionOffset
  if h.magic ≠ optionalMagic wide then .error .optionalMagic
  else if table < fixed then .error .optionalShort
  else if file.length < table then .error .optionalHeader
  else if table - fixed < 8 * h.directoryCount then .error .directories
  else .ok table

def sections (wide : Bool) (file : Bytes) : Except PeFault (List Section) := do
  let (offset, h) ← headers wide file
  let table ← tableOffset wide file offset h
  match Coff.sectionEntries? file table h.coff.sectionCount with
  | none => throw .sectionTable
  | some entries =>
    let strings := (Coff.stringTable h.coff file).toOption.join
    return entries.map fun s => ⟨Coff.nameOf file strings s.name, contentsOf file s⟩

end Pe
end LineTable
