/-
Sections of ELF files.

Both classes and both byte orders are read.  Segments, symbols and relocations
are not used, but a file in which their tables are damaged is refused.
-/
import LineTable.Object.Section

namespace LineTable
namespace Elf

structure Layout where
  endian : Endian
  /-- Whether addresses and offsets take eight bytes. -/
  wide : Bool
deriving DecidableEq, Repr

namespace Layout

def half (l : Layout) : Reader Nat := Reader.number l.endian 2

def word (l : Layout) : Reader Nat := Reader.number l.endian 4

def extent (l : Layout) : Reader Nat := Reader.number l.endian (if l.wide then 8 else 4)

def headerSize (l : Layout) : Nat := if l.wide then 64 else 52

def programEntrySize (l : Layout) : Nat := if l.wide then 56 else 32

def sectionEntrySize (l : Layout) : Nat := if l.wide then 64 else 40

def symbolSize (l : Layout) : Nat := if l.wide then 24 else 16

end Layout

structure Header where
  programOffset : Nat
  sectionOffset : Nat
  programEntrySize : Nat
  programCount : Nat
  sectionEntrySize : Nat
  sectionCount : Nat
  nameIndex : Nat
deriving Repr

/-- The header of a file after its identification. -/
def Header.read (l : Layout) : Reader Header := do
  let _ ← l.half
  let _ ← l.half
  let _ ← l.word
  let _ ← l.extent
  let programOffset ← l.extent
  let sectionOffset ← l.extent
  let _ ← l.word
  let _ ← l.half
  let programEntrySize ← l.half
  let programCount ← l.half
  let sectionEntrySize ← l.half
  let sectionCount ← l.half
  let nameIndex ← l.half
  return { programOffset, sectionOffset, programEntrySize, programCount, sectionEntrySize,
           sectionCount, nameIndex }

structure SectionEntry where
  name : Nat
  kind : Nat
  flags : Nat
  offset : Nat
  size : Nat
  link : Nat
  info : Nat
deriving Repr

namespace SectionEntry

def symbols : Nat := 2
def strings : Nat := 3
def addedRelocations : Nat := 4
def noContents : Nat := 8
def relocations : Nat := 9
def dynamicSymbols : Nat := 11
def symbolIndices : Nat := 18

def read (l : Layout) : Reader SectionEntry := do
  let name ← l.word
  let kind ← l.word
  let flags ← l.extent
  let _ ← l.extent
  let offset ← l.extent
  let size ← l.extent
  let link ← l.word
  let info ← l.word
  let _ ← l.extent
  let _ ← l.extent
  return { name, kind, flags, offset, size, link, info }

/-- Where the contents lie, for sections that have any. -/
def place? (s : SectionEntry) : Option (Nat × Nat) :=
  if s.kind = noContents then none else some (s.offset, s.size)

def isCompressed (s : SectionEntry) : Bool := s.flags.testBit 11

def holdsRelocations (s : SectionEntry) : Bool :=
  s.kind = relocations || s.kind = addedRelocations

/-- Whether the contents lie in the file and are a whole number of items. -/
def isTable (s : SectionEntry) (file : Bytes) (itemSize : Nat) : Bool :=
  s.offset + s.size ≤ file.length && s.size % itemSize = 0

end SectionEntry

def ensure (condition : Bool) (fault : ElfFault) : Except ElfFault Unit :=
  if condition then .ok () else .error fault

/-- The first section, which holds the counts that do not fit the header. -/
def firstSection? (l : Layout) (h : Header) (file : Bytes) :
    Except ElfFault (Option SectionEntry) := do
  if h.sectionOffset = 0 then return none
  ensure (h.sectionEntrySize = l.sectionEntrySize) .sectionEntrySize
  match file.slice? h.sectionOffset l.sectionEntrySize with
  | none => throw .firstSection
  | some bytes =>
    match (SectionEntry.read l).run bytes with
    | .ok (entry, _) => return some entry
    | .error _ => throw .firstSection

def checkPrograms (l : Layout) (h : Header) (file : Bytes) : Except ElfFault Unit := do
  if h.programOffset = 0 then return
  let count ←
    if h.programCount < 0xFFFF then pure h.programCount
    else
      match ← firstSection? l h file with
      | some first => pure first.info
      | none => throw .programCount
  if count = 0 then return
  ensure (h.programEntrySize = l.programEntrySize) .programEntrySize
  ensure (h.programOffset + count * l.programEntrySize ≤ file.length) .programTable

def sectionEntries (l : Layout) (h : Header) (file : Bytes) :
    Except ElfFault (List SectionEntry) := do
  if h.sectionOffset = 0 then return []
  let count ←
    if 0 < h.sectionCount then pure h.sectionCount
    else
      match ← firstSection? l h file with
      | some first => pure first.size
      | none => pure 0
  if count = 0 then return []
  ensure (h.sectionEntrySize = l.sectionEntrySize) .sectionEntrySize
  match file.slice? h.sectionOffset (count * l.sectionEntrySize) with
  | none => throw .sectionTable
  | some bytes =>
    match (Reader.times (SectionEntry.read l) count).run bytes with
    | .ok (entries, _) => return entries
    | .error _ => throw .sectionTable

/-- Where the names of the sections lie. -/
def nameTable (l : Layout) (h : Header) (file : Bytes) (entries : List SectionEntry) :
    Except ElfFault (Option (Nat × Nat)) := do
  if entries.isEmpty then return none
  let index ←
    if h.nameIndex ≠ 0xFFFF then pure h.nameIndex
    else
      match ← firstSection? l h file with
      | some first => pure first.link
      | none => throw .nameIndexCount
  if index = 0 then throw .nameIndexMissing
  match entries[index]? with
  | none => throw .nameIndex
  | some names =>
    match names.place? with
    | none => return none
    | some (offset, size) =>
      ensure (offset + size < UInt64.size) .nameTableSize
      return some (offset, offset + size)

/-- Checks the symbol table of a kind and gives its index, zero if there is none. -/
def checkSymbols (l : Layout) (file : Bytes) (entries : List SectionEntry) (kind : Nat) :
    Except ElfFault Nat := do
  match entries.zipIdx.find? (·.1.kind = kind) with
  | none => return 0
  | some (table, index) =>
    ensure (table.isTable file l.symbolSize) .symbolTable
    if table.link ≠ 0 then
      match entries[table.link]? with
      | none => throw .sectionIndex
      | some strings =>
        ensure (strings.kind = SectionEntry.strings) .stringSectionType
        ensure (strings.offset + strings.size < UInt64.size) .stringSection
    let indices := entries.filter fun s => s.kind = SectionEntry.symbolIndices && s.link = index
    ensure (indices.all (·.isTable file 4)) .symbolIndexTable
    return index

/-- Relocations that name a section must name one of the file, which must not hold
relocations itself. -/
def checkTarget (entries : List SectionEntry) (s : SectionEntry) : Except ElfFault Unit :=
  if s.info = 0 then .ok ()
  else
    match entries[s.info]? with
    | none => .error .relocationTarget
    | some target => ensure (!target.holdsRelocations) .relocationNested

/-- Checks the relocations that go with a symbol table, the last section first. -/
def checkRelocations (entries : List SectionEntry) (symbols : Nat) : Except ElfFault Unit :=
  (entries.filter fun s => s.holdsRelocations && s.link = symbols).reverse.forM
    (checkTarget entries)

def nameOf (file : Bytes) (names : Option (Nat × Nat)) (s : SectionEntry) : Option Bytes :=
  names.bind fun (first, last) => Section.stringBetween file (first + s.name) last

/-- The contents of a section.  The older mark is looked for in the sections that its
name announces it in. -/
def contentsOf (l : Layout) (file : Bytes) (name : Option Bytes) (s : SectionEntry) :
    Except ObjectError Packed :=
  if s.isCompressed then
    match s.place? with
    | none => .error (.contents .nothingCompressed)
    | some (offset, size) => Packed.headed file l.endian l.wide offset size
  else if name.any (Bytes.ofAscii ".zdebug_").isPrefixOf then
    match s.place? with
    | none => .error (.contents .nothingMarked)
    | some (offset, size) => Packed.marked file offset size
  else
    match s.place? with
    | none => .ok (Packed.plain [])
    | some (offset, size) => Packed.atPlace file .plain size offset size

/-- The layout that a file's identification states. -/
def layout (wide : Bool) (file : Bytes) : Except ElfFault Layout := do
  ensure ((⟨.little, wide⟩ : Layout).headerSize ≤ file.length) .header
  match file.drop 5 with
  | 1 :: 1 :: _ => return ⟨.little, wide⟩
  | 2 :: 1 :: _ => return ⟨.big, wide⟩
  | _ => throw .unsupported

/-- The byte order and the sections of a file. -/
def sections (wide : Bool) (file : Bytes) : Except ElfFault (Endian × List Section) := do
  let l ← layout wide file
  match (Header.read l).run (file.drop 16) with
  | .error _ => throw .header
  | .ok (h, _) =>
    checkPrograms l h file
    let entries ← sectionEntries l h file
    let names ← nameTable l h file entries
    let symbols ← checkSymbols l file entries SectionEntry.symbols
    let _ ← checkSymbols l file entries SectionEntry.dynamicSymbols
    checkRelocations entries symbols
    return (l.endian, entries.map fun s =>
      let name := nameOf file names s
      ⟨name, contentsOf l file name s⟩)

end Elf
end LineTable
