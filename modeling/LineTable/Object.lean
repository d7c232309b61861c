/-
Object files: what they are and how their sections are found.

The first bytes of a file tell its format.  ELF, Mach-O, COFF, PE and XCOFF files are
read; archives and a few other formats are only told apart.  A section is asked for by
its ELF name, and each format has its own way of spelling that name.  Relocations are
not applied to what a section holds.
-/
import LineTable.Object.Coff
import LineTable.Object.Elf
import LineTable.Object.MachO
import LineTable.Object.Pe
import LineTable.Object.Xcoff

namespace LineTable

/-- What the first bytes of a file announce. -/
inductive FileKind where
  | elf (wide : Bool)
  | machO (layout : MachO.Layout)
  | coff (long : Bool)
  | pe (wide : Bool)
  | xcoff (wide : Bool)
  /-- A format that is known but not read. -/
  | other
deriving DecidableEq, Repr

namespace FileKind

/-- What the long header of a COFF file has behind its first twelve bytes. -/
def longHeaderMark : Bytes :=
  [0xC7, 0xA1, 0xBA, 0xD1, 0xEE, 0xBA, 0xA9, 0x4B, 0xAF, 0x20, 0xFA, 0xF6, 0x6A, 0xA4, 0xDC, 0xB8]

/-- Whether a file has a long header that is complete up to the mark's size field. -/
def hasLongHeader (file : Bytes) : Bool :=
  32 ≤ file.length && longHeaderMark.isPrefixOf (file.drop 12)

/-- The kind of a file, which must have 16 bytes at least. -/
def ofFile (file : Bytes) : Except ObjectError FileKind :=
  if file.length < 16 then .error .noMagic
  else if (Bytes.ofAscii "!<arch>\n").isPrefixOf file then .ok other
  else if (Bytes.ofAscii "!<thin>\n").isPrefixOf file then .ok other
  else if (Bytes.ofAscii "dyld_v1 ").isPrefixOf file then .ok other
  else
    match file with
    | 0x7F :: 0x45 :: 0x4C :: 0x46 :: 1 :: _ => .ok (elf false)
    | 0x7F :: 0x45 :: 0x4C :: 0x46 :: 2 :: _ => .ok (elf true)
    | 0xFE :: 0xED :: 0xFA :: 0xCE :: _ => .ok (machO ⟨.big, false⟩)
    | 0xCE :: 0xFA :: 0xED :: 0xFE :: _ => .ok (machO ⟨.little, false⟩)
    | 0xFE :: 0xED :: 0xFA :: 0xCF :: _ => .ok (machO ⟨.big, true⟩)
    | 0xCF :: 0xFA :: 0xED :: 0xFE :: _ => .ok (machO ⟨.little, true⟩)
    | 0xCA :: 0xFE :: 0xBA :: 0xBE :: _ => .ok other
    | 0xCA :: 0xFE :: 0xBA :: 0xBF :: _ => .ok other
    | 0x4D :: 0x5A :: _ =>
      match Pe.isWide? file with
      | some wide => .ok (pe wide)
      | none => .error .unknownExecutable
    | 0xC4 :: 0x01 :: _ => .ok (coff false)
    | 0x64 :: 0xAA :: _ => .ok (coff false)
    | 0x41 :: 0xA6 :: _ => .ok (coff false)
    | 0x4C :: 0x01 :: _ => .ok (coff false)
    | 0x64 :: 0x86 :: _ => .ok (coff false)
    | 0x00 :: 0x00 :: 0xFF :: 0xFF :: 0x00 :: 0x00 :: _ => .ok other
    | 0x00 :: 0x00 :: 0xFF :: 0xFF :: 0x02 :: 0x00 :: _ =>
      if hasLongHeader file then .ok (coff true) else .error .unknownAnonymous
    | 0x01 :: 0xDF :: _ => .ok (xcoff false)
    | 0x01 :: 0xF7 :: _ => .ok (xcoff true)
    | _ => .error .unknownMagic

end FileKind

/-- How a format spells the names of sections. -/
inductive Spelling where
  | elf
  | machO
  | coff
deriving DecidableEq, Repr

namespace Spelling

/-- A name behind `lead`, spelled with `spelled` in its place and cut to 16 bytes. -/
def machOName (lead spelled : String) (wanted name : Bytes) : Bool :=
  (Bytes.ofAscii lead).isPrefixOf wanted &&
    let tail := (wanted.drop lead.length).take (16 - spelled.length)
    !tail.isEmpty && name = Bytes.ofAscii spelled ++ tail

/-- The tests for a wanted name, in the order in which they are tried on a file. -/
def tests (wanted : Bytes) : Spelling → List (Bytes → Bool)
  | elf =>
    let debug := Bytes.ofAscii ".debug_"
    let exact := fun name => name = wanted
    if debug.isPrefixOf wanted then
      [exact, fun name => name = Bytes.ofAscii ".zdebug_" ++ wanted.drop debug.length]
    else [exact]
  | machO => [fun name =>
      name = wanted || machOName "." "__" wanted name || machOName ".debug_" "__zdebug_" wanted name]
  | coff => [fun name => name = wanted]

end Spelling

structure Object where
  endian : Endian
  spelling : Spelling
  sections : List Section

namespace Object

/-- The object that a file holds. -/
def ofFile (file : Bytes) : Except ObjectError Object := do
  match ← FileKind.ofFile file with
  | .elf wide =>
    let (endian, sections) ← (Elf.sections wide file).mapError .elf
    return ⟨endian, .elf, sections⟩
  | .machO layout =>
    return ⟨layout.endian, .machO, ← (MachO.sections layout file).mapError .machO⟩
  | .coff long => return ⟨.little, .coff, ← (Coff.sections long file).mapError .coff⟩
  | .pe wide => return ⟨.little, .coff, ← (Pe.sections wide file).mapError .pe⟩
  | .xcoff wide =>
    (Xcoff.check wide file).mapError .xcoff
    return ⟨.big, .coff, []⟩
  | .other => throw .unsupportedFormat

def section? (o : Object) (name : String) : Option Section :=
  (o.spelling.tests (Bytes.ofAscii name)).findSome? fun accepts =>
    o.sections.find? (·.isNamed accepts)

/-- The contents of a section, for which `memory` bytes are to be had at once.  A missing
section is empty. -/
def contents (memory : Nat) (o : Object) (name : String) : Except ObjectError Bytes :=
  match o.section? name with
  | none => .ok []
  | some s => s.contents >>= Packed.unpack memory

end Object
end LineTable
