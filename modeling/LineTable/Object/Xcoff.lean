/-
Checks of XCOFF files.

Numbers are stored highest byte first, in a narrow and a wide layout.  Names of
sections have eight bytes at most, so no section has the name of one that holds debug
information, and only the tables of a file are checked.
-/
import LineTable.Object.Error
import LineTable.Reader

namespace LineTable
namespace Xcoff

structure Header where
  sectionCount : Nat
  symbolOffset : Nat
  symbolCount : Nat
  /-- The size of the program header, which comes before the sections. -/
  programSize : Nat
  flags : Nat
deriving Repr

def half : Reader Nat := Reader.number .big 2

def word : Reader Nat := Reader.number .big 4

def headerSize (wide : Bool) : Nat := if wide then 24 else 20

/-- The size of a program header that has all of its fields. -/
def fullProgramSize (wide : Bool) : Nat := if wide then 120 else 72

def sectionEntrySize (wide : Bool) : Nat := if wide then 72 else 40

def symbolSize : Nat := 18

def Header.read (wide : Bool) : Reader Header := do
  let _ ← half
  let sectionCount ← half
  let _ ← word
  if wide then
    let symbolOffset ← Reader.number .big 8
    let programSize ← half
    let flags ← half
    let symbolCount ← word
    return { sectionCount, symbolOffset, symbolCount, programSize, flags }
  else
    let symbolOffset ← word
    let symbolCount ← word
    let programSize ← half
    let flags ← half
    return { sectionCount, symbolOffset, symbolCount, programSize, flags }

def Header.isProgram (h : Header) : Bool := h.flags.testBit 1

/-- Fails unless `size` bytes from `start` lie in the file. -/
def needBytes (file : Bytes) (start size : Nat) (fault : XcoffFault) : Except XcoffFault Unit :=
  if (file.slice? start size).isSome then .ok () else .error fault

/-- Checks the tables of a file.  The string table follows the symbols and begins with
its size. -/
def check (wide : Bool) (file : Bytes) : Except XcoffFault Unit :=
  match (Header.read wide).run file with
  | .error _ => .error .header
  | .ok (h, _) => do
    if h.isProgram && h.programSize = fullProgramSize wide then
      needBytes file (headerSize wide) h.programSize .programHeader
    if 0 < h.sectionCount then
      needBytes file (headerSize wide + h.programSize) (sectionEntrySize wide * h.sectionCount)
        .sectionTable
    if 0 < h.symbolOffset then
      needBytes file h.symbolOffset (symbolSize * h.symbolCount) .symbolTable
      needBytes file (h.symbolOffset + symbolSize * h.symbolCount) 4 .stringTable

end Xcoff
end LineTable
