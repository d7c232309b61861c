/-
Data in Zstandard frames.

A frame is a header, blocks and perhaps a checksum.  Several frames may follow each other,
and some of them only hold data that is skipped.  What a frame states about its window,
its size and its checksum is read over, and so decides nothing.
-/
import LineTable.Zstandard.Block

namespace LineTable
namespace Zstandard

/-- Blocks up to the one that is marked as the last. -/
def blocks : Nat → Progress → ByteReader (Array UInt8)
  | 0, _ => failure
  | left + 1, p => do
    let header ← number 3
    if 0x20000 < header / 8 then failure
    else
      let p ← p.block (header / 8) (header / 2 % 4)
      if header % 2 = 1 then return p.output else blocks left p

/-- The header of a frame, without its mark.  It says whether a checksum follows the blocks.
A frame that needs a dictionary cannot be read. -/
def header : ByteReader Bool := do
  let descriptor ← number 1
  let single := descriptor.testBit 5
  let _ ← take (if single then 0 else 1)
  let dictionary ← number (#[0, 1, 2, 4].getD (descriptor % 4) 0)
  let _ ← take (#[if single then 1 else 0, 2, 4, 8].getD (descriptor / 64) 0)
  if dictionary = 0 then return descriptor.testBit 2 else failure

/-- A frame behind its mark.  Every block has a header, so there are no more blocks than
bytes. -/
def framed : ByteReader (Array UInt8) := do
  let checked ← header
  let output ← blocks (← get).length .start
  let _ ← take (if checked then 4 else 0)
  return output

/-- A frame, or data that is skipped. -/
def frame : ByteReader (Array UInt8) := do
  let mark ← number 4
  if mark / 16 = 0x184D2A5 then
    let _ ← take (← number 4)
    return #[]
  else if mark = 0xFD2FB528 then framed
  else failure

/-- Frames up to the end. -/
def frames : Nat → Array UInt8 → Bytes → Option (Array UInt8)
  | _, output, [] => some output
  | 0, _, _ => none
  | left + 1, output, input => do
    let (more, rest) ← frame input
    frames left (output ++ more) rest

/-- The data of all frames, none of which is empty. -/
def decompress (data : Bytes) : Option (Array UInt8) := frames data.length #[] data

end Zstandard
end LineTable
