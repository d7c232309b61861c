/-
Sections of object files.

A section has a name, unless the name cannot be read, and contents that may be
compressed, as zlib data or in Zstandard frames.  Two notations for compressed
contents exist: a header that states the kind and the size, and an older mark, for
zlib data only, that is followed by the size.
-/
import LineTable.Object.Error
import LineTable.Reader
import LineTable.Zlib
import LineTable.Zstandard

namespace LineTable

inductive Coding where
  | plain
  | zlib
  | zstandard
deriving DecidableEq, Repr

structure Packed where
  coding : Coding
  /-- The size that compressed contents are said to have. -/
  size : Nat
  data : Bytes
deriving Repr

namespace Packed

/-- Contents that are not compressed. -/
def plain (data : Bytes) : Packed := ⟨.plain, data.length, data⟩

/-- The largest number of bytes that a vector can hold: positions in it are signed words. -/
def vectorLimit : Nat := 0x7FFFFFFFFFFFFFFF

/-- Decompressed data must have the size it is said to have. -/
def checkSize (size : Nat) (output : Bytes) : Except ObjectError Bytes :=
  if output.length = size then .ok output else .error (.contents .size)

/-- Decompresses contents.  The space that they are said to need is asked for first, and no
more than `memory` bytes are to be had at once. -/
def unpack (memory : Nat) (p : Packed) : Except ObjectError Bytes :=
  match p.coding with
  | .plain => .ok p.data
  | .zlib =>
    if min memory vectorLimit < p.size then .error (.contents .allocation)
    else
      match Zlib.decompress p.size p.data with
      | some output => checkSize p.size output.toList
      | none => .error (.contents .zlib)
  | .zstandard =>
    if min memory vectorLimit < p.size then .error (.contents .allocation)
    else
      match Zstandard.decompress p.data with
      | some output => checkSize p.size output.toList
      | none => .error (.contents .zstandard)

/-- The kinds of compression that a header can state. -/
def codingOfType : Nat → Except ObjectError Coding
  | 1 => .ok .zlib
  | 2 => .ok .zstandard
  | _ => .error (.contents .compressionType)

/-- A compression header: the kind, padding if numbers are wide, the size and the
alignment. -/
def readHeader (e : Endian) (wide : Bool) : Reader (Nat × Nat) := do
  let kind ← Reader.number e 4
  if wide then
    let _ ← Reader.take 4
    let size ← Reader.number e 8
    let _ ← Reader.take 8
    return (kind, size)
  else
    let size ← Reader.number e 4
    let _ ← Reader.take 4
    return (kind, size)

/-- Contents that stand at a place in a file as they are. -/
def plainAt (file : Bytes) (fault : ObjectError) (start size : Nat) : Except ObjectError Packed :=
  match file.slice? start size with
  | some data => .ok (plain data)
  | none => .error fault

/-- The contents at a place in a file. -/
def atPlace (file : Bytes) (coding : Coding) (declared start size : Nat) :
    Except ObjectError Packed :=
  match file.slice? start size with
  | some data => .ok ⟨coding, declared, data⟩
  | none => .error (.contents .outside)

/-- Contents behind a compression header.  The header need only lie in the file, but
the contents must be large enough to hold it. -/
def headed (file : Bytes) (e : Endian) (wide : Bool) (start size : Nat) :
    Except ObjectError Packed :=
  let length := if wide then 24 else 12
  match (readHeader e wide).run (file.drop start) with
  | .error _ => .error (.contents .headerOutside)
  | .ok ((kind, declared), _) =>
    if size < length then .error (.contents .headerSize)
    else do
      let coding ← codingOfType kind
      atPlace file coding declared (start + length) (size - length)

/-- Contents behind the older mark and a size of eight bytes, highest first, of which
the mark takes the upper four. -/
def marked (file : Bytes) (start size : Nat) : Except ObjectError Packed :=
  match file.slice? start 8 with
  | none => .error (.contents .markShort)
  | some mark =>
    if mark != Bytes.ofAscii "ZLIB" ++ [0, 0, 0, 0] then .error (.contents .mark)
    else
      match file.slice? (start + 8) 4 with
      | none => .error (.contents .markShort)
      | some declared =>
        if size < 12 then .error (.contents .markShort)
        else atPlace file .zlib (Endian.big.decode declared) (start + 12) (size - 12)

end Packed

structure Section where
  name : Option Bytes
  contents : Except ObjectError Packed

namespace Section

/-- The string between two places that a zero byte ends. -/
def stringBetween (file : Bytes) (first last : Nat) : Option Bytes :=
  if first ≤ last ∧ last ≤ file.length then
    Bytes.untilZero? ((file.drop first).take (last - first))
  else none

/-- A name in a field of fixed length. -/
def nameInField (field : Bytes) : Bytes := field.takeWhile (· ≠ 0)

def isNamed (s : Section) (accepts : Bytes → Bool) : Bool := s.name.any accepts

end Section
end LineTable
