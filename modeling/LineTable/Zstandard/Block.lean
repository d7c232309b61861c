/-
Blocks of Zstandard frames.

A block holds bytes as they are, one byte that is repeated, or literals and sequences.  A
sequence takes some literals and copies a run of earlier output behind them.  What a later
block can use again is kept from block to block.
-/
import LineTable.Deflate.Inflate
import LineTable.Zstandard.Literals

namespace LineTable
namespace Zstandard

open Deflate (Bits Code)

/-- One of the three numbers of a sequence, as far as its table goes. -/
structure Field where
  alphabet : Nat
  /-- Its largest table has `2 ^ limit` states. -/
  limit : Nat
  /-- The table that is used when a block describes none. -/
  preset : Table

namespace Field

def literals : Field where
  alphabet := 36
  limit := 9
  preset := .ofShares 6 [4, 3, 2, 2, 2, 2, 2, 2, 2, 2, 2, 2, 2, 1, 1, 1, 2, 2, 2, 2, 2, 2, 2, 2, 2,
    3, 2, 1, 1, 1, 1, 1, -1, -1, -1, -1]

def distance : Field where
  alphabet := 32
  limit := 8
  preset := .ofShares 5 [1, 1, 1, 1, 1, 1, 2, 2, 2, 1, 1, 1, 1, 1, 1, 1, 1, 1, 1, 1, 1, 1, 1, 1, -1,
    -1, -1, -1, -1]

def length : Field where
  alphabet := 53
  limit := 9
  preset := .ofShares 6 ([1, 4, 3, 2, 2, 2, 2, 2, 2] ++ List.replicate 37 1 ++ List.replicate 7 (-1))

/-- The table of a field in a block, by what the block says about it. -/
def table (f : Field) (last : Option Table) : Nat → ByteReader Table
  | 0 => return f.preset
  | 1 => do
    let symbol ← number 1
    if symbol < f.alphabet then return .single symbol else failure
  | 2 => Table.read f.limit f.alphabet
  | _ => do last

end Field

/-- A base and a number of extra bits that are added to it. -/
def literalCounts : Array (Nat × Nat) :=
  (List.range 16).toArray.map (·, 0) ++
    #[(16, 1), (18, 1), (20, 1), (22, 1), (24, 2), (28, 2), (32, 3), (40, 3), (48, 4), (64, 6),
      (128, 7), (256, 8), (512, 9), (1024, 10), (2048, 11), (4096, 12), (8192, 13), (16384, 14),
      (32768, 15), (65536, 16)]

def copyLengths : Array (Nat × Nat) :=
  (List.range 32).toArray.map (· + 3, 0) ++
    #[(35, 1), (37, 1), (39, 1), (41, 1), (43, 2), (47, 2), (51, 3), (59, 3), (67, 4), (83, 4),
      (99, 5), (131, 7), (259, 8), (515, 9), (1027, 10), (2051, 11), (4099, 12), (8195, 13),
      (16387, 14), (32771, 15), (65539, 16)]

/-- The number that a symbol of such a table stands for. -/
def extended (table : Array (Nat × Nat)) (symbol : Nat) : BitReader Nat := do
  let (base, width) ← table[symbol]?
  return base + (← highFirst 0 width)

/-- The last three distances, the last one first. -/
structure Recent where
  last : Nat
  second : Nat
  third : Nat
deriving DecidableEq, Repr

namespace Recent

/-- A new distance in front. -/
def push (r : Recent) (distance : Nat) : Recent := ⟨distance, r.last, r.second⟩

/-- The distances after a sequence, its own one first.  Numbers up to three mean one of
them.  They count from the second one if no literals stand before the copy, and what they
reach behind the third is one less than the last. -/
def after (r : Recent) (n literals : Nat) : Recent :=
  if 3 < n then r.push (n - 3)
  else
    match if literals = 0 then n + 1 else n with
    | 1 => r
    | 2 => ⟨r.second, r.last, r.third⟩
    | 3 => r.push r.third
    | _ => r.push (r.last - 1)

end Recent

/-- Output, the literals that are left, and the last distances. -/
structure Assembly where
  output : Array UInt8
  literals : Bytes
  recent : Recent

namespace Assembly

/-- Performs a sequence: some literals, and then a copy. -/
def perform (a : Assembly) (count n length : Nat) : Option Assembly :=
  let output := (a.literals.take count).foldl Array.push a.output
  let recent := a.recent.after n count
  if output.size < a.output.size + count ∨ recent.last = 0 ∨ output.size < recent.last then none
  else
    some ⟨(Deflate.repeatBack (output.size + length) recent.last length output).1,
      a.literals.drop count, recent⟩

/-- The output with the literals that no sequence takes. -/
def finish (a : Assembly) : Array UInt8 := a.literals.foldl Array.push a.output

end Assembly

/-- One thing of each of the three numbers of a sequence. -/
structure Triple (α : Type) where
  literals : α
  distance : α
  length : α

/-- The numbers of a sequence: those of its literals and its distance, and its length. -/
def sequence (cells : Triple Cell) : BitReader (Triple Nat) := do
  let distance ← highFirst 1 cells.distance.symbol
  let length ← extended copyLengths cells.length.symbol
  let literals ← extended literalCounts cells.literals.symbol
  return { literals, distance, length }

def nextCells (tables : Triple Table) (cells : Triple Cell) : BitReader (Triple Cell) := do
  let literals ← tables.literals.next cells.literals
  let length ← tables.length.next cells.length
  let distance ← tables.distance.next cells.distance
  return { literals, distance, length }

/-- Performs a number of sequences, with which the bits must end. -/
def sequences (tables : Triple Table) : Nat → Triple Cell → Assembly → Bits → Option Assembly
  | 0, _, a, bits => if bits.isEmpty then some a else none
  | left + 1, cells, a, bits => do
    let (s, bits) ← sequence cells bits
    let a ← a.perform s.literals s.distance s.length
    if left = 0 then sequences tables left cells a bits
    else
      let (cells, bits) ← nextCells tables cells bits
      sequences tables left cells a bits

/-- How many sequences a block has. -/
def sequenceCount : ByteReader Nat := do
  let first ← number 1
  if first < 128 then return first
  else if first < 255 then return (first - 128) * 256 + (← number 1)
  else return 0x7F00 + (← number 2)

/-- What is kept from block to block. -/
structure Progress where
  output : Array UInt8
  recent : Recent
  code : Option Code
  tables : Option (Triple Table)

namespace Progress

def start : Progress := ⟨#[], ⟨1, 4, 8⟩, none, none⟩

/-- The tables of a block, in the order in which they stand there. -/
def readTables (last : Option (Triple Table)) : ByteReader (Triple Table) := do
  let modes ← number 1
  if modes % 4 ≠ 0 then failure
  let literals ← Field.literals.table (last.map (·.literals)) (modes / 64)
  let distance ← Field.distance.table (last.map (·.distance)) (modes / 16 % 4)
  let length ← Field.length.table (last.map (·.length)) (modes / 4 % 4)
  return { literals, distance, length }

/-- The first states of a stream. -/
def firstCells (tables : Triple Table) : BitReader (Triple Cell) := do
  let literals ← tables.literals.first
  let distance ← tables.distance.first
  let length ← tables.length.first
  return { literals, distance, length }

/-- A block of literals and sequences. -/
def compressed (p : Progress) (block : Bytes) : Option Progress := do
  let ((bytes, code), rest) ← literals p.code block
  let (count, rest) ← sequenceCount rest
  let a : Assembly := ⟨p.output, bytes, p.recent⟩
  if count = 0 then
    if rest.isEmpty then some { p with output := a.finish, code } else none
  else
    let (tables, stream) ← readTables p.tables rest
    let (cells, bits) ← firstCells tables (← fromEnd stream)
    let a ← sequences tables count cells a bits
    some ⟨a.finish, a.recent, code, some tables⟩

/-- A block of a kind, which states its size. -/
def block (p : Progress) (size : Nat) : Nat → ByteReader Progress
  | 0 => do return { p with output := (← take size).foldl Array.push p.output }
  | 1 => do
    let bytes := (← take 1).flatMap (List.replicate size)
    return { p with output := bytes.foldl Array.push p.output }
  | 2 => do p.compressed (← take size)
  | _ => failure

end Progress
end Zstandard
end LineTable
