/-
Tables of states.

Symbols that need not take a whole number of bits are kept as states of a table: a state
stands for its symbol, and a few bits lead from it to the next state.  The more states a
symbol has, the fewer bits lead on from them.  How many it has is its share, and a table
is described by the shares of its symbols.
-/
import LineTable.Deflate.Code

namespace LineTable
namespace Zstandard

open Deflate (Bits)

/-- Takes a value off the front of some bits. -/
abbrev BitReader := StateT Bits Option

/-- Takes a value off the front of some bytes. -/
abbrev ByteReader := StateT Bytes Option

def take (count : Nat) : ByteReader Bytes := fun input =>
  let run := input.take count
  if run.length = count then some (run, input.drop count) else none

def number (width : Nat) : ByteReader Nat := do
  return Endian.little.decode (← take width)

/-- A number of `width` bits, the lowest first. -/
def lowFirst (width : Nat) : BitReader Nat := fun bits => (Bits.number width bits).toOption

/-- A number that goes on for `width` bits behind `value`, the highest first. -/
def highFirst (value : Nat) : Nat → BitReader Nat
  | 0, bits => some (value, bits)
  | _ + 1, [] => none
  | width + 1, b :: bits => highFirst (2 * value + b.toNat) width bits

/-- The bits of a stream that is read from its end.  In the last byte the highest bit that
is set only marks where they begin. -/
def fromEnd (stream : Bytes) : Option Bits :=
  if stream.getLast?.any (· ≠ 0) then
    some (((Bits.ofBytes stream).reverse.dropWhile fun b => !b).drop 1)
  else none

/-- A state: the states that follow it begin at `base`, and `width` bits tell them apart. -/
structure Cell where
  symbol : Nat
  width : Nat
  base : Nat
deriving DecidableEq, Repr

structure Table where
  /-- The number of bits that tell the first state. -/
  width : Nat
  cells : Array Cell
deriving Repr

namespace Table

/-- A table of one symbol, which takes no bits. -/
def single (symbol : Nat) : Table := ⟨0, #[⟨symbol, 0, 0⟩]⟩

/-- The order in which the places of a table are given away. -/
def places (size : Nat) : List Nat :=
  (List.range size).map fun i => i * (size / 2 + size / 8 + 3) % size

/-- The symbols of the states of a table.  A share of minus one is one that is less than a
state: such symbols have the last places, the first of them the very last. -/
def layOut (size : Nat) (shares : List Int) : List Nat :=
  let rare := (shares.zipIdx.filter fun entry => entry.1 = -1).map (·.2)
  let common := shares.zipIdx.flatMap fun (share, symbol) => List.replicate share.toNat symbol
  let free := size - rare.length
  let placed := (((places size).filter (· < free)).zip common).foldl
    (fun symbols (place, symbol) => symbols.setIfInBounds place symbol) (Array.replicate free 0)
  placed.toList ++ rare.reverse

/-- The states of the symbols from one place on.  `next` counts on from the share of a
symbol for each of its states. -/
def cellsFrom (width : Nat) (next : Array Nat) : List Nat → List Cell
  | [] => []
  | symbol :: symbols =>
    let n := next.getD symbol 1
    let step := width - n.log2
    ⟨symbol, step, n <<< step - 1 <<< width⟩ ::
      cellsFrom width (next.setIfInBounds symbol (n + 1)) symbols

def ofShares (width : Nat) (shares : List Int) : Table :=
  ⟨width, (cellsFrom width (shares.map Int.natAbs).toArray
    (layOut (1 <<< width) shares)).toArray⟩

/-- How many symbols without a share follow one without. -/
def missing : BitReader Nat
  | true :: true :: bits => (missing bits).map fun (more, rest) => (3 + more, rest)
  | low :: high :: bits => some (low.toNat + 2 * high.toNat, bits)
  | _ => none

/-- The share of a symbol when `left` states are left.  The smallest numbers take a bit less
than the others. -/
def share (left : Nat) : BitReader Int := do
  let width := (left + 1).log2
  let short := 2 <<< width - 1 - (left + 1)
  let low ← lowFirst width
  if low < short then return low - 1
  let high ← lowFirst 1
  return (if high = 0 then low else low + 1 <<< width - short) - 1

/-- The shares of at most `room` symbols, until no state is left. -/
def shares : Nat → Nat → BitReader (List Int)
  | _, 0 => return []
  | 0, _ => failure
  | room + 1, left => do
    let first ← share left
    let more ← if first = 0 then missing else pure 0
    let others ← shares room (left - first.natAbs)
    return first :: (List.replicate more 0 ++ others)

/-- A table of at most `2 ^ limit` states for the symbols of an alphabet. -/
def read (limit alphabet : Nat) : ByteReader Table := fun bytes => do
  let description : BitReader Table := do
    let width := 5 + (← lowFirst 4)
    if limit < width then failure
    let shares ← shares alphabet (1 <<< width)
    if alphabet < shares.length then failure
    return ofShares width shares
  let (table, rest) ← description (Bits.ofBytes bytes)
  return (table, bytes.drop (bytes.length - rest.length / 8))

/-- The first state of a stream. -/
def first (t : Table) : BitReader Cell := do
  let state ← highFirst 0 t.width
  t.cells[state]?

/-- The state behind another one. -/
def next (t : Table) (cell : Cell) : BitReader Cell := do
  let step ← highFirst 0 cell.width
  t.cells[cell.base + step]?

end Table
end Zstandard
end LineTable
