/-
Literals: the bytes of a block that are not copies of earlier ones.

They stand in the block as they are, as one byte that is repeated, or in a code.  The code
is given by weights, which say how many more bits the longest codeword has, or it is the
one of an earlier block.
-/
import LineTable.Zstandard.States

namespace LineTable
namespace Zstandard

open Deflate (Bits Code)

namespace Weights

/-- The code of some weights and of one more, which fills the code up.  Seen from its
inverted bits, the codewords of one length come in the order of their symbols from the
last to the first, and behind them come the longer ones. -/
def code? (weights : List Nat) : Option Code :=
  let total := weights.foldl (fun total weight => total + (1 <<< weight) / 2) 0
  let longest := total.log2 + 1
  let left := 1 <<< longest - total
  if total = 0 ∨ 11 < longest ∨ left ≠ 1 <<< left.log2 then none
  else
    let weights := weights ++ [left.log2 + 1]
    some ⟨(List.range longest).map fun i =>
      ((weights.zipIdx.filter fun entry => entry.1 = longest - i).map (·.2)).reverse.toArray⟩

/-- Weights that are stored in half a byte each, the upper half first. -/
def halves (bytes : Bytes) : List Nat := bytes.flatMap fun b => [b.toNat / 16, b.toNat % 16]

/-- Weights that two states give in turns, from `cell` on, until there are too few bits for
a next state.  There are at most `room` of them before the last one. -/
def alternate (t : Table) (cell other : Cell) : Nat → Bits → Option (List Nat)
  | 0, _ => none
  | room + 1, bits =>
    match t.next cell bits with
    | none => some [cell.symbol, other.symbol]
    | some (next, rest) => (alternate t other next room rest).map (cell.symbol :: ·)

/-- Weights behind the table of their states. -/
def ofStates (bytes : Bytes) : Option (List Nat) := do
  let (table, stream) ← Table.read 6 256 bytes
  let (one, bits) ← table.first (← fromEnd stream)
  let (other, bits) ← table.first bits
  alternate table one other 254 bits

/-- The weights of a code.  The first byte is the size of what follows or, from 128 on,
127 more than the number of weights. -/
def read : ByteReader (List Nat) := do
  let first ← number 1
  if first < 128 then ofStates (← take first)
  else
    let count := first - 127
    return (halves (← take ((count + 1) / 2))).take count

end Weights

/-- The bytes that codewords stand for.  The last codeword ends with the bits. -/
def decode (c : Code) (output : Array UInt8) (bits : Bits) : Option (Array UInt8) :=
  if bits.isEmpty then some output
  else
    match _hsymbol : c.symbol bits with
    | .error _ => none
    | .ok (symbol, rest) => decode c (output.push (UInt8.ofNat symbol)) rest
termination_by bits.length
decreasing_by exact Code.symbol_length_lt _hsymbol

def decodeStream (c : Code) (output : Array UInt8) (stream : Bytes) : Option (Array UInt8) := do
  decode c output ((← fromEnd stream).map fun b => !b)

/-- The four parts of a stream.  The sizes of the first three are stated in front. -/
def parts : ByteReader (List Bytes) := do
  let first ← number 2
  let second ← number 2
  let third ← number 2
  return [← take first, ← take second, ← take third, ← get]

/-- How many literals there are when no code is used. -/
def plainSize : Nat → ByteReader Nat
  | 1 => do return (← number 2) / 16
  | 3 => do return (← number 3) / 16
  | _ => do return (← number 1) / 8

/-- How many literals there are, and how many bytes they take in a code. -/
def codedSizes (format : Nat) : ByteReader (Nat × Nat) := do
  let (length, width) := match format with
    | 2 => (4, 14)
    | 3 => (5, 18)
    | _ => (3, 10)
  let sizes := (← number length) / 16
  return (sizes % (1 <<< width), sizes >>> width)

/-- Literals in a code, which stands in front of them unless it is given. -/
def coded (given : Option Code) (format : Nat) : ByteReader (Bytes × Code) := do
  let (size, length) ← codedSizes format
  let packed ← take length
  let (code, packed) ← match given with
    | some code => pure (code, packed)
    | none => do
      let (weights, rest) ← Weights.read packed
      pure (← Weights.code? weights, rest)
  let streams ← if format = 0 then pure [packed] else (parts packed).map (·.1)
  let output ← (streams.foldlM (decodeStream code) #[] : Option (Array UInt8))
  if output.size = size then return (output.toList, code) else failure

/-- The literals of a block, and the code that a later block can use again. -/
def literals (last : Option Code) : ByteReader (Bytes × Option Code) := do
  match (← get) with
  | [] => failure
  | first :: _ =>
    let format := first.toNat / 4 % 4
    match first.toNat % 4 with
    | 0 => return (← take (← plainSize format), last)
    | 1 =>
      let size ← plainSize format
      return ((← take 1).flatMap (List.replicate size), last)
    | 2 =>
      let (bytes, code) ← coded none format
      return (bytes, some code)
    | _ =>
      let (bytes, code) ← coded (some (← last)) format
      return (bytes, some code)

end Zstandard
end LineTable
