/-
Bits and the codes of compressed data.

Bits come out of a byte from the lowest to the highest, and numbers are stored
with their lowest bit first.  A code is given by the length of each symbol's
codeword: codewords of one length are consecutive, in the order of their symbols,
and those of the next length begin where they end.
-/
import LineTable.Bytes

namespace LineTable
namespace Deflate

/-- Why decompression stopped before the end of the data. -/
inductive Stop where
  | endOfInput
  /-- The space for the output is used up. -/
  | full
  | corrupt
deriving DecidableEq, Repr

abbrev Bits := List Bool

namespace Bits

/-- The bits of a byte string. -/
def ofBytes (bytes : Bytes) : Bits :=
  bytes.flatMap fun b => (List.range 8).map b.toNat.testBit

/-- A number of `width` bits. -/
def number : Nat → Bits → Except Stop (Nat × Bits)
  | 0, bits => .ok (0, bits)
  | _ + 1, [] => .error .endOfInput
  | width + 1, b :: bits => (number width bits).map fun (high, rest) => (b.toNat + 2 * high, rest)

theorem number_length_le {width n : Nat} {bits rest : Bits}
    (h : number width bits = .ok (n, rest)) : rest.length ≤ bits.length := by
  induction width generalizing n bits with
  | zero =>
    simp only [number, Except.ok.injEq, Prod.mk.injEq] at h
    simp [h.2]
  | succ width ih =>
    cases bits with
    | nil => simp [number] at h
    | cons b tail =>
      cases hn : number width tail with
      | error e => simp [number, hn, Except.map] at h
      | ok found =>
        simp only [number, hn, Except.map, Except.ok.injEq, Prod.mk.injEq] at h
        obtain ⟨high, rest'⟩ := found
        obtain ⟨_, rfl⟩ := h
        exact Nat.le_succ_of_le (ih hn)

/-- Skips to the next byte.  The bits of the data are a whole number of bytes. -/
def align (bits : Bits) : Bits := bits.drop (bits.length % 8)

end Bits

/-- The symbols whose codewords have one bit, two bits, and so on. -/
structure Code where
  levels : List (Array Nat)
deriving Repr

namespace Code

/-- The length of the longest codeword, one if there is none: a code reads a bit before
it finds that no codeword begins with it. -/
def depth (lengths : List Nat) : Nat := lengths.foldl max 1

/-- The code in which symbol `i` has a codeword of `lengths[i]` bits, or none where
that is zero. -/
def ofLengths (lengths : List Nat) : Code where
  levels := (List.range (depth lengths)).map fun i =>
    ((lengths.zipIdx.filter fun entry => entry.1 = i + 1).map (·.2)).toArray

/-- The share of all strings of `levels.length` bits that begin with a codeword. -/
def coverage : List (Array Nat) → Nat
  | [] => 0
  | level :: levels => level.size <<< levels.length + coverage levels

/-- Whether every string of bits begins with exactly one codeword. -/
def isComplete (c : Code) : Bool := coverage c.levels = 1 <<< c.levels.length

/-- Whether the code has no codeword at all, or one of a single bit. -/
def isTrivial (c : Code) : Bool := c.levels.length = 1 && coverage c.levels ≤ 1

/-- Follows codewords through the levels.  `past` counts from the first codeword that
is longer than those of the levels passed. -/
def walk (past : Nat) : List (Array Nat) → Bits → Except Stop (Nat × Bits)
  | [], _ => .error .corrupt
  | _ :: _, [] => .error .endOfInput
  | level :: levels, b :: bits =>
    let index := 2 * past + b.toNat
    match level[index]? with
    | some symbol => .ok (symbol, bits)
    | none => walk (index - level.size) levels bits

theorem walk_length_lt {past symbol : Nat} {levels : List (Array Nat)} {bits rest : Bits}
    (h : walk past levels bits = .ok (symbol, rest)) : rest.length < bits.length := by
  induction levels generalizing past bits with
  | nil => simp [walk] at h
  | cons level levels ih =>
    cases bits with
    | nil => simp [walk] at h
    | cons b tail =>
      simp only [walk] at h
      split at h
      · simp only [Except.ok.injEq, Prod.mk.injEq] at h
        simp [h.2]
      · exact Nat.lt_succ_of_lt (ih h)

/-- The symbol at the front of the bits. -/
def symbol (c : Code) (bits : Bits) : Except Stop (Nat × Bits) := walk 0 c.levels bits

theorem symbol_length_lt {c : Code} {symbol : Nat} {bits rest : Bits}
    (h : c.symbol bits = .ok (symbol, rest)) : rest.length < bits.length :=
  walk_length_lt h

end Code
end Deflate
end LineTable
