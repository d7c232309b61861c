/-
Decompression.

The data is a sequence of blocks: stored bytes, or symbols in a fixed code, or
symbols in a code that the block describes.  A symbol is a byte, the end of the
block, or a match that repeats earlier output.  The output has a limit, and
whatever stops decompression, the output up to that point is kept.
-/
import LineTable.Deflate.Code

namespace LineTable
namespace Deflate

/-- What decompression produced: the bits behind the data, or why it stopped. -/
structure Inflated where
  output : Array UInt8
  ending : Except Stop Bits

/-- A base and a number of extra bits that are added to it. -/
def lengthTable : Array (Nat × Nat) :=
  #[(3, 0), (4, 0), (5, 0), (6, 0), (7, 0), (8, 0), (9, 0), (10, 0), (11, 1), (13, 1), (15, 1),
    (17, 1), (19, 2), (23, 2), (27, 2), (31, 2), (35, 3), (43, 3), (51, 3), (59, 3), (67, 4),
    (83, 4), (99, 4), (115, 4), (131, 5), (163, 5), (195, 5), (227, 5), (258, 0)]

def distanceTable : Array (Nat × Nat) :=
  #[(1, 0), (2, 0), (3, 0), (4, 0), (5, 1), (7, 1), (9, 2), (13, 2), (17, 3), (25, 3), (33, 4),
    (49, 4), (65, 5), (97, 5), (129, 6), (193, 6), (257, 7), (385, 7), (513, 8), (769, 8),
    (1025, 9), (1537, 9), (2049, 10), (3073, 10), (4097, 11), (6145, 11), (8193, 12), (12289, 12),
    (16385, 13), (24577, 13)]

/-- The number that a symbol of a table stands for. -/
def extended (table : Array (Nat × Nat)) (symbol : Nat) (bits : Bits) :
    Except Stop (Nat × Bits) :=
  match table[symbol]? with
  | none => .error .corrupt
  | some (base, width) => (Bits.number width bits).map fun (extra, rest) => (base + extra, rest)

theorem extended_length_le {table : Array (Nat × Nat)} {symbol n : Nat} {bits rest : Bits}
    (h : extended table symbol bits = .ok (n, rest)) : rest.length ≤ bits.length := by
  unfold extended at h
  split at h
  · simp at h
  · rename_i base width _
    cases hn : Bits.number width bits with
    | error e => simp [hn, Except.map] at h
    | ok found =>
      simp only [hn, Except.map, Except.ok.injEq, Prod.mk.injEq] at h
      obtain ⟨extra, rest'⟩ := found
      rw [← h.2]
      exact Bits.number_length_le hn

/-- The length and the distance of a match whose length has a place in the table. -/
def readMatch (distances : Code) (index : Nat) (bits : Bits) : Except Stop (Nat × Nat × Bits) :=
  match extended lengthTable index bits with
  | .error stop => .error stop
  | .ok (length, bits) =>
    match distances.symbol bits with
    | .error stop => .error stop
    | .ok (symbol, bits) =>
      (extended distanceTable symbol bits).map fun (distance, bits) => (length, distance, bits)

theorem readMatch_length_le {distances : Code} {index length distance : Nat} {bits rest : Bits}
    (h : readMatch distances index bits = .ok (length, distance, rest)) :
    rest.length ≤ bits.length := by
  unfold readMatch at h
  split at h
  · simp at h
  · rename_i hlength
    have h1 := extended_length_le hlength
    split at h
    · simp at h
    · rename_i bits' symbol' bits'' hsymbol
      have h2 := Code.symbol_length_lt hsymbol
      cases hd : extended distanceTable symbol' bits'' with
      | error e => simp [hd, Except.map] at h
      | ok found =>
        simp only [hd, Except.map, Except.ok.injEq, Prod.mk.injEq] at h
        obtain ⟨distance', rest'⟩ := found
        have h3 := extended_length_le hd
        rw [← h.2.2]
        simp only
        omega

/-- Repeats `count` bytes from `distance` back, as far as the limit allows. -/
def repeatBack (limit distance : Nat) : Nat → Array UInt8 → Array UInt8 × Bool
  | 0, output => (output, true)
  | count + 1, output =>
    if output.size < limit then
      repeatBack limit distance count (output.push (output.getD (output.size - distance) 0))
    else (output, false)

/-- What a symbol of a block says. -/
inductive Meaning where
  | byte (b : UInt8)
  | endOfBlock
  /-- A match begins, and this is the place of its length in the table. -/
  | again (index : Nat)
deriving DecidableEq, Repr

def Meaning.ofSymbol (symbol : Nat) : Meaning :=
  if symbol < 256 then byte (UInt8.ofNat symbol)
  else if symbol = 256 then endOfBlock
  else again (symbol - 257)

/-- The symbols of a block. -/
def symbols (literals distances : Code) (limit : Nat) (output : Array UInt8) (bits : Bits) :
    Inflated :=
  match _hsymbol : literals.symbol bits with
  | .error stop => ⟨output, .error stop⟩
  | .ok (symbol, rest) =>
    match Meaning.ofSymbol symbol with
    | .byte b =>
      if output.size < limit then symbols literals distances limit (output.push b) rest
      else ⟨output, .error .full⟩
    | .endOfBlock => ⟨output, .ok rest⟩
    | .again index =>
      match _hmatch : readMatch distances index rest with
      | .error stop => ⟨output, .error stop⟩
      | .ok (length, distance, rest') =>
        if output.size < distance then ⟨output, .error .corrupt⟩
        else
          let copied := repeatBack limit distance length output
          if copied.2 then symbols literals distances limit copied.1 rest'
          else ⟨copied.1, .error .full⟩
termination_by bits.length
decreasing_by
  · exact Code.symbol_length_lt _hsymbol
  · exact Nat.lt_of_le_of_lt (readMatch_length_le _hmatch) (Code.symbol_length_lt _hsymbol)

/-- Copies `count` stored bytes, as far as the limit and the data allow. -/
def stored (limit : Nat) : Nat → Array UInt8 → Bits → Inflated
  | 0, output, bits => ⟨output, .ok bits⟩
  | count + 1, output, bits =>
    if output.size < limit then
      match Bits.number 8 bits with
      | .error stop => ⟨output, .error stop⟩
      | .ok (b, rest) => stored limit count (output.push (UInt8.ofNat b)) rest
    else ⟨output, .error .full⟩

/-- The code of bytes and match lengths in blocks that describe none. -/
def fixedLiterals : Code :=
  Code.ofLengths (List.replicate 144 8 ++ List.replicate 112 9 ++ List.replicate 24 7 ++
    List.replicate 8 8)

/-- The code of match distances in blocks that describe none. -/
def fixedDistances : Code := Code.ofLengths (List.replicate 32 5)

/-- The order in which a block gives the lengths of its first code. -/
def lengthOrder : List Nat := [16, 17, 18, 0, 8, 7, 9, 6, 10, 5, 11, 4, 12, 3, 13, 2, 14, 1, 15]

def numbers (width : Nat) : Nat → Bits → Except Stop (List Nat × Bits)
  | 0, bits => .ok ([], bits)
  | count + 1, bits => do
    let (first, bits) ← Bits.number width bits
    let (others, bits) ← numbers width count bits
    return (first :: others, bits)

/-- What a symbol above 15 says about codeword lengths: the length that is repeated, the
width of the number of times, and the least number of times. -/
def repeated? (symbol : Nat) (done : List Nat) : Option (Nat × Nat × Nat) :=
  if symbol = 16 then done.head?.map (·, 2, 3)
  else if symbol = 17 then some (0, 3, 3)
  else some (0, 7, 11)

/-- The lengths of `total` codewords, written in a code of their own that can repeat
the last length or zero.  `done` holds those read so far, the last one first. -/
def codeLengths (code : Code) (total : Nat) (done : List Nat) (bits : Bits) :
    Except Stop (List Nat × Bits) :=
  if done.length < total then
    match _hsymbol : code.symbol bits with
    | .error stop => .error stop
    | .ok (symbol, rest) =>
      if symbol < 16 then codeLengths code total (symbol :: done) rest
      else
        match repeated? symbol done with
        | none => .error .corrupt
        | some (length, width, least) =>
          match _hextra : Bits.number width rest with
          | .error stop => .error stop
          | .ok (extra, rest') =>
            codeLengths code total (List.replicate (least + extra) length ++ done) rest'
  else if done.length = total then .ok (done.reverse, bits)
  else .error .corrupt
termination_by bits.length
decreasing_by
  · exact Code.symbol_length_lt _hsymbol
  · exact Nat.lt_of_le_of_lt (Bits.number_length_le _hextra) (Code.symbol_length_lt _hsymbol)

/-- A code must be complete, or trivial where that is allowed. -/
def checked (trivial : Bool) (lengths : List Nat) : Except Stop Code :=
  let code := Code.ofLengths lengths
  if code.isComplete || (trivial && code.isTrivial) then .ok code else .error .corrupt

/-- The two codes that a block describes. -/
def describedCodes (bits : Bits) : Except Stop (Code × Code × Bits) := do
  let (literalCount, bits) ← Bits.number 5 bits
  let (distanceCount, bits) ← Bits.number 5 bits
  let (lengthCount, bits) ← Bits.number 4 bits
  let literalCount := literalCount + 257
  let distanceCount := distanceCount + 1
  if 286 < literalCount ∨ 30 < distanceCount then throw .corrupt
  let (given, bits) ← numbers 3 (lengthCount + 4) bits
  let placed := lengthOrder.zip given
  let code ← checked false ((List.range 19).map fun i => (placed.lookup i).getD 0)
  let (lengths, bits) ← codeLengths code (literalCount + distanceCount) [] bits
  let distances ← checked true (lengths.drop literalCount)
  let literals ← checked true (lengths.take literalCount)
  return (literals, distances, bits)

/-- One block, after the bit that marks the last one. -/
def block (limit : Nat) (output : Array UInt8) (bits : Bits) : Inflated :=
  match Bits.number 2 bits with
  | .error stop => ⟨output, .error stop⟩
  | .ok (0, bits) =>
    let header : Except Stop (Nat × Bits) := do
      let (length, bits) ← Bits.number 16 bits.align
      let (complement, bits) ← Bits.number 16 bits
      if length + complement = 0xFFFF then return (length, bits) else throw .corrupt
    match header with
    | .error stop => ⟨output, .error stop⟩
    | .ok (length, bits) => stored limit length output bits
  | .ok (1, bits) => symbols fixedLiterals fixedDistances limit output bits
  | .ok (2, bits) =>
    match describedCodes bits with
    | .error stop => ⟨output, .error stop⟩
    | .ok (literals, distances, bits) => symbols literals distances limit output bits
  | .ok _ => ⟨output, .error .corrupt⟩

/-- Blocks up to the one that is marked as the last. -/
def blocks (limit : Nat) (output : Array UInt8) : Nat → Bits → Inflated
  | _, [] => ⟨output, .error .endOfInput⟩
  | 0, _ => ⟨output, .error .endOfInput⟩
  | left + 1, final :: bits =>
    match block limit output bits with
    | ⟨output, .ok rest⟩ => if final then ⟨output, .ok rest⟩ else blocks limit output left rest
    | stopped => stopped

/-- Decompresses at most `limit` bytes.  A block takes a bit at least, so there are no
more blocks than bits. -/
def inflate (limit : Nat) (bits : Bits) : Inflated := blocks limit #[] bits.length bits

end Deflate
end LineTable
