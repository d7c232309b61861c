/-
Frames that store their data.

A block can hold its bytes as they are, and a frame of such blocks gives what they hold, one
behind the other (`Zstandard.decompress_stored`).  So there is nothing that compressed contents
cannot stand for, as long as there is room for it (`Packed.exists_unpack_zstandard`).
-/
import LineTable.Object.Section
import LineTable.Proofs.ByteOrder

namespace LineTable
namespace Zstandard

variable {α β : Type}

/-- The value is read from exactly these bytes, whatever follows them. -/
def Takes (r : ByteReader α) (bytes : Bytes) (a : α) : Prop :=
  ∀ rest, r (bytes ++ rest) = some (a, rest)

theorem takes_pure (a : α) : Takes (pure a) [] a := fun _ => rfl

theorem Takes.bind {r : ByteReader α} {next : α → ByteReader β} {bytes more : Bytes} {a : α}
    {b : β} (h : Takes r bytes a) (hnext : Takes (next a) more b) :
    Takes (r >>= next) (bytes ++ more) b := fun rest => by
  show (r (bytes ++ more ++ rest)).bind _ = _
  rw [List.append_assoc, h]
  exact hnext rest

theorem Takes.map {r : ByteReader α} {bytes : Bytes} {a : α} (h : Takes r bytes a) (f : α → β) :
    Takes (r >>= fun a => pure (f a)) bytes (f a) := by
  have hread : Takes (r >>= fun a => pure (f a)) (bytes ++ []) (f a) := h.bind (takes_pure (f a))
  rwa [List.append_nil] at hread

theorem takes_take (bytes : Bytes) : Takes (take bytes.length) bytes bytes := fun rest => by
  simp [take]

theorem takes_number {width n : Nat} (h : n < 256 ^ width) :
    Takes (number width) (Endian.little.encode width n) n := by
  have hbytes := takes_take (Endian.little.encode width n)
  rw [Endian.encode_length] at hbytes
  have hread := hbytes.map Endian.little.decode
  rwa [Endian.decode_encode _ h] at hread

/-! ## Blocks -/

/-- A block that holds its bytes as they are. -/
def storedBlock (last : Bool) (bytes : Bytes) : Bytes :=
  Endian.little.encode 3 (bytes.length * 8 + last.toNat) ++ bytes

def storedBlocks (first : Bytes) : List Bytes → Bytes
  | [] => storedBlock true first
  | next :: others => storedBlock false first ++ storedBlocks next others

/-- A frame of such blocks. -/
def storedFrame (first : Bytes) (others : List Bytes) : Bytes :=
  Endian.little.encode 4 0xFD2FB528 ++ ([0, 0] ++ storedBlocks first others)

theorem takes_block (p : Progress) (bytes : Bytes) :
    Takes (p.block bytes.length 0) bytes { p with output := bytes.foldl Array.push p.output } :=
  (takes_take bytes).map fun bytes =>
    ({ p with output := bytes.foldl Array.push p.output } : Progress)

theorem takes_blocks_cons {p : Progress} {bytes more : Bytes} {last : Bool} {left : Nat}
    {output : Array UInt8} (hsize : bytes.length ≤ 0x20000)
    (hnext : Takes (if last then pure (bytes.foldl Array.push p.output)
      else blocks left { p with output := bytes.foldl Array.push p.output }) more output) :
    Takes (blocks (left + 1) p) (storedBlock last bytes ++ more) output := by
  have hlast : last.toNat < 2 := last.toNat_lt
  rw [storedBlock, List.append_assoc, blocks]
  refine (takes_number (by omega)).bind ?_
  have hlength : (bytes.length * 8 + last.toNat) / 8 = bytes.length := by omega
  have hkind : (bytes.length * 8 + last.toNat) / 2 % 4 = 0 := by omega
  have hmark : (bytes.length * 8 + last.toNat) % 2 = last.toNat := by omega
  rw [hlength, hkind, hmark, if_neg (by omega)]
  refine (takes_block p bytes).bind ?_
  cases last with
  | true => exact hnext
  | false => exact hnext

theorem takes_blocks {first : Bytes} {others : List Bytes} {left : Nat} {p : Progress}
    (hsizes : ∀ bytes ∈ first :: others, bytes.length ≤ 0x20000) (hleft : others.length < left) :
    Takes (blocks left p) (storedBlocks first others)
      (p.output ++ (first ++ others.flatten).toArray) := by
  induction others generalizing first left p with
  | nil =>
    obtain ⟨left, rfl⟩ := Nat.exists_eq_add_one_of_ne_zero (Nat.ne_of_gt hleft)
    have hread : Takes (blocks (left + 1) p) (storedBlock true first ++ []) _ :=
      takes_blocks_cons (hsizes first List.mem_cons_self) (takes_pure _)
    simpa [storedBlocks] using hread
  | cons next others ih =>
    obtain ⟨left, rfl⟩ := Nat.exists_eq_add_one_of_ne_zero (Nat.ne_of_gt (Nat.zero_lt_of_lt hleft))
    obtain ⟨hfirst, hothers⟩ := List.forall_mem_cons.1 hsizes
    have hread : Takes (blocks (left + 1) p)
        (storedBlock false first ++ storedBlocks next others) _ :=
      takes_blocks_cons hfirst (ih hothers (Nat.lt_of_succ_lt_succ hleft))
    simpa [storedBlocks] using hread

theorem length_lt_storedBlocks (first : Bytes) (others : List Bytes) :
    others.length < (storedBlocks first others).length := by
  induction others generalizing first with
  | nil =>
    simp only [storedBlocks, storedBlock, List.length_append, Endian.encode_length,
      List.length_nil]
    omega
  | cons next others ih =>
    have hnext := ih next
    simp only [storedBlocks, storedBlock, List.length_append, Endian.encode_length,
      List.length_cons]
    omega

/-! ## Frames -/

theorem takes_nothing : Takes (take 0) [] [] := takes_take []

/-- A header that states neither a size nor a checksum. -/
theorem takes_header : Takes header [0, 0] false := by
  have hdescriptor : Takes (number 1) [0] 0 := takes_number (by decide)
  have hwindow : Takes (take 1) [0] [0] := takes_take [0]
  have hdictionary : Takes (number 0) [] 0 := takes_number (by decide)
  exact hdescriptor.bind (hwindow.bind (hdictionary.bind (takes_nothing.bind (takes_pure false))))

theorem takes_framed {first : Bytes} {others : List Bytes}
    (hsizes : ∀ bytes ∈ first :: others, bytes.length ≤ 0x20000) :
    Takes framed ([0, 0] ++ storedBlocks first others) (first ++ others.flatten).toArray := by
  refine takes_header.bind fun rest => ?_
  have hleft : others.length < (storedBlocks first others ++ rest).length := by
    have hlength := length_lt_storedBlocks first others
    rw [List.length_append]
    omega
  have hblocks : blocks (storedBlocks first others ++ rest).length .start
      (storedBlocks first others ++ rest) = some (#[] ++ (first ++ others.flatten).toArray, rest) :=
    takes_blocks hsizes hleft rest
  rw [Array.empty_append] at hblocks
  show (blocks _ .start _).bind _ = _
  rw [hblocks]
  exact takes_nothing.map (fun _ => (first ++ others.flatten).toArray) rest

theorem takes_frame {first : Bytes} {others : List Bytes}
    (hsizes : ∀ bytes ∈ first :: others, bytes.length ≤ 0x20000) :
    Takes frame (storedFrame first others) (first ++ others.flatten).toArray := by
  have hmark : Takes (number 4) (Endian.little.encode 4 0xFD2FB528) 0xFD2FB528 :=
    takes_number (by decide)
  exact hmark.bind (takes_framed hsizes)

theorem frames_nil (left : Nat) (output : Array UInt8) : frames left output [] = some output := by
  cases left <;> rfl

/-- A frame of blocks that hold their bytes as they are gives what they hold. -/
theorem decompress_stored {first : Bytes} {others : List Bytes}
    (hsizes : ∀ bytes ∈ first :: others, bytes.length ≤ 0x20000) :
    decompress (storedFrame first others) = some (first ++ others.flatten).toArray := by
  have hframe := takes_frame hsizes []
  obtain ⟨b, rest, hcons⟩ : ∃ b rest, storedFrame first others = b :: rest := ⟨_, _, rfl⟩
  rw [List.append_nil, hcons] at hframe
  rw [decompress, hcons]
  show (frame (b :: rest)).bind _ = _
  rw [hframe]
  show frames rest.length _ [] = _
  rw [frames_nil, Array.empty_append]

end Zstandard

/-- Contents that there is room for are those of some compressed section. -/
theorem Packed.exists_unpack_zstandard {memory : Nat} {bytes : Bytes}
    (hroom : bytes.length ≤ min memory vectorLimit) :
    ∃ data, unpack memory ⟨.zstandard, bytes.length, data⟩ = .ok bytes := by
  -- A frame with a block for each byte will do.
  let blocks := bytes.map fun b => [b]
  have hsizes : ∀ block ∈ [] :: blocks, block.length ≤ 0x20000 := by
    simp [blocks]
  have hflat : [] ++ blocks.flatten = bytes := by
    rw [List.nil_append, ← List.flatMap_def, List.flatMap_singleton']
  have hstored := Zstandard.decompress_stored hsizes
  rw [hflat] at hstored
  refine ⟨Zstandard.storedFrame [] blocks, ?_⟩
  simp only [unpack, if_neg (Nat.not_lt.2 hroom), hstored, checkSize, if_true]

end LineTable
