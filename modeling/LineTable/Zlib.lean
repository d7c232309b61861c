/-
Compressed data with a header and a checksum.
-/
import LineTable.Deflate.Inflate

namespace LineTable
namespace Zlib

/-- The checksum of decompressed data: two sums modulo the largest prime below 2¹⁶. -/
def checksum (output : Array UInt8) : Nat :=
  let (a, b) := output.foldl (fun (a, b) byte =>
    let a := (a + byte.toNat) % 65521
    (a, (b + a) % 65521)) (1, 0)
  b * 65536 + a

/-- Whether the two bytes of a header announce data that can be decompressed: a
multiple of 31, the one known method, a window of at most 2¹⁵ bytes, and no preset
dictionary. -/
def headerFits (method flags : Nat) : Bool :=
  (method * 256 + flags) % 31 = 0 && !flags.testBit 5 && method % 16 = 8 && method / 16 ≤ 7

/-- The output of at most `limit` bytes, unless the data is corrupt.  Data that ends
early gives what could be decompressed, and so does data for which the limit is too
low: their checksums are never reached. -/
def decompress (limit : Nat) : Bytes → Option (Array UInt8)
  | method :: flags :: data =>
    if headerFits method.toNat flags.toNat then
      match Deflate.inflate limit (Deflate.Bits.ofBytes data) with
      | ⟨_, .error .corrupt⟩ => none
      | ⟨output, .error _⟩ => some output
      | ⟨output, .ok rest⟩ =>
        let tail := data.drop (data.length - rest.length / 8)
        if tail.length < 4 then some output
        else if Endian.big.decode (tail.take 4) = checksum output then some output
        else none
    else none
  | _ => some #[]

end Zlib
end LineTable
