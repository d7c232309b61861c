/-
Headers of the units in the information section.
-/
import LineTable.Program.Header

namespace LineTable

def Reader.addressSize : Reader Nat := do
  let size ← byte
  if size = 1 ∨ size = 2 ∨ size = 4 ∨ size = 8 then return size.toNat
  else fail .addressSize

namespace Info

structure Encoding where
  endian : Endian
  format : Format
  version : Nat
  addressSize : Nat
deriving DecidableEq, Repr

namespace Encoding

def word (c : Encoding) : Reader Nat := Reader.word c.endian c.format

def number (c : Encoding) (width : Nat) : Reader Nat := Reader.number c.endian width

end Encoding

structure UnitHeader where
  encoding : Encoding
  /-- Where the unit's abbreviations begin. -/
  abbreviations : Nat
  /-- The bytes of the unit's entries. -/
  entries : Bytes
deriving Repr

namespace UnitHeader

/-- What follows the common fields in units of a kind: nothing, an identifier, or a
signature and an offset. -/
def skipKind (c : Encoding) : UInt8 → Reader Unit
  | 1 => pure ()
  | 2 => do
    let _ ← Reader.take 8
    let _ ← c.word
  | 3 => pure ()
  | 4 => do
    let _ ← Reader.take 8
  | 5 => do
    let _ ← Reader.take 8
  | 6 => do
    let _ ← Reader.take 8
    let _ ← c.word
  | _ => Reader.fail .unitType

/-- The fields after the version, as version five orders them. -/
def readFive (e : Endian) (format : Format) : Reader (Encoding × Nat) := do
  let kind ← Reader.byte
  let addressSize ← Reader.addressSize
  let abbreviations ← Reader.word e format
  let encoding : Encoding := ⟨e, format, 5, addressSize⟩
  skipKind encoding kind
  return (encoding, abbreviations)

/-- The fields after the version, as versions two to four order them. -/
def readFour (e : Endian) (format : Format) (version : Nat) : Reader (Encoding × Nat) := do
  let abbreviations ← Reader.word e format
  let addressSize ← Reader.addressSize
  return (⟨e, format, version, addressSize⟩, abbreviations)

def readContents (e : Endian) (format : Format) : Reader (Encoding × Nat) := do
  let version ← Reader.number e 2
  if 2 ≤ version ∧ version ≤ 4 then readFour e format version
  else if version = 5 then readFive e format
  else Reader.fail .unknownVersion

def read (e : Endian) (input : Bytes) : Except ReadError (UnitHeader × Bytes) := do
  let ((format, unit), rest) ← (Reader.unitBytes e).run input
  let ((encoding, abbreviations), entries) ← (readContents e format).run unit
  return (⟨encoding, abbreviations, entries⟩, rest)

theorem read_shortens {e : Endian} {input rest : Bytes} {h : UnitHeader}
    (hr : read e input = .ok (h, rest)) : rest.length < input.length := by
  have shrinks : (Reader.unitBytes e).Shrinks := by
    refine Reader.Shrinks.bind ?_ _
    refine Reader.Shrinks.bind ?_ _
    refine Reader.Shrinks.bind ?_ _
    exact Reader.take_shrinks (by omega)
  unfold read at hr
  cases hu : (Reader.unitBytes e).run input with
  | error cause => simp [hu, bind, Except.bind] at hr
  | ok found =>
    obtain ⟨⟨format, unit⟩, rest'⟩ := found
    cases hc : (readContents e format).run unit with
    | error cause => simp [hu, hc, bind, Except.bind] at hr
    | ok contents =>
      simp only [hu, hc, bind, Except.bind, pure, Except.pure, Except.ok.injEq,
        Prod.mk.injEq] at hr
      rw [← hr.2]
      exact shrinks hu

end UnitHeader
end Info
end LineTable
