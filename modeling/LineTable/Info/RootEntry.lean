/-
The root entry of a unit, which describes the unit as a whole.

Its values are read first, since some of them are bases that others are resolved
against.  Texts and addresses that are stored in other sections are looked up
there.
-/
import LineTable.Info.LineHeader

namespace LineTable
namespace Info

/-- The sections that units and their values are read from. -/
structure Sections where
  endian : Endian
  abbreviations : Bytes
  addresses : Bytes
  units : Bytes
  lines : Bytes
  lineTexts : Bytes
  texts : Bytes
  textOffsets : Bytes
deriving Repr

/-- Reads a value at an offset of a section. -/
def readAt {α : Type} (bytes : Bytes) (offset : Nat) (r : Reader α) : Except ReadError α :=
  if bytes.length < offset then .error .endOfInput
  else (r.run (bytes.drop offset)).map (·.1)

structure RootEntry where
  tag : Tag
  values : List (AttributeName × FormValue)
deriving Repr

namespace RootEntry

/-- The first code that is not zero, and what follows it. -/
def firstCode : Bytes → Except ReadError (UInt64 × Bytes)
  | [] => .error .missingRoot
  | b :: rest =>
    match _hcode : Leb128.unsigned.run (b :: rest) with
    | .error cause => .error cause
    | .ok (code, rest') => if code = 0 then firstCode rest' else .ok (code, rest')
termination_by entries => entries.length
decreasing_by exact Leb128.unsigned_shrinks _hcode

/-- The values of attributes of some shapes. -/
def readValues (c : Encoding) : List AttributeShape → Reader (List (AttributeName × FormValue))
  | [] => pure []
  | shape :: shapes => do
    let value ← FormValue.read c shape
    let others ← readValues c shapes
    return (shape.name, value) :: others

def read (h : UnitHeader) (abbreviations : List Abbreviation) : Except ReadError RootEntry := do
  let (code, rest) ← firstCode h.entries
  match abbreviations.find? (·.code = code) with
  | none => throw .unknownAbbreviation
  | some shape =>
    let (values, _) ← (readValues h.encoding shape.attributes).run rest
    return ⟨shape.tag, values⟩

/-- The last section offset that one of some attributes holds. -/
def lastOffset? (root : RootEntry) (names : List AttributeName) : Option Nat :=
  (root.values.filterMap fun (name, value) =>
    match value with
    | .sectionOffset offset => if names.contains name then some offset else none
    | _ => none).getLast?

/-- The last value of an attribute. -/
def lastValue? (root : RootEntry) (name : AttributeName) : Option FormValue :=
  (root.values.filter (·.1 = name)).getLast?.map (·.2)

/-- Where the unit's text offsets begin. -/
def textBase (root : RootEntry) : Nat := (root.lastOffset? [0x72]).getD 0

/-- Where the unit's addresses begin. -/
def addressBase (root : RootEntry) : Nat := (root.lastOffset? [0x73, 0x2133]).getD 0

end RootEntry

def addressByIndex (s : Sections) (c : Encoding) (root : RootEntry) (index : Nat) :
    Except ReadError UInt64 :=
  readAt s.addresses (root.addressBase + index * c.addressSize)
    (Reader.address c.endian c.addressSize)

def textAt (bytes : Bytes) (offset : Nat) : Except ReadError Bytes :=
  readAt bytes offset Reader.zeroTerminated

/-- The attribute value that a stored value stands for, if it is kept. -/
def resolve (s : Sections) (c : Encoding) (root : RootEntry) :
    FormValue → Except ReadError (Option AttributeValue)
  | .address value => .ok (some (.address value))
  | .addressIndex index => do return some (.address (← addressByIndex s c root index))
  | .unsigned value => .ok (some (.unsigned value))
  | .signed value => .ok (some (.signed value))
  | .flag value => .ok (some (.flag value))
  | .sectionOffset offset => .ok (some (.sectionOffset (UInt64.ofNat offset)))
  | .text bytes => .ok (some (.text (Utf8.decode bytes)))
  | .textAt offset => do return some (.text (Utf8.decode (← textAt s.texts offset)))
  | .lineTextAt offset => do return some (.text (Utf8.decode (← textAt s.lineTexts offset)))
  | .textIndex index => do
    let offset ← readAt s.textOffsets (root.textBase + index * c.format.wordSize) c.word
    return some (.text (Utf8.decode (← textAt s.texts offset)))
  | .elsewhere => .error .expectedString
  | .dropped => .ok none

/-- Reads a unit's root entry and checks what the unit refers to: the header of its line
program and its lowest address. -/
def readRoot (s : Sections) (h : UnitHeader) : Except ReadError RootEntry := do
  let abbreviations ← readAt s.abbreviations h.abbreviations Abbreviation.readAll
  let root ← RootEntry.read h abbreviations
  match root.lastOffset? [AttributeName.stmtList] with
  | some offset => readAt s.lines offset (LineHeader.read s.endian h.encoding.addressSize)
  | none => pure ()
  match root.lastValue? .lowPc with
  | some (.addressIndex index) =>
    let _ ← addressByIndex s h.encoding root index
  | _ => pure ()
  return root

/-- The attributes that are kept of a root entry. -/
def attributes (s : Sections) (c : Encoding) (root : RootEntry) :
    List (AttributeName × FormValue) → Except ReadError (List Attribute)
  | [] => .ok []
  | (name, value) :: rest => do
    let kept? ← resolve s c root (value.kept name)
    let others ← attributes s c root rest
    return match kept? with
      | some kept => ⟨name, kept⟩ :: others
      | none => others

end Info
end LineTable
