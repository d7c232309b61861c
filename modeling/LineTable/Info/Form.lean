/-
Forms: how the values of attributes are stored.

Blocks and references are read past and dropped.  Numbers of four or eight bytes
were section offsets before there was a form for those, so for the attributes
that hold offsets they still are, if they have the width of one.
-/
import LineTable.Info.Abbreviation
import LineTable.Info.UnitHeader

namespace LineTable
namespace Info

/-- A value as it is stored. -/
inductive FormValue where
  | address (value : UInt64)
  | addressIndex (index : Nat)
  | unsigned (value : UInt64)
  | signed (value : Int64)
  | flag (value : Bool)
  | sectionOffset (offset : Nat)
  | text (bytes : Bytes)
  /-- A text at an offset of the string section. -/
  | textAt (offset : Nat)
  /-- A text at an offset of the section of line strings. -/
  | lineTextAt (offset : Nat)
  | textIndex (index : Nat)
  /-- A text in another file, which is not at hand. -/
  | elsewhere
  | dropped
deriving DecidableEq, Repr

/-- Whether an attribute holds a section offset. -/
def holdsOffset (name : AttributeName) (version : Nat) : Bool :=
  [0x02, 0x10, 0x19, 0x2A, 0x2C, 0x40, 0x43, 0x46, 0x48, 0x4A, 0x4D, 0x55, 0x79].contains name ||
    (name = 0x38 && (version = 2 || version = 3))

namespace FormValue

open Reader

def unsignedOf (n : Nat) : FormValue := unsigned (UInt64.ofNat n)

/-- Reads past a run of bytes whose length comes first. -/
def block (length : Reader Nat) : Reader FormValue := do
  let _ ← take (← length)
  return dropped

def varying : Reader Nat := do return (← Leb128.unsigned).toNat

/-- A number of the width of an offset, which is one if the attribute holds offsets. -/
def offsetOrNumber (c : Encoding) (name : AttributeName) (format : Format) : Reader FormValue := do
  let n ← c.number format.wordSize
  if c.format = format && holdsOffset name c.version then return sectionOffset n
  else return unsignedOf n

/-- Reads past a value. -/
def drop (value : Reader Nat) : Reader FormValue := do
  let _ ← value
  return dropped

/-- A value of a form. -/
def readDirect (c : Encoding) (shape : AttributeShape) (form : UInt16) : Reader FormValue :=
  match form with
  | 0x01 => address <$> Reader.address c.endian c.addressSize
  | 0x03 => block (c.number 2)
  | 0x04 => block (c.number 4)
  | 0x05 => unsignedOf <$> c.number 2
  | 0x06 => offsetOrNumber c shape.name .dwarf32
  | 0x07 => offsetOrNumber c shape.name .dwarf64
  | 0x08 => text <$> zeroTerminated
  | 0x09 => block varying
  | 0x0A => block (c.number 1)
  | 0x0B => unsignedOf <$> c.number 1
  | 0x0C => (fun n => flag (n != 0)) <$> c.number 1
  | 0x0D => signed <$> Leb128.signed
  | 0x0E => textAt <$> c.word
  | 0x0F => unsigned <$> Leb128.unsigned
  | 0x10 => drop (if c.version = 2 then c.number c.addressSize else c.word)
  | 0x11 => drop (c.number 1)
  | 0x12 => drop (c.number 2)
  | 0x13 => drop (c.number 4)
  | 0x14 => drop (c.number 8)
  | 0x15 => drop varying
  | 0x17 => sectionOffset <$> c.word
  | 0x18 => block varying
  | 0x19 => pure (flag true)
  | 0x1A => textIndex <$> varying
  | 0x1B => addressIndex <$> varying
  | 0x1C => drop (c.number 4)
  | 0x1D => (fun _ => elsewhere) <$> c.word
  | 0x1E => drop (c.number 16)
  | 0x1F => lineTextAt <$> c.word
  | 0x20 => drop (c.number 8)
  | 0x21 =>
    match shape.constant with
    | some value => pure (signed value)
    | none => fail .implicitConstant
  | 0x22 => drop varying
  | 0x23 => drop varying
  | 0x24 => drop (c.number 8)
  | 0x25 => textIndex <$> c.number 1
  | 0x26 => textIndex <$> c.number 2
  | 0x27 => textIndex <$> c.number 3
  | 0x28 => textIndex <$> c.number 4
  | 0x29 => addressIndex <$> c.number 1
  | 0x2A => addressIndex <$> c.number 2
  | 0x2B => addressIndex <$> c.number 3
  | 0x2C => addressIndex <$> c.number 4
  | 0x1F01 => addressIndex <$> varying
  | 0x1F02 => textIndex <$> varying
  | 0x1F20 => drop c.word
  | 0x1F21 => (fun _ => elsewhere) <$> c.word
  | _ => fail .unknownForm

/-- The form of values that begin with their own form. -/
def indirect : UInt16 := 0x16

/-- The form that stands before a value. -/
def readForm : Reader UInt16 :=
  iterate
    (fun _ => do
      let form ← Leb128.unsigned16
      return if form = indirect then .inl () else .inr form)
    (fun _ => Shrinks.bind Leb128.unsigned16_shrinks _) ()

/-- The value of an attribute of a shape. -/
def read (c : Encoding) (shape : AttributeShape) : Reader FormValue := do
  let form ← if shape.form = indirect then readForm else pure shape.form
  readDirect c shape form

end FormValue

/-- What the numbers of an attribute are. -/
inductive NumberClass where
  /-- A quantity. -/
  | quantity
  /-- A code, unless it is greater than any code can be. -/
  | code (limit : UInt64)
deriving DecidableEq, Repr

namespace NumberClass

def ofName? (name : AttributeName) : Option NumberClass :=
  if [0x0B, 0x0C, 0x0D, 0x12, 0x2E, 0x38, 0x39, 0x3B, 0x51, 0x57, 0x59].contains name
  then some quantity
  else if [0x09, 0x17, 0x20, 0x32, 0x36, 0x3E, 0x42, 0x4C, 0x5E, 0x65].contains name
  then some (code 0xFF)
  else if name = 0x13 then some (code 0xFFFF)
  else if [0x33, 0x3A, 0x58, 0x2131].contains name then some (code 0xFFFFFFFFFFFFFFFF)
  else none

end NumberClass

/-- The attributes whose section offsets lead to lists, macros and bases, which are not
kept. -/
def offsetsNotKept : List AttributeName :=
  [0x02, 0x19, 0x2A, 0x2C, 0x38, 0x40, 0x43, 0x46, 0x48, 0x4A, 0x4D, 0x55, 0x72, 0x73, 0x74, 0x79,
    0x8C, 0x2132, 0x2133]

namespace FormValue

/-- A number without its sign, unless it is negative. -/
def magnitude? : FormValue → Option UInt64
  | unsigned value => some value
  | signed value => if 0 ≤ value then some value.toUInt64 else none
  | _ => none

/-- What is kept of a value.  Codes and the offsets of lists are not, and quantities
lose the way in which they were stored. -/
def kept (name : AttributeName) (v : FormValue) : FormValue :=
  match v with
  | sectionOffset _ => if offsetsNotKept.contains name then dropped else v
  | _ =>
    match NumberClass.ofName? name, v.magnitude? with
    | some .quantity, some n => unsigned n
    | some (.code limit), some n => if n ≤ limit then dropped else v
    | _, _ => v

end FormValue
end Info
end LineTable
