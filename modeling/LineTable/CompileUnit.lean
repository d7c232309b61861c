/-
Compile units as their root entries describe them.

Names of attributes and tags are the numbers of the debugging format.  A unit is
identified by its offset alone: two units at one offset are the same unit,
whatever their attributes.
-/
import LineTable.Text.Number

namespace LineTable

/-- The name of an attribute, as a number. -/
abbrev AttributeName := UInt16

/-- The kind of an entry, as a number. -/
abbrev Tag := UInt16

namespace AttributeName

def name : AttributeName := 0x03
def stmtList : AttributeName := 0x10
def lowPc : AttributeName := 0x11

end AttributeName

namespace Tag

def compileUnit : Tag := 0x11

end Tag

inductive AttributeValue where
  | address (value : UInt64)
  | unsigned (value : UInt64)
  | signed (value : Int64)
  /-- A place in another section. -/
  | sectionOffset (value : UInt64)
  | flag (value : Bool)
  | text (value : String)
deriving DecidableEq, Repr

namespace AttributeValue

/-- The value as an unsigned number, unless it is negative or a text. -/
def toUnsigned? : AttributeValue → Option UInt64
  | address value => some value
  | unsigned value => some value
  | sectionOffset value => some value
  | signed value => if 0 ≤ value then some value.toUInt64 else none
  | flag value => some (if value then 1 else 0)
  | text _ => none

def toText? : AttributeValue → Option String
  | text value => some value
  | _ => none

end AttributeValue

structure Attribute where
  name : AttributeName
  value : AttributeValue
deriving DecidableEq, Repr

structure CompileUnit where
  /-- Where the unit begins in its section. -/
  offset : UInt64
  tag : Tag
  attributes : List Attribute
deriving Repr

namespace CompileUnit

/-- Units are the same when their offsets are. -/
instance : BEq CompileUnit := ⟨fun a b => a.offset = b.offset⟩

def value? (u : CompileUnit) (name : AttributeName) : Option AttributeValue :=
  (u.attributes.find? (·.name = name)).map (·.value)

def lineProgramOffset? (u : CompileUnit) : Option UInt64 :=
  (u.value? .stmtList).bind (·.toUnsigned?)

def lowAddress? (u : CompileUnit) : Option UInt64 :=
  (u.value? .lowPc).bind (·.toUnsigned?)

def name? (u : CompileUnit) : Option String :=
  (u.value? .name).bind (·.toText?)

def text (u : CompileUnit) : String :=
  let place := s!"unit {Number.hex u.offset.toNat}"
  match u.name? with
  | some name => s!"{name} ({place})"
  | none => place

end CompileUnit
end LineTable
