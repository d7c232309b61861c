/-
Abbreviations: the shapes that the entries of a unit have.
-/
import LineTable.CompileUnit
import LineTable.Leb128

namespace LineTable
namespace Info

/-- The name of an attribute and the form in which its value is stored. -/
structure AttributeShape where
  name : AttributeName
  form : UInt16
  /-- The value of a form that stores it here. -/
  constant : Option Int64
deriving DecidableEq, Repr

/-- The shape of the entries that begin with a code. -/
structure Abbreviation where
  code : UInt64
  tag : Tag
  attributes : List AttributeShape
deriving DecidableEq, Repr

namespace Abbreviation

open Reader

/-- The form of values that are stored with their shape. -/
def implicitConstant : UInt16 := 0x21

/-- The next attribute of a shape, behind those already read.  Two zeros end them. -/
def attributeStep (done : List AttributeShape) :
    Reader (List AttributeShape ⊕ List AttributeShape) := do
  let name ← Leb128.unsigned16
  let form ← Leb128.unsigned16
  if name = 0 then
    if form = 0 then return .inr done.reverse else fail .expectedZero
  else if form = 0 then fail .attributeFormZero
  else if form = implicitConstant then
    return .inl (⟨name, form, some (← Leb128.signed)⟩ :: done)
  else return .inl (⟨name, form, none⟩ :: done)

theorem attributeStep_shrinks (done : List AttributeShape) : (attributeStep done).Shrinks :=
  Shrinks.bind Leb128.unsigned16_shrinks _

def attributeShapes : Reader (List AttributeShape) := iterate attributeStep attributeStep_shrinks []

/-- The next abbreviation, behind those already read.  A zero ends them. -/
def step (done : List Abbreviation) : Reader (List Abbreviation ⊕ List Abbreviation) := do
  let code ← Leb128.unsigned
  if code = 0 then return .inr done.reverse
  else
    let tag ← Leb128.unsigned16
    if tag = 0 then fail .abbreviationTagZero
    else
      let children ← byte
      if 1 < children then fail .hasChildren
      else
        let attributes ← attributeShapes
        if done.any (·.code = code) then fail .duplicateAbbreviation
        else return .inl (⟨code, tag, attributes⟩ :: done)

theorem step_shrinks (done : List Abbreviation) : (step done).Shrinks :=
  Shrinks.bind Leb128.unsigned_shrinks _

/-- All abbreviations of a unit.  No code may be used twice. -/
def readAll : Reader (List Abbreviation) := iterate step step_shrinks []

end Abbreviation
end Info
end LineTable
