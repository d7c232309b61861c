/-
The compile units of a binary and an index of them by lowest address.

High addresses play no part: a unit covers all addresses from its lowest up to
the lowest of the next.
-/
import LineTable.CompileUnit
import LineTable.Log

namespace LineTable

/-- Units by lowest address, the highest first. -/
abbrev LowAddresses := List (UInt64 × CompileUnit)

namespace LowAddresses

/-- Puts a unit in its place.  It replaces a unit of the same lowest address. -/
def insert (low : UInt64) (u : CompileUnit) : LowAddresses → LowAddresses
  | [] => [(low, u)]
  | (key, other) :: rest =>
    if key < low then (low, u) :: (key, other) :: rest
    else if key = low then (low, u) :: rest
    else (key, other) :: insert low u rest

/-- Only compile units with a lowest address are indexed. -/
def add (index : LowAddresses) (u : CompileUnit) : LowAddresses :=
  if u.tag = .compileUnit then
    match u.lowAddress? with
    | some low => index.insert low u
    | none => index
  else index

end LowAddresses

structure UnitIndex where
  units : List CompileUnit
  byLowAddress : LowAddresses

namespace UnitIndex

/-- Indexes units.  Of two with the same lowest address the later one counts. -/
def ofUnits (units : List CompileUnit) : UnitIndex where
  units := units
  byLowAddress := units.foldl LowAddresses.add []

def indexedCount (index : UnitIndex) : Nat := index.byLowAddress.length

/-- The unit with the greatest lowest address that is not above `address`. -/
def covering? (index : UnitIndex) (address : UInt64) : Option CompileUnit :=
  (index.byLowAddress.find? (·.1 ≤ address)).map (·.2)

def atOffset? (index : UnitIndex) (offset : UInt64) : Option CompileUnit :=
  index.units.find? (·.offset = offset)

/-- Whether a path ends in `/` and then `name`. -/
def endsInName (path name : String) : Bool :=
  ('/' :: name.toList).isSuffixOf path.toList

/-- The first unit of exactly this name, or else the first whose name ends in it
after a slash. -/
def named? (index : UnitIndex) (name : String) : Option CompileUnit :=
  (index.units.find? fun u => u.name? = some name).or
    (index.units.find? fun u => u.name?.any (endsInName · name))

/-- What is noticed when units are indexed. -/
def log (index : UnitIndex) : Log :=
  let unindexed := index.units.filter fun u => u.tag = .compileUnit && u.lowAddress?.isNone
  let indexed := index.indexedCount
  let total := index.units.length
  unindexed.map (fun u => ⟨.debug, s!"{u.text} has no DW_AT_low_pc, not address indexed"⟩) ++
    [⟨.debug, s!"Indexed {indexed} of {total} compilation units by address"⟩]

end UnitIndex
end LineTable
