/-
From addresses to source lines and back.

A map answers the questions of a debugger: which addresses a line was compiled
to, which lines an address came from, and where the statement at a place and the
next one begin.  Statements are sought in the order in which the program recorded
its rows.  An answer carries the map with the programs decoded for it, and what
was noticed on the way.
-/
import LineTable.ProgramStore
import LineTable.SourceLine
import LineTable.UnitIndex

namespace LineTable

structure AddressMap where
  units : UnitIndex
  programs : ProgramStore

structure Answer (α : Type) where
  value : α
  /-- The map to ask the next question of. -/
  map : AddressMap
  log : Log

namespace Answer

def restate {α β : Type} (f : α → β) (a : Answer α) : Answer β := ⟨f a.value, a.map, a.log⟩

end Answer

/-- Stands for the absence of an address. -/
def noAddress : UInt64 := 0

namespace Program

/-- The address of the statement that a row belongs to: the first one from it on. -/
def statementFrom (p : Program) (row : Row) : UInt64 :=
  match (p.rowsFrom row.position).find? (·.isStatement) with
  | some found => found.address
  | none => noAddress

/-- The address of the first statement after a row that lies elsewhere. -/
def statementAfter (p : Program) (row : Row) : UInt64 :=
  match (p.rowsAfter row).find? fun r => r.isStatement && r.address != row.address with
  | some found => found.address
  | none => noAddress

end Program

namespace AddressMap

def ofParts (units : List CompileUnit) (lines : LineSection) : AddressMap :=
  ⟨UnitIndex.ofUnits units, ProgramStore.ofSection lines⟩

def program (m : AddressMap) (u : CompileUnit) : Answer (Option Program) :=
  match u.lineProgramOffset? with
  | none => ⟨none, m, [⟨.debug, s!"{u.text} has no DW_AT_stmt_list"⟩]⟩
  | some offset =>
    let found := m.programs.lookup offset
    ⟨found.program, { m with programs := found.store }, found.log⟩

/-- The line program of a source line's unit. -/
def programOfLine (m : AddressMap) (l : SourceLine) : Answer (Option Program) :=
  match l.unit.compileUnit with
  | .ok unit => m.program unit
  | .error cause => ⟨none, m, [⟨.warn, s!"Cannot map {l.text}: {cause.message}"⟩]⟩

/-- The addresses of the rows of a line. -/
def addressesOf (l : SourceLine) (p : Program) : List (Interval UInt64) :=
  Interval.ofAddresses (((p.rowsByLine l.line).map (·.address)).mergeSort)

/-- The lines of the rows at an address. -/
def linesOf (u : CompileUnit) (address : UInt64) (p : Program) : List SourceLines :=
  (Interval.ofLines (((p.rowsByAddress address).map (·.line)).mergeSort)).map
    fun lines => ⟨.described u, lines⟩

/-- The intervals of addresses that a line was compiled to, ascending. -/
def addressesForLine (m : AddressMap) (l : SourceLine) : Answer (List (Interval UInt64)) :=
  (m.programOfLine l).restate fun p? => (p?.map (addressesOf l)).getD []

/-- The runs of lines with a row at exactly this address, ascending. -/
def linesForAddress (m : AddressMap) (address : UInt64) : Answer (List SourceLines) :=
  match m.units.covering? address with
  | none =>
    ⟨[], m, [⟨.debug, s!"No compilation unit covers {Number.hex address.toNat}"⟩]⟩
  | some u => (m.program u).restate fun p? => (p?.map (linesOf u address)).getD []

/-- The program of a location, and the first row there. -/
def start (m : AddressMap) : Location → Answer (Option (Program × Row))
  | .address address =>
    match m.units.covering? address with
    | none => ⟨none, m, []⟩
    | some u => (m.program u).restate fun p? => p?.bind fun p =>
      (p.rowsByAddress address).head?.map fun row => (p, row)
  | .line l =>
    (m.programOfLine l).restate fun p? => p?.bind fun p =>
      (p.rowsByLine l.line).head?.map fun row => (p, row)

def statement (m : AddressMap) (place : Location) : Answer UInt64 :=
  (m.start place).restate fun
    | some (p, row) => p.statementFrom row
    | none => noAddress

def nextStatement (m : AddressMap) (place : Location) : Answer UInt64 :=
  (m.start place).restate fun
    | some (p, row) => p.statementAfter row
    | none => noAddress

end AddressMap
end LineTable
