/-
Line programs that are decoded once.

A store has a cell for every offset that was looked up in its section.  A cell is
made first and takes the outcome of decoding its offset afterwards, a failure as
much as a success.  No cell ever holds anything else, so an answer never depends
on the lookups before it.
-/
import LineTable.LineSection

namespace LineTable

/-- The place of an outcome, which is empty until decoding has completed. -/
abbrev Cell := Option (Option Program)

/-- A section of line programs with the outcomes of the lookups so far. -/
structure ProgramStore where
  lines : LineSection
  cells : List (UInt64 × Cell)
  /-- A cell's offset lies in the section, and an outcome is what the offset decodes to. -/
  sound : ∀ entry ∈ cells, lines.contains entry.1 ∧
    ∀ outcome ∈ entry.2, outcome = (lines.decode entry.1).toOption
  /-- No offset has two cells. -/
  nodup : (cells.map Prod.fst).Nodup

structure Lookup where
  program : Option Program
  store : ProgramStore
  log : Log

namespace ProgramStore

/-- The store before the first lookup. -/
def ofSection (lines : LineSection) : ProgramStore where
  lines := lines
  cells := []
  sound := by simp
  nodup := by simp

/-- The number of cells, empty ones included. -/
def count (s : ProgramStore) : Nat := s.cells.length

/-- The number of cells that hold an outcome. -/
def decodedCount (s : ProgramStore) : Nat := s.cells.countP (·.2.isSome)

def find? (s : ProgramStore) (offset : UInt64) : Option (UInt64 × Cell) :=
  s.cells.find? (·.1 = offset)

theorem find?_eq_none {s : ProgramStore} {offset : UInt64} (h : s.find? offset = none) :
    offset ∉ s.cells.map Prod.fst := by
  simp only [find?, List.find?_eq_none, decide_eq_true_eq] at h
  simp only [List.mem_map, not_exists, not_and]
  exact h

/-- What the cell of an offset holds.  An offset without a cell has no outcome. -/
def outcome? (s : ProgramStore) (offset : UInt64) : Option (Option Program) :=
  (s.find? offset).bind (·.2)

/-- What decoding an offset is noticed by. -/
def recordOf (offset : UInt64) : Except LineError Program → Log.Record
  | .ok program => program.record
  | .error cause => ⟨.warn, s!"No line program at {Number.hex offset.toNat}: {cause.message}"⟩

def outsideRecord (s : ProgramStore) (offset : UInt64) : Log.Record where
  level := .warn
  message :=
    let place := Number.hex offset.toNat
    s!"No line program at {place}: outside .debug_line ({s.lines.size} bytes)"

/-- Makes an empty cell for an offset that has none. -/
def reserve (s : ProgramStore) (offset : UInt64) (hin : s.lines.contains offset) :
    ProgramStore :=
  match hfind : s.find? offset with
  | some _ => s
  | none =>
    { lines := s.lines
      cells := (offset, none) :: s.cells
      sound := by
        intro entry hentry
        rcases List.mem_cons.1 hentry with rfl | hold
        · exact ⟨hin, by simp⟩
        · exact s.sound entry hold
      nodup := by simpa using ⟨by simpa using find?_eq_none hfind, s.nodup⟩ }

/-- Puts the outcome of decoding an offset in its cell. -/
def complete (s : ProgramStore) (offset : UInt64) : ProgramStore where
  lines := s.lines
  cells := s.cells.map fun entry =>
    if entry.1 = offset then (offset, some (s.lines.decode offset).toOption) else entry
  sound := by
    intro entry hentry
    obtain ⟨old, hold, rfl⟩ := List.mem_map.1 hentry
    split
    · rename_i hkey
      exact ⟨hkey ▸ (s.sound old hold).1, by simp⟩
    · exact s.sound old hold
  nodup := by
    have hkeys : (fun entry : UInt64 × Cell => (if entry.1 = offset then
        (offset, some (s.lines.decode offset).toOption) else entry).1) = Prod.fst := by
      funext entry
      split <;> simp [*]
    rw [List.map_map, Function.comp_def, hkeys]
    exact s.nodup

/-- The program at an offset.  Offsets outside the section leave the store alone. -/
def lookup (s : ProgramStore) (offset : UInt64) : Lookup :=
  if hin : s.lines.contains offset then
    let held := s.reserve offset hin
    match held.outcome? offset with
    | some program => ⟨program, held, []⟩
    | none =>
      let outcome := held.lines.decode offset
      ⟨outcome.toOption, held.complete offset, [recordOf offset outcome]⟩
  else ⟨none, s, [s.outsideRecord offset]⟩

def clear (s : ProgramStore) : ProgramStore := ofSection s.lines

def clearRecord (s : ProgramStore) : Log.Record :=
  ⟨.debug, s!"Clearing {s.decodedCount} cached line programs"⟩

def summary (s : ProgramStore) : String :=
  let endian := match s.lines.endian with
    | .little => "Little"
    | .big => "Big"
  s!"DebugLine \x7b len: {s.lines.size}, endian: {endian}, decoded: {s.decodedCount} \x7d"

end ProgramStore
end LineTable
