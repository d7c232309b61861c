/-
Line programs and questions about their rows.

Rows keep the order in which the program recorded them, which need not be the
order of their addresses: the next row is always the one recorded next.  Two
indices, by address and by line, hold the rows of each key in that order too.
-/
import LineTable.Log
import LineTable.Program.Execution
import Std.Data.TreeMap

namespace LineTable

/-- Rows by a key, those of one key in the order in which they were recorded. -/
abbrev RowIndex (κ : Type) [Ord κ] := Std.TreeMap κ (List Row)

namespace RowIndex

variable {κ : Type} [Ord κ]

def ofRows (key : Row → κ) (rows : List Row) : RowIndex κ :=
  rows.foldr (fun row index => index.insert (key row) (row :: index.getD (key row) [])) ∅

end RowIndex

/-- A line program that has been run. -/
structure Program where
  header : Header
  rows : List Row
  /-- The files that the program itself named. -/
  definedFiles : List FileEntry
  byAddress : RowIndex UInt64
  byLine : RowIndex Int64

namespace Program

/-- The program that a machine has run to its end. -/
def ofMachine (h : Header) (m : Machine) : Program where
  header := h
  rows := m.rows.toList
  definedFiles := m.files.toList
  byAddress := RowIndex.ofRows (·.address) m.rows.toList
  byLine := RowIndex.ofRows (·.line) m.rows.toList

/-- Runs the opcode stream that follows a header. -/
def build (h : Header) (e : Endian) (code : Bytes) : Except LineError Program :=
  match Machine.run h e code (Machine.ofHeader h) with
  | .ok () m => .ok (ofMachine h m)
  | .error cause _ => .error cause

def rowsByAddress (p : Program) (address : UInt64) : List Row := p.byAddress.getD address []

def rowsByLine (p : Program) (line : Int64) : List Row := p.byLine.getD line []

def row? (p : Program) (position : Nat) : Option Row := p.rows[position]?

def rowsFrom (p : Program) (position : Nat) : List Row := p.rows.drop position

/-- The row recorded after this one. -/
def next? (p : Program) (row : Row) : Option Row := p.rows[row.position + 1]?

/-- The rows recorded after this one. -/
def rowsAfter (p : Program) (row : Row) : List Row := p.rowsFrom (row.position + 1)

/-- The file of a number.  Numbers count from one through the header's files and
then through those the program named. -/
def fileOf? (p : Program) (file : UInt64) : Option FileEntry :=
  if file = 0 then none
  else
    let index := file.toNat - 1
    match p.header.files[index]? with
    | some entry => some entry
    | none => p.definedFiles[index - p.header.files.length]?

/-- The include directory of a file.  Directories count from one. -/
def directory? (p : Program) (entry : FileEntry) : Option String :=
  if entry.directoryIndex = 0 then none
  else p.header.directories[entry.directoryIndex.toNat - 1]?

/-- The path of a file, within its directory unless it begins with a slash. -/
def filePath? (p : Program) (file : UInt64) : Option String := do
  let entry ← p.fileOf? file
  match p.directory? entry with
  | some directory =>
    if entry.path.toList.head? = some '/' then return entry.path
    else return directory ++ "/" ++ entry.path
  | none => return entry.path

/-- What is noticed when a program has been run. -/
def record (p : Program) : Log.Record where
  level := .debug
  message :=
    let offset := Number.hex p.header.offset.toNat
    let rows := p.rows.length
    let files := p.definedFiles.length
    s!"Decoded line program at {offset}: {rows} rows, {files} defined files"

end Program
end LineTable
