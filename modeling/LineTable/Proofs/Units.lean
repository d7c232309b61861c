/-
The walk over the units of a section.

What follows a unit is the section from the end of the unit on.  So at every step the place
of the next unit and what is left of the section fit together, and units that one finds by
walking are units that one finds by their place.
-/
import LineTable.Loader
import LineTable.Proofs.Yields

namespace LineTable

namespace Info.UnitHeader

variable {e : Endian} {input rest : Bytes} {h : UnitHeader}

theorem exists_append_of_read (hread : read e input = .ok (h, rest)) :
    ∃ taken, input = taken ++ rest := by
  unfold read at hread
  obtain ⟨⟨⟨format, unit⟩, behind⟩, hunit, hread⟩ := exists_ok_of_bind hread
  obtain ⟨⟨⟨encoding, abbreviations⟩, entries⟩, -, hread⟩ := exists_ok_of_bind hread
  cases hread
  obtain ⟨taken, htaken, -⟩ := (Reader.unitBytes e).run_append hunit
  exact ⟨taken, htaken⟩

/-- What follows a unit in a section begins where the unit ends. -/
theorem drop_of_read {units : Bytes} {offset : Nat}
    (hread : read e (units.drop offset) = .ok (h, rest)) :
    units.drop (offset + ((units.drop offset).length - rest.length)) = rest := by
  obtain ⟨taken, hinput⟩ := exists_append_of_read hread
  rw [← List.drop_drop, hinput, List.length_append, Nat.add_sub_cancel, List.drop_left]

end Info.UnitHeader

/-- Sections that resolve values alike give the same attributes. -/
theorem Info.attributes_congr {s s' : Sections} (hresolve : resolve s = resolve s') (c : Encoding)
    (root : RootEntry) (values : List (AttributeName × FormValue)) :
    attributes s c root values = attributes s' c root values := by
  induction values with
  | nil => rfl
  | cons first rest ih => rw [attributes, attributes, ih, hresolve]

namespace Loader

open Info

variable {s : Sections}

theorem readUnits_eq (offset : Nat) (input : Bytes) :
    readUnits s offset input =
      if input.isEmpty then .ok []
      else
        match UnitHeader.read s.endian input with
        | .error cause => .error (.header cause)
        | .ok (h, rest) => do
          let unit ← readUnit s offset h
          let others ← readUnits s (offset + (input.length - rest.length)) rest
          return unit :: others := by
  rw [readUnits]
  split
  · rfl
  · split
    · rename_i hheader
      rw [hheader]
    · rename_i hheader
      rw [hheader]

theorem offset_of_readUnit {offset : Nat} {h : UnitHeader} {u : CompileUnit}
    (hunit : readUnit s offset h = .ok u) : u.offset = UInt64.ofNat offset := by
  unfold readUnit at hunit
  obtain ⟨root, -, hunit⟩ := exists_ok_of_bind hunit
  obtain ⟨kept, -, hunit⟩ := exists_ok_of_bind hunit
  cases hunit
  rfl

/-! ## Loaded files -/

section

variable {ε : Type} {read : Bytes → Except ε (Binary ε)} {file : Bytes} {b : Binary ε}

theorem loadWith_of_sections_error {cause : LoadError ε} (hfile : read file = .ok b)
    (hsections : sections b = .error cause) : loadWith read file = .error cause := by
  rw [loadWith, hfile]
  show (sections b >>= _) = _
  rw [hsections]
  rfl

theorem loadWith_eq (hfile : read file = .ok b) (hsections : sections b = .ok s) :
    loadWith read file = (readUnits s 0 s.units).mapError .units >>= fun units =>
      .ok (AddressMap.ofParts units ⟨s.lines, s.endian⟩) := by
  rw [loadWith, hfile]
  show (sections b >>= _) = _
  rw [hsections]
  rfl

/-- The units of a loaded file are those that the walk finds. -/
theorem map_loadWith (hfile : read file = .ok b) (hsections : sections b = .ok s) :
    (loadWith read file).map (·.units.units) = (readUnits s 0 s.units).mapError .units := by
  rw [loadWith_eq hfile hsections]
  cases readUnits s 0 s.units <;> rfl

end

end Loader

/-! ## Small files -/

/-- An entry of the section table of a COFF file, whose numbers are below 256.  A section has
its size in memory if the file is an image. -/
def coffEntry (image : Bool) (name : String) (size offset : Nat) : Bytes :=
  let field := Bytes.ofAscii name
  field ++ List.replicate (8 - field.length) 0 ++
    Endian.little.encode 4 (if image then size else 0) ++ List.replicate 4 0 ++
    Endian.little.encode 4 size ++ Endian.little.encode 4 offset ++ List.replicate 15 0 ++ [0x42]

/-- A COFF header behind `start` bytes, an optional header, and three sections, whose names
stand in the string table behind them. -/
def coffParts (image : Bool) (start : Nat) (optional abbreviations units lines : Bytes) : Bytes :=
  let abbreviationsAt := start + 140 + optional.length
  let unitsAt := abbreviationsAt + abbreviations.length
  let linesAt := unitsAt + units.length
  [0x64, 0x86, 3, 0, 0, 0, 0, 0] ++ Endian.little.encode 4 (linesAt + lines.length) ++
    List.replicate 4 0 ++ Endian.little.encode 2 optional.length ++ List.replicate 2 0 ++
    optional ++
    coffEntry image "/4" abbreviations.length abbreviationsAt ++
    coffEntry image "/18" units.length unitsAt ++ coffEntry image "/30" lines.length linesAt ++
    abbreviations ++ units ++ lines ++ [42, 0, 0, 0] ++
    Bytes.ofAscii ".debug_abbrev" ++ [0] ++ Bytes.ofAscii ".debug_info" ++ [0] ++
    Bytes.ofAscii ".debug_line" ++ [0]

/-- A COFF file of these sections. -/
def coffFile (abbreviations units lines : Bytes) : Bytes :=
  coffParts false 0 [] abbreviations units lines

/-- A PE file of these sections, with a wide optional header. -/
def peFile (abbreviations units lines : Bytes) : Bytes :=
  Bytes.ofAscii "MZ" ++ List.replicate 58 0 ++ Endian.little.encode 4 64 ++
    Bytes.ofAscii "PE" ++ [0, 0] ++
    coffParts true 68 ([0x0B, 2] ++ List.replicate 110 0) abbreviations units lines

end LineTable
