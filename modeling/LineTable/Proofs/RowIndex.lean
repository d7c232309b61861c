/-
What the indices of a program hold.

The rows under a key are the rows of the program with that key, in the order of the
program.  A program is only ever built from the rows of a machine, so this is true of
every program that a section decodes to (`indexed_of_decode`).
-/
import LineTable.LineSection
import LineTable.Proofs.Yields

namespace LineTable

namespace RowIndex

variable {κ : Type} [Ord κ] [Std.TransOrd κ] [Std.LawfulEqOrd κ] [DecidableEq κ]

theorem getD_ofRows (key : Row → κ) (rows : List Row) (k : κ) :
    (ofRows key rows).getD k [] = rows.filter (key · = k) := by
  induction rows with
  | nil => simp [ofRows]
  | cons row rest ih =>
    have hrest : ofRows key (row :: rest) = (ofRows key rest).insert (key row)
        (row :: (ofRows key rest).getD (key row) []) := rfl
    rw [hrest, Std.TreeMap.getD_insert, List.filter_cons]
    by_cases hkey : key row = k
    · subst hkey
      simp [ih]
    · simp [hkey, ih]

end RowIndex

namespace Program

/-- Both indices of a program agree with its rows. -/
structure Indexed (p : Program) : Prop where
  byAddress (address : UInt64) : p.rowsByAddress address = p.rows.filter (·.address = address)
  byLine (line : Int64) : p.rowsByLine line = p.rows.filter (·.line = line)

theorem indexed_ofMachine (h : Header) (m : Machine) : (ofMachine h m).Indexed where
  byAddress := RowIndex.getD_ofRows _ _
  byLine := RowIndex.getD_ofRows _ _

theorem indexed_of_build {h : Header} {e : Endian} {code : Bytes} {p : Program}
    (hbuild : build h e code = .ok p) : p.Indexed := by
  rw [build] at hbuild
  split at hbuild
  · rename_i m _
    rw [← Except.ok.inj hbuild]
    exact indexed_ofMachine h m
  · contradiction

end Program

namespace LineSection

/-- What a section decodes to was built from a header and an opcode stream, read from the
bytes at its offset. -/
theorem exists_read_of_decode {s : LineSection} {offset : UInt64} {p : Program}
    (hdecode : s.decode offset = .ok p) :
    ∃ h code, Header.read s.endian offset (s.bytes.drop offset.toNat) = .ok (h, code) ∧
      Program.build h s.endian code = .ok p := by
  by_cases hin : s.contains offset
  · rw [decode, bytesFrom?_eq, if_pos hin] at hdecode
    obtain ⟨⟨h, code⟩, hread, hbuild⟩ := exists_ok_of_bind hdecode
    exact ⟨h, code, hread, hbuild⟩
  · rw [decode_outside hin] at hdecode
    contradiction

/-- A section decodes to programs whose indices are right. -/
theorem indexed_of_decode {s : LineSection} {offset : UInt64} {p : Program}
    (hdecode : s.decode offset = .ok p) : p.Indexed := by
  obtain ⟨h, code, -, hbuild⟩ := exists_read_of_decode hdecode
  exact Program.indexed_of_build hbuild

end LineSection
end LineTable
