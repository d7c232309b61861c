/-
The rows of a program in one pass.

A row carries the number of rows recorded before it, and both indices are made from the rows
once they are all recorded.  So what a program answers about its rows is what one finds by
going through them from the first on: `rows_scanned` says so for a row's neighbours, for the
rows from a position on, and for the rows under a key.
-/
import LineTable.Proofs.Invariants
import LineTable.Proofs.RowIndex
import Mathlib

namespace LineTable
namespace Program

variable {h : Header} {e : Endian} {code : Bytes} {p : Program}

/-- No two rows of a program have one position, and later rows have higher ones. -/
theorem ascending_of_build (hbuild : build h e code = .ok p) :
    p.rows.Pairwise (·.position < ·.position) := by
  have hrange : (List.range p.rows.length).Pairwise (· < ·) := List.pairwise_lt_range
  rw [← positions_of_build hbuild] at hrange
  exact List.pairwise_map.1 hrange

theorem position_of_split (hbuild : build h e code = .ok p) {front behind : List Row} {row : Row}
    (hrows : p.rows = front ++ row :: behind) : row.position = front.length := by
  refine row_position hbuild ?_
  rw [hrows, List.getElem?_append_right (Nat.le_refl _), Nat.sub_self]
  rfl

theorem rowsFrom_of_split {front behind : List Row} (hrows : p.rows = front ++ behind) :
    p.rowsFrom front.length = behind := by
  rw [rowsFrom, hrows, List.drop_left]

theorem rowsFrom_of_lt {position : Nat} (hpast : p.rows.length < position) :
    p.rowsFrom position = [] :=
  List.drop_eq_nil_of_le (Nat.le_of_lt hpast)

theorem rowsAfter_of_split (hbuild : build h e code = .ok p) {front behind : List Row} {row : Row}
    (hrows : p.rows = front ++ row :: behind) : p.rowsAfter row = behind := by
  have hsplit : p.rows = (front ++ [row]) ++ behind := by
    rw [hrows, List.append_assoc]
    rfl
  have hfrom := rowsFrom_of_split hsplit
  rw [List.length_append] at hfrom
  rw [rowsAfter, position_of_split hbuild hrows]
  exact hfrom

theorem next?_eq_head? (p : Program) (row : Row) : p.next? row = (p.rowsAfter row).head? := by
  rw [next?, rowsAfter, rowsFrom, List.head?_drop]

/-- What a program answers about its rows is what one pass through them finds. -/
theorem rows_scanned (hbuild : build h e code = .ok p) :
    (∀ front row behind, p.rows = front ++ row :: behind →
      row.position = front.length ∧ p.next? row = behind.head? ∧ p.rowsAfter row = behind) ∧
    (∀ front behind, p.rows = front ++ behind → p.rowsFrom front.length = behind) ∧
    (∀ position, p.rows.length < position → p.rowsFrom position = []) ∧
    p.rows.Pairwise (·.position < ·.position) ∧
    (∀ address, p.rowsByAddress address = p.rows.filter (·.address = address)) ∧
    ∀ line, p.rowsByLine line = p.rows.filter (·.line = line) := by
  have hindexed := indexed_of_build hbuild
  refine ⟨fun front row behind hrows => ?_, fun front behind hrows => rowsFrom_of_split hrows,
    fun position hpast => rowsFrom_of_lt hpast, ascending_of_build hbuild, hindexed.byAddress,
    hindexed.byLine⟩
  have hafter := rowsAfter_of_split hbuild hrows
  refine ⟨position_of_split hbuild hrows, ?_, hafter⟩
  rw [next?_eq_head?, hafter]

/-- Rows at the addresses 32, 32 and 48, on the lines one, five and one. -/
def crossedRows : List Row :=
  [{ Registers.initial true with address := 32, position := 0 },
    { Registers.initial true with address := 32, line := 5, position := 1 },
    { Registers.initial true with address := 48, position := 2 }]

theorem rows_scanned_sample :
    ∃ p, build (.ofFields 2 10 (-5) 14 1) .little [2, 32, 1, 3, 4, 1, 3, 0x7C, 2, 16, 1] = .ok p ∧
      p.rows = crossedRows ∧
      (p.rowsByLine 1).map (·.position) = [0, 2] ∧
      (p.rowsByAddress 32).map (·.position) = [0, 1] ∧
      (∀ row ∈ p.rows.head?, (p.next? row).map (·.line) = some 5) ∧
      p.rowsFrom 3 = [] ∧ p.rowsFrom 4 = [] := by
  have hrows : (build (.ofFields 2 10 (-5) 14 1) .little
      [2, 32, 1, 3, 4, 1, 3, 0x7C, 2, 16, 1]).toOption.map (·.rows) = some crossedRows := by cbv
  obtain ⟨p, hbuild, hrows⟩ := exists_ok_of_toOption hrows
  obtain ⟨haround, hfrom, hpast, -, hbyAddress, hbyLine⟩ := rows_scanned hbuild
  refine ⟨p, hbuild, hrows, ?_, ?_, ?_, ?_, ?_⟩
  · rw [hbyLine, hrows]
    decide
  · rw [hbyAddress, hrows]
    decide
  · intro row hrow
    rw [hrows] at hrow
    obtain rfl := Option.some.inj hrow
    rw [(haround [] _ _ hrows).2.1]
    rfl
  · have hlast := hfrom crossedRows [] (by rw [hrows, List.append_nil])
    exact hlast
  · exact hpast 4 (by rw [hrows]; decide)

end Program
end LineTable
