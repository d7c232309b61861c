/-
How the queries agree with one another.

The way from a line to its addresses and the way back use different indices, and the
statement queries take the first row of an index without cutting anything into
intervals.  They agree because every way goes through the same program and an interval
never holds a key without a row (`queries_agree`).
-/
import LineTable.Proofs.RangeQueries
import Mathlib

namespace LineTable
namespace AddressMap

variable {m : AddressMap}

theorem rowsByLine_eq_nil {l : SourceLine} {p : Program} (h : addressesOf l p = []) :
    p.rowsByLine l.line = [] := by
  rw [addressesOf, Interval.ofAddresses, Interval.faithful_address.coalesce_mergeSort_eq_nil] at h
  exact List.map_eq_nil_iff.1 h

theorem rowsByAddress_eq_nil {u : CompileUnit} {address : UInt64} {p : Program}
    (h : linesOf u address p = []) : p.rowsByAddress address = [] := by
  rw [linesOf, List.map_eq_nil_iff, Interval.ofLines,
    Interval.faithful_line.coalesce_mergeSort_eq_nil] at h
  exact List.map_eq_nil_iff.1 h

theorem start_address_eq_none {address : UInt64} (h : (m.linesForAddress address).value = []) :
    (m.start (.address address)).value = none := by
  rw [linesForAddress] at h
  rw [start]
  cases hu : m.units.covering? address with
  | none => rfl
  | some u =>
    simp only [hu, Answer.restate] at h ⊢
    cases hp : (m.program u).value with
    | none => rfl
    | some p =>
      rw [hp] at h
      simp [rowsByAddress_eq_nil (u := u) h]

theorem start_line_eq_none {l : SourceLine} (h : (m.addressesForLine l).value = []) :
    (m.start (.line l)).value = none := by
  simp only [addressesForLine, Answer.restate] at h
  simp only [start, Answer.restate]
  cases hp : (m.programOfLine l).value with
  | none => rfl
  | some p =>
    rw [hp] at h
    simp [rowsByLine_eq_nil (l := l) h]

theorem statements_of_start_eq_none {place : Location} (h : (m.start place).value = none) :
    (m.nextStatement place).value = 0 ∧ (m.statement place).value = 0 := by
  simp [nextStatement, statement, Answer.restate, h, noAddress]

/-- An address lies among the addresses of a line of its unit when the line lies among
the lines of the address, and a place without ranges has no statements. -/
theorem queries_agree (m : AddressMap) :
    (∀ (u : CompileUnit) (line : Int64) (address : UInt64),
      m.units.covering? address = some u →
        ((∃ r ∈ (m.addressesForLine ⟨.described u, line⟩).value, address ∈ r) ↔
          ∃ r ∈ (m.linesForAddress address).value, line ∈ r.lines)) ∧
    (∀ address : UInt64, (m.linesForAddress address).value = [] →
      (m.nextStatement (.address address)).value = 0 ∧
        (m.statement (.address address)).value = 0) ∧
    (∀ l : SourceLine, (m.addressesForLine l).value = [] →
      (m.nextStatement (.line l)).value = 0 ∧ (m.statement (.line l)).value = 0) := by
  refine ⟨fun u line address hu => ?_,
    fun _ h => statements_of_start_eq_none (start_address_eq_none h),
    fun _ h => statements_of_start_eq_none (start_line_eq_none h)⟩
  rw [exists_mem_addressesForLine, exists_mem_linesForAddress]
  constructor
  · rintro ⟨p, hp, row, hrow, hline, haddress⟩
    exact ⟨u, hu, p, hp, row, hrow, haddress, hline⟩
  · rintro ⟨v, hv, p, hp, row, hrow, haddress, hline⟩
    obtain rfl : u = v := Option.some.inj (hu.symm.trans hv)
    exact ⟨p, hp, row, hrow, hline, haddress⟩

/-- A unit whose code begins at address 16. -/
def sampleUnit : CompileUnit :=
  ⟨0, .compileUnit, [⟨.lowPc, .address 16⟩, ⟨.stmtList, .sectionOffset 0⟩]⟩

/-- A map of that unit, with line five at addresses 16 and 17 and line six at 17. -/
def sampleMap : AddressMap :=
  .ofParts [sampleUnit] ⟨[
    -- the length of the unit, its version and the length of its header
    45, 0, 0, 0, 2, 0, 16, 0, 0, 0,
    -- the fields, nine operand counts and two empty tables
    1, 1, 0xFB, 14, 10, 0, 1, 1, 1, 1, 0, 0, 0, 1, 0, 0,
    -- address 16, line five, a row
    0, 9, 2, 16, 0, 0, 0, 0, 0, 0, 0, 3, 4, 1,
    -- address 17, a row, line six, a row, the end of the sequence
    2, 1, 1, 3, 1, 1, 0, 1, 1], .little⟩

theorem queries_agree_sample :
    sampleMap.units.covering? 17 = some sampleUnit ∧
      (∃ r ∈ (sampleMap.linesForAddress 17).value, (6 : Int64) ∈ r.lines) ∧
      (sampleMap.linesForAddress 18).value = [] ∧
      (sampleMap.nextStatement (.address 18)).value = 0 ∧
      (sampleMap.addressesForLine ⟨.symbolsOnly "crt0.s", 6⟩).value = [] ∧
      (sampleMap.statement (.line ⟨.symbolsOnly "crt0.s", 6⟩)).value = 0 := by
  obtain ⟨hagree, haddress, hline⟩ := queries_agree sampleMap
  have hunit : sampleMap.units.covering? 17 = some sampleUnit := rfl
  have haddresses : (sampleMap.addressesForLine ⟨.described sampleUnit, 6⟩).value = [⟨17, 17⟩] := by
    cbv
  have hnoLines : (sampleMap.linesForAddress 18).value = [] := by cbv
  have hnoAddresses : (sampleMap.addressesForLine ⟨.symbolsOnly "crt0.s", 6⟩).value = [] := rfl
  refine ⟨hunit, (hagree sampleUnit 6 17 hunit).1 ?_, hnoLines, (haddress 18 hnoLines).1,
    hnoAddresses, (hline _ hnoAddresses).2⟩
  rw [haddresses]
  exact ⟨_, List.mem_singleton_self _, by decide, by decide⟩

end AddressMap
end LineTable
