/-
What the range queries answer.

A query finds a unit, runs or recalls its line program, takes the rows of one key from
an index, sorts the other key of each and cuts the sorted keys into intervals.  Read
through all of these steps, a query for the addresses of a line and a query for the
lines of an address both speak of the rows of one program and of nothing else
(`exists_mem_addressesForLine`, `exists_mem_linesForAddress`).
-/
import LineTable.AddressMap
import LineTable.Proofs.Coalesce
import LineTable.Proofs.Lookup
import LineTable.Proofs.RowIndex

namespace LineTable

namespace AddressMap

variable {m : AddressMap}

/-- The section holds this program at the place that the unit names. -/
def Decodes (m : AddressMap) (u : CompileUnit) (p : Program) : Prop :=
  ∃ offset, u.lineProgramOffset? = some offset ∧ m.programs.lines.decode offset = .ok p

theorem Decodes.indexed {u : CompileUnit} {p : Program} (hp : m.Decodes u p) : p.Indexed := by
  obtain ⟨_, _, hdecode⟩ := hp
  exact LineSection.indexed_of_decode hdecode

theorem program_eq_some {u : CompileUnit} {p : Program} :
    (m.program u).value = some p ↔ m.Decodes u p := by
  rw [program, Decodes]
  cases u.lineProgramOffset? with
  | none => simp
  | some offset =>
    simp only [ProgramStore.program_lookup, Option.some.injEq, exists_eq_left']
    cases m.programs.lines.decode offset <;> simp [Except.toOption]

/-! ### Keys of the rows of a program -/

theorem mem_map_rowsByLine {p : Program} (hp : p.Indexed) {line : Int64} {address : UInt64} :
    address ∈ (p.rowsByLine line).map (·.address) ↔
      ∃ row ∈ p.rows, row.line = line ∧ row.address = address := by
  simp [hp.byLine, and_assoc]

theorem mem_map_rowsByAddress {p : Program} (hp : p.Indexed) {line : Int64}
    {address : UInt64} :
    line ∈ (p.rowsByAddress address).map (·.line) ↔
      ∃ row ∈ p.rows, row.address = address ∧ row.line = line := by
  simp [hp.byAddress, and_assoc]

theorem exists_mem_addressesOf {p : Program} (hp : p.Indexed) {l : SourceLine}
    {address : UInt64} :
    (∃ r ∈ addressesOf l p, address ∈ r) ↔
      ∃ row ∈ p.rows, row.line = l.line ∧ row.address = address := by
  rw [addressesOf, Interval.ofAddresses, Interval.exists_mem_coalesce Interval.faithful_address,
    List.mem_mergeSort, mem_map_rowsByLine hp]

theorem exists_mem_linesOf {p : Program} (hp : p.Indexed) {u : CompileUnit}
    {address : UInt64} {line : Int64} :
    (∃ r ∈ linesOf u address p, line ∈ r.lines) ↔
      ∃ row ∈ p.rows, row.address = address ∧ row.line = line := by
  have hlines := Interval.exists_mem_coalesce Interval.faithful_line
    ((p.rowsByAddress address).map (·.line)).mergeSort line
  rw [List.mem_mergeSort, mem_map_rowsByAddress hp] at hlines
  rw [← hlines]
  constructor
  · rintro ⟨r, hr, hline⟩
    obtain ⟨lines, hmem, rfl⟩ := List.mem_map.1 hr
    exact ⟨lines, hmem, hline⟩
  · rintro ⟨lines, hmem, hline⟩
    exact ⟨⟨.described u, lines⟩, List.mem_map.2 ⟨lines, hmem, rfl⟩, hline⟩

/-! ### Keys of the answers -/

theorem mem_getD_map {β : Type} {f : Program → List β} {p? : Option Program} {x : β} :
    x ∈ (p?.map f).getD [] ↔ ∃ p, p? = some p ∧ x ∈ f p := by
  cases p? <;> simp

theorem mem_addressesForLine {u : CompileUnit} {line : Int64} {r : Interval UInt64} :
    r ∈ (m.addressesForLine ⟨.described u, line⟩).value ↔
      ∃ p, m.Decodes u p ∧ r ∈ addressesOf ⟨.described u, line⟩ p := by
  have hvalue : (m.addressesForLine ⟨.described u, line⟩).value =
      ((m.program u).value.map (addressesOf ⟨.described u, line⟩)).getD [] := rfl
  simp only [hvalue, mem_getD_map, program_eq_some]

theorem mem_linesForAddress {address : UInt64} {r : SourceLines} :
    r ∈ (m.linesForAddress address).value ↔
      ∃ u, m.units.covering? address = some u ∧ ∃ p, m.Decodes u p ∧ r ∈ linesOf u address p := by
  rw [linesForAddress]
  cases m.units.covering? address with
  | none => simp
  | some u => simp only [Answer.restate, mem_getD_map, program_eq_some, Option.some.injEq,
      exists_eq_left']

/-- The addresses of a line of a unit are those of the rows of its program. -/
theorem exists_mem_addressesForLine {u : CompileUnit} {line : Int64} {address : UInt64} :
    (∃ r ∈ (m.addressesForLine ⟨.described u, line⟩).value, address ∈ r) ↔
      ∃ p, m.Decodes u p ∧ ∃ row ∈ p.rows, row.line = line ∧ row.address = address := by
  simp only [mem_addressesForLine]
  constructor
  · rintro ⟨r, ⟨p, hp, hr⟩, haddress⟩
    exact ⟨p, hp, (exists_mem_addressesOf hp.indexed).1 ⟨r, hr, haddress⟩⟩
  · rintro ⟨p, hp, hrow⟩
    obtain ⟨r, hr, haddress⟩ :=
      (exists_mem_addressesOf (l := ⟨.described u, line⟩) hp.indexed).2 hrow
    exact ⟨r, ⟨p, hp, hr⟩, haddress⟩

/-- The lines of an address are those of the rows of the program of its unit. -/
theorem exists_mem_linesForAddress {address : UInt64} {line : Int64} :
    (∃ r ∈ (m.linesForAddress address).value, line ∈ r.lines) ↔
      ∃ u, m.units.covering? address = some u ∧
        ∃ p, m.Decodes u p ∧ ∃ row ∈ p.rows, row.address = address ∧ row.line = line := by
  simp only [mem_linesForAddress]
  constructor
  · rintro ⟨r, ⟨u, hu, p, hp, hr⟩, hline⟩
    exact ⟨u, hu, p, hp, (exists_mem_linesOf hp.indexed).1 ⟨r, hr, hline⟩⟩
  · rintro ⟨u, hu, p, hp, hrow⟩
    obtain ⟨r, hr, hline⟩ := (exists_mem_linesOf (u := u) hp.indexed).2 hrow
    exact ⟨r, ⟨u, hu, p, hp, hr⟩, hline⟩

/-! ### Shape of the answers -/

theorem canonical_addressesOf (l : SourceLine) (p : Program) :
    Interval.Canonical (·.toNat) (addressesOf l p) :=
  Interval.canonical_coalesce (Interval.faithful_address.ascending_mergeSort _)

theorem canonical_linesOf (u : CompileUnit) (address : UInt64) (p : Program) :
    Interval.Canonical Int64.toInt ((linesOf u address p).map (·.lines)) := by
  rw [linesOf, List.map_map]
  simp only [Function.comp_def, List.map_id']
  exact Interval.canonical_coalesce (Interval.faithful_line.ascending_mergeSort _)

theorem canonical_addressesForLine (m : AddressMap) (l : SourceLine) :
    Interval.Canonical (·.toNat) (m.addressesForLine l).value := by
  rw [addressesForLine, Answer.restate]
  cases (m.programOfLine l).value with
  | none => exact Interval.canonical_nil
  | some p => exact canonical_addressesOf l p

theorem canonical_linesForAddress (m : AddressMap) (address : UInt64) :
    Interval.Canonical Int64.toInt ((m.linesForAddress address).value.map (·.lines)) := by
  rw [linesForAddress]
  cases m.units.covering? address with
  | none => exact Interval.canonical_nil
  | some u =>
    simp only [Answer.restate]
    cases (m.program u).value with
    | none => exact Interval.canonical_nil
    | some p => exact canonical_linesOf u address p

/-- Both range queries answer with the canonical intervals of exactly the rows that
match. -/
theorem range_queries_canonical (m : AddressMap) :
    (∀ (u : CompileUnit) (line : Int64) (address : UInt64),
      (∃ r ∈ (m.addressesForLine ⟨.described u, line⟩).value, address ∈ r) ↔
        ∃ p, m.Decodes u p ∧ ∃ row ∈ p.rows, row.line = line ∧ row.address = address) ∧
    (∀ (address : UInt64) (line : Int64),
      (∃ r ∈ (m.linesForAddress address).value, line ∈ r.lines) ↔
        ∃ u, m.units.covering? address = some u ∧
          ∃ p, m.Decodes u p ∧ ∃ row ∈ p.rows, row.address = address ∧ row.line = line) ∧
    (∀ (address : UInt64), ∀ r ∈ (m.linesForAddress address).value,
      ∃ u, m.units.covering? address = some u ∧ r.unit = .described u) ∧
    (∀ l : SourceLine, Interval.Canonical (·.toNat) (m.addressesForLine l).value) ∧
    (∀ address : UInt64,
      Interval.Canonical Int64.toInt ((m.linesForAddress address).value.map (·.lines))) := by
  refine ⟨fun _ _ _ => exists_mem_addressesForLine, fun _ _ => exists_mem_linesForAddress,
    fun address r hr => ?_, canonical_addressesForLine m, canonical_linesForAddress m⟩
  obtain ⟨u, hu, p, -, hlines⟩ := mem_linesForAddress.1 hr
  obtain ⟨lines, -, rfl⟩ := List.mem_map.1 hlines
  exact ⟨u, hu, rfl⟩

end AddressMap
end LineTable
