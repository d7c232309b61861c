/-
Which rows the statement queries find.

A query goes to the first row at its place and reads on from there in the order in which
the rows were recorded, whatever their addresses are.  `IsFirst` is the first row of a
list that qualifies, said with positions and without any search.  The theorem this file
exists for is `statements_first`: both queries give the address of such a row, or the
absence of an address if there is none.
-/
import LineTable.Proofs.Invariants
import LineTable.Proofs.RangeQueries
import Mathlib

namespace LineTable

/-- The row is at a place. -/
def Row.LiesAt (row : Row) : Location → Prop
  | .address address => row.address = address
  | .line l => row.line = l.line

instance (row : Row) : (place : Location) → Decidable (row.LiesAt place)
  | .address address => inferInstanceAs (Decidable (row.address = address))
  | .line l => inferInstanceAs (Decidable (row.line = l.line))

/-! ## First rows -/

/-- The row has the least position of those that qualify. -/
def IsFirst (rows : List Row) (qualifies : Nat → Row → Prop) (position : Nat) (row : Row) :
    Prop :=
  rows[position]? = some row ∧
    IsLeast {q | ∃ r, rows[q]? = some r ∧ qualifies q r} position

/-- The address of the first row that qualifies, or no address if none does. -/
def AddressOfFirst (rows : List Row) (qualifies : Nat → Row → Prop) (address : UInt64) : Prop :=
  (∃ position row, IsFirst rows qualifies position row ∧ row.address = address) ∨
    (∀ position row, rows[position]? = some row → ¬ qualifies position row) ∧
      address = noAddress

section Searching

variable {rows : List Row} {wanted : Row → Bool} {row : Row}

theorem getElem?_drop_sub (rows : List Row) {start q : Nat} (h : start ≤ q) :
    (rows.drop start)[q - start]? = rows[q]? := by
  rw [List.getElem?_drop, Nat.add_sub_cancel' h]

theorem exists_isFirst_of_find? {start : Nat} (h : (rows.drop start).find? wanted = some row) :
    ∃ position, IsFirst rows (fun q r => start ≤ q ∧ wanted r) position row := by
  obtain ⟨hwanted, i, hi, hrow, hbefore⟩ := List.find?_eq_some_iff_getElem.1 h
  have hposition : rows[start + i]? = some row := by
    rw [← List.getElem?_drop, List.getElem?_eq_getElem hi, hrow]
  refine ⟨start + i, hposition, ⟨row, hposition, Nat.le_add_right start i, hwanted⟩, ?_⟩
  rintro q ⟨r, hq, hstart, hr⟩
  refine Nat.le_of_not_lt fun hlt => ?_
  have hj : q - start < i := by omega
  have hskipped := hbefore (q - start) hj
  have hqr : (rows.drop start)[q - start]? = some r := (getElem?_drop_sub rows hstart).trans hq
  rw [(List.getElem?_eq_some_iff.1 hqr).2, hr] at hskipped
  contradiction

theorem not_qualifies_of_find? {start : Nat} (h : (rows.drop start).find? wanted = none)
    {q : Nat} {r : Row} (hq : rows[q]? = some r) : ¬ (start ≤ q ∧ wanted r) := by
  rintro ⟨hstart, hr⟩
  have hqr : (rows.drop start)[q - start]? = some r := (getElem?_drop_sub rows hstart).trans hq
  exact List.find?_eq_none.1 h r (List.mem_of_getElem? hqr) hr

/-- A search from a position on finds the first row there that is wanted. -/
theorem addressOfFirst_find? (rows : List Row) (start : Nat) (wanted : Row → Bool) :
    AddressOfFirst rows (fun q r => start ≤ q ∧ wanted r)
      (match (rows.drop start).find? wanted with
        | some found => found.address
        | none => noAddress) := by
  cases h : (rows.drop start).find? wanted with
  | some found =>
    obtain ⟨position, hfirst⟩ := exists_isFirst_of_find? h
    exact .inl ⟨position, found, hfirst, rfl⟩
  | none => exact .inr ⟨fun _ _ hq => not_qualifies_of_find? h hq, rfl⟩

theorem find?_of_isFirst {start : Nat} (h : IsFirst rows (fun _ r => wanted r) start row) :
    rows.find? wanted = some row := by
  obtain ⟨hstart, ⟨r, hr, hwanted⟩, hleast⟩ := h
  obtain rfl : r = row := Option.some.inj (hr.symm.trans hstart)
  obtain ⟨hlt, hrow⟩ := List.getElem?_eq_some_iff.1 hstart
  refine List.find?_eq_some_iff_getElem.2 ⟨hwanted, start, hlt, hrow, fun j hj => ?_⟩
  cases hskipped : wanted rows[j] with
  | false => rfl
  | true =>
    have hle : start ≤ j := hleast ⟨rows[j], List.getElem?_eq_getElem _, hskipped⟩
    omega

theorem exists_isFirst (qualifies : Nat → Row → Prop) {q : Nat} (hrow : rows[q]? = some row)
    (hqualifies : qualifies q row) : ∃ position first, IsFirst rows qualifies position first := by
  classical
  have hsome : ∃ q row, rows[q]? = some row ∧ qualifies q row := ⟨q, row, hrow, hqualifies⟩
  obtain ⟨first, hfirst, hleast⟩ := Nat.find_spec hsome
  refine ⟨Nat.find hsome, first, hfirst, ⟨first, hfirst, hleast⟩, fun q hq => ?_⟩
  exact Nat.find_min' hsome hq

theorem IsFirst.qualifies {qualifies : Nat → Row → Prop} {position : Nat}
    (h : IsFirst rows qualifies position row) : qualifies position row := by
  obtain ⟨hrow, ⟨r, hr, hqualifies⟩, -⟩ := h
  obtain rfl : r = row := Option.some.inj (hr.symm.trans hrow)
  exact hqualifies

theorem IsFirst.unique {qualifies : Nat → Row → Prop} {position position' : Nat} {row' : Row}
    (h : IsFirst rows qualifies position row) (h' : IsFirst rows qualifies position' row') :
    position = position' ∧ row = row' := by
  obtain rfl := h.2.unique h'.2
  exact ⟨rfl, Option.some.inj (h.1.symm.trans h'.1)⟩

end Searching

/-! ## Places and their programs -/

namespace AddressMap

variable {m : AddressMap} {place : Location} {p : Program}

/-- The program of a place: that of the unit covering an address, or that of a line's
own unit.  A file that only symbols name has none. -/
def HasProgram (m : AddressMap) : Location → Program → Prop
  | .address address, p => ∃ u, m.units.covering? address = some u ∧ m.Decodes u p
  | .line l, p => ∃ u, l.unit = .described u ∧ m.Decodes u p

theorem HasProgram.decodes (hp : m.HasProgram place p) : ∃ u, m.Decodes u p := by
  cases place with
  | address address =>
    obtain ⟨u, -, hdecodes⟩ := hp
    exact ⟨u, hdecodes⟩
  | line l =>
    obtain ⟨u, -, hdecodes⟩ := hp
    exact ⟨u, hdecodes⟩

theorem HasProgram.row_position (hp : m.HasProgram place p) {position : Nat} {row : Row}
    (hrow : p.rows[position]? = some row) : row.position = position := by
  obtain ⟨u, offset, -, hdecode⟩ := hp.decodes
  obtain ⟨h, code, -, hbuild⟩ := LineSection.exists_read_of_decode hdecode
  exact Program.row_position hbuild hrow

theorem programOfLine_eq_some {l : SourceLine} :
    (m.programOfLine l).value = some p ↔ m.HasProgram (.line l) p := by
  obtain ⟨unit, line⟩ := l
  cases unit with
  | described u =>
    have hvalue : (m.programOfLine ⟨.described u, line⟩).value = (m.program u).value := rfl
    rw [hvalue, program_eq_some, HasProgram]
    simp
  | symbolsOnly file =>
    have hvalue : (m.programOfLine ⟨.symbolsOnly file, line⟩).value = none := rfl
    rw [hvalue, HasProgram]
    simp

/-- A query starts from the first row of the program that is at the place. -/
theorem start_of_hasProgram (hp : m.HasProgram place p) :
    (m.start place).value =
      (p.rows.find? fun row => decide (row.LiesAt place)).map fun row => (p, row) := by
  obtain ⟨v, hdecodes⟩ := hp.decodes
  have hindexed := hdecodes.indexed
  cases place with
  | address address =>
    obtain ⟨u, hu, hu'⟩ := hp
    have hprogram := program_eq_some.2 hu'
    simp only [start, hu, Answer.restate, hprogram, Option.bind_some, hindexed.byAddress,
      List.head?_filter]
    rfl
  | line l =>
    have hprogram := programOfLine_eq_some.2 hp
    simp only [start, Answer.restate, hprogram, Option.bind_some, hindexed.byLine,
      List.head?_filter]
    rfl

theorem start_of_not_hasProgram (hp : ∀ p, ¬ m.HasProgram place p) :
    (m.start place).value = none := by
  cases place with
  | address address =>
    rw [start]
    cases hu : m.units.covering? address with
    | none => rfl
    | some u =>
      have hnone : (m.program u).value = none := by
        rw [Option.eq_none_iff_forall_ne_some]
        intro p hprogram
        exact hp p ⟨u, hu, program_eq_some.1 hprogram⟩
      simp only [Answer.restate, hnone, Option.bind_none]
  | line l =>
    have hnone : (m.programOfLine l).value = none := by
      rw [Option.eq_none_iff_forall_ne_some]
      intro p hprogram
      exact hp p (programOfLine_eq_some.1 hprogram)
    simp only [start, Answer.restate, hnone, Option.bind_none]

theorem HasProgram.unique {q : Program} (hp : m.HasProgram place p) (hq : m.HasProgram place q) :
    p = q := by
  cases place with
  | address address =>
    obtain ⟨u, hu, hdecodes⟩ := hp
    obtain ⟨v, hv, hdecodes'⟩ := hq
    obtain rfl : u = v := Option.some.inj (hu.symm.trans hv)
    exact Option.some.inj ((program_eq_some.2 hdecodes).symm.trans (program_eq_some.2 hdecodes'))
  | line l =>
    have hp := programOfLine_eq_some.2 hp
    have hq := programOfLine_eq_some.2 hq
    exact Option.some.inj (hp.symm.trans hq)

/-- A query starts where the program of its place has the first row there. -/
theorem start_eq_some_iff {row : Row} :
    (m.start place).value = some (p, row) ↔
      m.HasProgram place p ∧ IsFirst p.rows (fun _ r => r.LiesAt place) row.position row := by
  constructor
  · intro hstart
    by_cases hsome : ∃ q, m.HasProgram place q
    · obtain ⟨q, hq⟩ := hsome
      rw [start_of_hasProgram hq] at hstart
      obtain ⟨found, hfound, heq⟩ := Option.map_eq_some_iff.1 hstart
      obtain ⟨rfl, rfl⟩ := Prod.mk.inj heq
      have hdrop : (q.rows.drop 0).find? (fun r => decide (r.LiesAt place)) = some found := hfound
      obtain ⟨position, hfirst⟩ := exists_isFirst_of_find? hdrop
      obtain rfl := hq.row_position hfirst.1
      exact ⟨hq, by simpa using hfirst⟩
    · rw [start_of_not_hasProgram (not_exists.1 hsome)] at hstart
      contradiction
  · rintro ⟨hp, hfirst⟩
    have hfound : p.rows.find? (fun r => decide (r.LiesAt place)) = some row :=
      find?_of_isFirst (by simpa using hfirst)
    rw [start_of_hasProgram hp, hfound]
    rfl

/-! ## The queries -/

theorem statement_of_start {row : Row} (h : (m.start place).value = some (p, row)) :
    (m.statement place).value = p.statementFrom row ∧
      (m.nextStatement place).value = p.statementAfter row := by
  simp only [statement, nextStatement, Answer.restate, h, and_self]

theorem statement_of_no_start (h : (m.start place).value = none) :
    (m.statement place).value = noAddress ∧ (m.nextStatement place).value = noAddress := by
  simp only [statement, nextStatement, Answer.restate, h, and_self]

/-- From the first row at a place on, the statement of the place is the first statement,
and the next one is the first behind that row at another address.  A place without a
row has neither. -/
theorem statements_first (m : AddressMap) (place : Location) :
    (∀ p start row, m.HasProgram place p →
      IsFirst p.rows (fun _ r => r.LiesAt place) start row →
        AddressOfFirst p.rows (fun q r => start ≤ q ∧ r.isStatement)
          (m.statement place).value ∧
        AddressOfFirst p.rows
          (fun q r => start < q ∧ r.isStatement ∧ r.address ≠ row.address)
          (m.nextStatement place).value) ∧
    ((∀ p, m.HasProgram place p → ∀ row ∈ p.rows, ¬ row.LiesAt place) →
      (m.statement place).value = 0 ∧ (m.nextStatement place).value = 0) := by
  refine ⟨fun p start row hp hfirst => ?_, fun hnone => ?_⟩
  · have hposition := hp.row_position hfirst.1
    have hfound : p.rows.find? (fun r => decide (r.LiesAt place)) = some row :=
      find?_of_isFirst (by simpa using hfirst)
    have hstart := start_of_hasProgram hp
    rw [hfound] at hstart
    obtain ⟨hstatement, hnext⟩ := statement_of_start hstart
    rw [hstatement, hnext]
    constructor
    · have hfrom := addressOfFirst_find? p.rows start (·.isStatement)
      rw [← hposition] at hfrom ⊢
      exact hfrom
    · have hafter := addressOfFirst_find? p.rows (start + 1)
        fun r => r.isStatement && r.address != row.address
      simp only [Bool.and_eq_true, bne_iff_ne] at hafter
      rw [← hposition] at hafter ⊢
      exact hafter
  · refine statement_of_no_start ?_
    by_cases hp : ∃ p, m.HasProgram place p
    · obtain ⟨p, hp⟩ := hp
      rw [start_of_hasProgram hp, List.find?_eq_none.2]
      · rfl
      · simpa using hnone p hp
    · exact start_of_not_hasProgram (not_exists.1 hp)

/-- A unit whose code begins at address 16. -/
def scatteredUnit : CompileUnit :=
  ⟨0, .compileUnit, [⟨.lowPc, .address 16⟩, ⟨.stmtList, .sectionOffset 0⟩]⟩

/-- A map of that unit, with rows at addresses 16, 16, 12 and 16.  The first row and the
last two, one of which ends the sequence, are no statements. -/
def scatteredMap : AddressMap :=
  .ofParts [scatteredUnit] ⟨[
    -- the length of the unit, its version and the length of its header
    62, 0, 0, 0, 2, 0, 16, 0, 0, 0,
    -- the fields, nine operand counts and two empty tables
    1, 1, 0xFB, 14, 10, 0, 1, 1, 1, 1, 0, 0, 0, 1, 0, 0,
    -- address 16, a row, line two, a statement
    0, 9, 2, 16, 0, 0, 0, 0, 0, 0, 0, 6, 1, 6, 3, 1, 1,
    -- back to address 12, line three, a statement
    0, 9, 2, 12, 0, 0, 0, 0, 0, 0, 0, 3, 1, 1,
    -- address 16, line two, a row, the end of the sequence
    6, 2, 4, 3, 0x7F, 1, 0, 1, 1], .little⟩

theorem statements_first_sample :
    (∃ p row, scatteredMap.HasProgram (.address 16) p ∧
      IsFirst p.rows (fun _ r => r.LiesAt (.address 16)) 0 row ∧
      AddressOfFirst p.rows (fun q r => 0 ≤ q ∧ r.isStatement)
        (scatteredMap.statement (.address 16)).value ∧
      AddressOfFirst p.rows (fun q r => 0 < q ∧ r.isStatement ∧ r.address ≠ row.address)
        (scatteredMap.nextStatement (.address 16)).value) ∧
      (scatteredMap.statement (.address 16)).value = 16 ∧
      (scatteredMap.nextStatement (.address 16)).value = 12 ∧
      (scatteredMap.nextStatement (.line ⟨.symbolsOnly "crt0.s", 3⟩)).value = 0 := by
  have hrows : ((scatteredMap.programs.lines.decode 0).toOption.map fun p =>
      p.rows.map fun row => (row.address, row.line)) =
        some [(16, 1), (16, 2), (12, 3), (16, 2), (16, 2)] := by cbv
  obtain ⟨p, hp, hkeys⟩ := Option.map_eq_some_iff.1 hrows
  have hdecode : scatteredMap.programs.lines.decode 0 = .ok p := by
    cases hfound : scatteredMap.programs.lines.decode 0 with
    | error cause =>
      rw [hfound] at hp
      contradiction
    | ok q =>
      rw [hfound] at hp
      exact congrArg Except.ok (Option.some.inj hp)
  have hprogram : scatteredMap.HasProgram (.address 16) p := ⟨scatteredUnit, rfl, 0, rfl, hdecode⟩
  obtain ⟨row, hrow, hat⟩ : ∃ row, p.rows[0]? = some row ∧ (row.address, row.line) = (16, 1) := by
    have hfirst := congrArg (·[0]?) hkeys
    simpa using hfirst
  have hfirst : IsFirst p.rows (fun _ r => r.LiesAt (.address 16)) 0 row :=
    ⟨hrow, ⟨row, hrow, congrArg Prod.fst hat⟩, fun q _ => Nat.zero_le q⟩
  obtain ⟨hstatement, hnext⟩ := (statements_first scatteredMap (.address 16)).1 p 0 row hprogram
    hfirst
  have hsymbols := (statements_first scatteredMap (.line ⟨.symbolsOnly "crt0.s", 3⟩)).2 (by
    rintro q ⟨u, hu, -⟩
    cases hu)
  refine ⟨⟨p, row, hprogram, hfirst, hstatement, hnext⟩, ?_, ?_, hsymbols.2⟩
  · cbv
  · cbv

end AddressMap
end LineTable
