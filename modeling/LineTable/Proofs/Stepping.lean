/-
Stepping from statement to statement.

The statement of a place and the next one are sought from one row on.  Unless the statement
is at that row's own address, both searches come to the same row (`statement_or_next`).

A step asks for the next statement at the address that the step before it came to.  The
question starts over from the first row at that address, which may stand before the row that
was found.  As long as rows of one address stand together it does not stand before the row
that the last search started from.  So the position of the first row increases from step to
step, and the steps come to an end (`walk_progresses`).
-/
import LineTable.Proofs.QueryHistory
import LineTable.Proofs.Statements

namespace LineTable

/-! ## From one row on -/

namespace Program

variable {p : Program} {row : Row}

theorem addressOfFirst_statementFrom (p : Program) (row : Row) :
    AddressOfFirst p.rows (fun q r => row.position ≤ q ∧ r.isStatement) (p.statementFrom row) :=
  addressOfFirst_find? p.rows row.position (·.isStatement)

theorem addressOfFirst_statementAfter (p : Program) (row : Row) :
    AddressOfFirst p.rows
      (fun q r => row.position < q ∧ r.isStatement ∧ r.address ≠ row.address)
      (p.statementAfter row) := by
  have hafter := addressOfFirst_find? p.rows (row.position + 1)
    fun r => r.isStatement && r.address != row.address
  simp only [Bool.and_eq_true, bne_iff_ne] at hafter
  exact hafter

theorem rowsFrom_position (hrow : p.rows[row.position]? = some row) :
    p.rowsFrom row.position = row :: p.rowsAfter row := by
  obtain ⟨hlt, heq⟩ := List.getElem?_eq_some_iff.1 hrow
  rw [rowsFrom, List.drop_eq_getElem_cons hlt, heq]
  rfl

theorem statementAfter_eq_statementFrom (hrow : p.rows[row.position]? = some row)
    (hne : p.statementFrom row ≠ row.address) : p.statementAfter row = p.statementFrom row := by
  rw [statementFrom, rowsFrom_position hrow] at hne ⊢
  cases hstatement : row.isStatement with
  | true =>
    rw [List.find?_cons_of_pos (p := fun r : Row => r.isStatement) hstatement] at hne
    exact absurd rfl hne
  | false =>
    -- Both searches go through the rows behind, one through all statements among them.
    rw [List.find?_cons_of_neg (by simp [hstatement]), ← List.head?_filter] at hne ⊢
    have hafter : (p.rowsAfter row).find? (fun r => r.isStatement && r.address != row.address) =
        ((p.rowsAfter row).filter (·.isStatement)).find? (·.address != row.address) := by
      simp only [List.find?_filter, Bool.decide_and, Bool.decide_eq_true]
    rw [statementAfter, hafter]
    cases hbehind : (p.rowsAfter row).filter (·.isStatement) with
    | nil => rfl
    | cons first others =>
      rw [hbehind] at hne
      have haway : first.address ≠ row.address := hne
      rw [List.find?_cons_of_pos (by simpa using haway)]
      rfl

theorem eq_noAddress_of_statementAfter (h : p.statementAfter row = row.address) :
    row.address = noAddress := by
  rcases addressOfFirst_statementAfter p row with ⟨_, found, hfound, haddress⟩ | ⟨-, hnone⟩
  · exact absurd (haddress.trans h) hfound.qualifies.2.2
  · rw [← h, hnone]

end Program

namespace AddressMap

variable {m : AddressMap} {p : Program} {address : UInt64}

theorem statement_or_next_of_start {place : Location} {row : Row}
    (hstart : (m.start place).value = some (p, row)) :
    ((m.statement place).value = row.address ∨
        (m.nextStatement place).value = (m.statement place).value) ∧
      ((m.nextStatement place).value = row.address → row.address = 0) := by
  obtain ⟨hstatement, hnext⟩ := statement_of_start hstart
  obtain ⟨-, hfirst⟩ := start_eq_some_iff.1 hstart
  rw [hstatement, hnext]
  refine ⟨?_, Program.eq_noAddress_of_statementAfter⟩
  by_cases hhere : p.statementFrom row = row.address
  · exact .inl hhere
  · exact .inr (Program.statementAfter_eq_statementFrom hfirst.1 hhere)

/-- The statement of an address is at that address or is the next statement, and the next
statement is elsewhere.  For a line the address of its first row takes that part. -/
theorem statement_or_next (m : AddressMap) :
    (∀ address : UInt64,
      ((m.statement (.address address)).value = address ∨
        (m.nextStatement (.address address)).value = (m.statement (.address address)).value) ∧
      ((m.nextStatement (.address address)).value = address → address = 0)) ∧
    ∀ (l : SourceLine) (p : Program) (start : Nat) (row : Row), m.HasProgram (.line l) p →
      IsFirst p.rows (fun _ r => r.LiesAt (.line l)) start row →
        ((m.statement (.line l)).value = row.address ∨
          (m.nextStatement (.line l)).value = (m.statement (.line l)).value) ∧
        ((m.nextStatement (.line l)).value = row.address → row.address = 0) := by
  refine ⟨fun address => ?_, fun l p start row hp hfirst => ?_⟩
  · cases hstart : (m.start (.address address)).value with
    | none =>
      obtain ⟨hstatement, hnext⟩ := statement_of_no_start hstart
      rw [hstatement, hnext]
      exact ⟨.inr rfl, Eq.symm⟩
    | some found =>
      obtain ⟨p, row⟩ := found
      obtain ⟨-, hfirst⟩ := start_eq_some_iff.1 hstart
      have haddress : row.address = address := hfirst.qualifies
      rw [← haddress] at hstart ⊢
      exact statement_or_next_of_start hstart
  · obtain rfl := hp.row_position hfirst.1
    exact statement_or_next_of_start (start_eq_some_iff.2 ⟨hp, hfirst⟩)

/-- A unit whose code begins at address 16. -/
def windingUnit : CompileUnit :=
  ⟨0, .compileUnit, [⟨.lowPc, .address 16⟩, ⟨.stmtList, .sectionOffset 0⟩]⟩

/-- A map of that unit, with rows at addresses 16, 32, 32, 24, 40, 20 and 20.  The first row
at address 32 is no statement, nor is the one at address 40, where line five begins. -/
def windingMap : AddressMap :=
  .ofParts [windingUnit] ⟨[
    -- the length of the unit, its version and the length of its header
    74, 0, 0, 0, 2, 0, 16, 0, 0, 0,
    -- the fields, nine operand counts and two empty tables
    1, 1, 0xFB, 14, 10, 0, 1, 1, 1, 1, 0, 0, 0, 1, 0, 0,
    -- address 16, a row, address 32, a row, a statement
    0, 9, 2, 16, 0, 0, 0, 0, 0, 0, 0, 1, 2, 16, 6, 1, 6, 1,
    -- back to address 24, a row, address 40, line five, a row
    0, 9, 2, 24, 0, 0, 0, 0, 0, 0, 0, 1, 2, 16, 3, 4, 6, 1,
    -- back to address 20, a statement, the end of the sequence
    6, 0, 9, 2, 20, 0, 0, 0, 0, 0, 0, 0, 1, 0, 1, 1], .little⟩

def windingAddresses : List UInt64 := [16, 32, 32, 24, 40, 20, 20]

/-- Line five begins at no statement, so the statement of the line is the next one. -/
theorem statement_or_next_sample :
    ∃ p row, windingMap.HasProgram (.line ⟨.described windingUnit, 5⟩) p ∧
      IsFirst p.rows (fun _ r => r.LiesAt (.line ⟨.described windingUnit, 5⟩)) 4 row ∧
      row.address = 40 ∧
      (windingMap.statement (.line ⟨.described windingUnit, 5⟩)).value = 20 ∧
      (windingMap.nextStatement (.line ⟨.described windingUnit, 5⟩)).value = 20 := by
  have hshown : (windingMap.start (.line ⟨.described windingUnit, 5⟩)).value.map
      (fun found => (found.2.position, found.2.address)) = some (4, 40) := by cbv
  obtain ⟨⟨p, row⟩, hstart, hrow⟩ := Option.map_eq_some_iff.1 hshown
  obtain ⟨hposition, haddress⟩ := Prod.mk.inj hrow
  obtain ⟨hp, hfirst⟩ := start_eq_some_iff.1 hstart
  rw [hposition] at hfirst
  have hstatement :
      (windingMap.statement (.line ⟨.described windingUnit, 5⟩)).value = 20 := by cbv
  refine ⟨p, row, hp, hfirst, haddress, hstatement, ?_⟩
  rcases ((statement_or_next windingMap).2 _ p 4 row hp hfirst).1 with hhere | hnext
  · rw [hstatement, haddress] at hhere
    contradiction
  · rw [hnext, hstatement]

/-! ## Steps -/

/-- Behind any number of steps: the address that the last one came to, and the map. -/
def walk (m : AddressMap) (address : UInt64) : Nat → UInt64 × AddressMap
  | 0 => (address, m)
  | steps + 1 =>
    let (here, behind) := m.walk address steps
    let answer := behind.nextStatement (.address here)
    (answer.value, answer.map)

def walked (m : AddressMap) (address : UInt64) (steps : Nat) : UInt64 := (m.walk address steps).1

theorem Alike.nextStatement {n : AddressMap} (h : m.Alike n) (place : Location) :
    (m.nextStatement place).value = (n.nextStatement place).value := by
  simp only [AddressMap.nextStatement, Answer.restate, h.start place]

theorem alike_nextStatement (m : AddressMap) (place : Location) :
    (m.nextStatement place).map.Alike m := by
  show (m.start place).map.Alike m
  rw [map_start]
  exact alike_visit m _

theorem alike_walk (m : AddressMap) (address : UInt64) (steps : Nat) :
    (m.walk address steps).2.Alike m := by
  induction steps with
  | zero => exact ⟨rfl, rfl⟩
  | succ steps ih => exact (alike_nextStatement _ _).trans ih

theorem walked_succ (m : AddressMap) (address : UInt64) (steps : Nat) :
    m.walked address (steps + 1) = (m.nextStatement (.address (m.walked address steps))).value :=
  (alike_walk m address steps).nextStatement _

end AddressMap

/-! ## Rows of one address -/

/-- Rows of one address stand together. -/
def Contiguous (rows : List Row) : Prop :=
  ∀ (i j k : Nat) (r s t : Row), i < j → j < k →
    rows[i]? = some r → rows[j]? = some s → rows[k]? = some t →
      r.address = t.address → s.address = r.address

/-- The first row at an address has this position. -/
def FirstAt (rows : List Row) (address : UInt64) (position : Nat) : Prop :=
  ∃ row, IsFirst rows (fun _ r => r.address = address) position row

section FirstAt

variable {rows : List Row} {address : UInt64} {position : Nat}

theorem FirstAt.unique {position' : Nat} (h : FirstAt rows address position)
    (h' : FirstAt rows address position') : position = position' := by
  obtain ⟨_, hfirst⟩ := h
  obtain ⟨_, hfirst'⟩ := h'
  exact (hfirst.unique hfirst').1

theorem FirstAt.lt_length (h : FirstAt rows address position) : position < rows.length := by
  obtain ⟨_, hfirst⟩ := h
  exact (List.getElem?_eq_some_iff.1 hfirst.1).1

/-- Behind the first row at an address, a row elsewhere belongs to rows that all stand there. -/
theorem Contiguous.exists_firstAt (hrows : Contiguous rows) {first found : Row} {q : Nat}
    (hfirst : IsFirst rows (fun _ r => r.address = address) position first)
    (hfound : rows[q]? = some found) (hbehind : position < q) (haway : found.address ≠ address) :
    ∃ later, FirstAt rows found.address later ∧ position < later := by
  obtain ⟨later, other, hother⟩ := exists_isFirst (fun _ r => r.address = found.address) hfound rfl
  refine ⟨later, ⟨other, hother⟩, ?_⟩
  by_contra hnot
  rcases Nat.lt_or_eq_of_le (Nat.le_of_not_lt hnot) with hlt | rfl
  · -- The first row would stand between two rows of the address found.
    have hbetween := hrows later position q other first found hlt hbehind hother.1 hfirst.1 hfound
      hother.qualifies
    have hsame : found.address = first.address := (hbetween.trans hother.qualifies).symm
    exact haway (hsame.trans hfirst.qualifies)
  · obtain rfl : other = first := Option.some.inj (hother.1.symm.trans hfirst.1)
    exact haway (hother.qualifies.symm.trans hfirst.qualifies)

end FirstAt

/-! ## Progress -/

namespace AddressMap

variable {m : AddressMap} {p : Program} {address : UInt64}

/-- Every row leads back to the program, and rows of one address stand together. -/
structure Steppable (m : AddressMap) (p : Program) : Prop where
  hasProgram (row : Row) : row ∈ p.rows → m.HasProgram (.address row.address) p
  contiguous : Contiguous p.rows

/-- One step stays in the program and goes from one first row to a later one. -/
theorem Steppable.next (hsteps : m.Steppable p) (hp : m.HasProgram (.address address) p)
    (hnext : (m.nextStatement (.address address)).value ≠ 0) :
    m.HasProgram (.address (m.nextStatement (.address address)).value) p ∧
      ∃ start later, FirstAt p.rows address start ∧
        FirstAt p.rows (m.nextStatement (.address address)).value later ∧ start < later := by
  cases hstart : (m.start (.address address)).value with
  | none => exact absurd (statement_of_no_start hstart).2 hnext
  | some found =>
    obtain ⟨q, row⟩ := found
    obtain ⟨hq, hfirst⟩ := start_eq_some_iff.1 hstart
    obtain rfl := hp.unique hq
    rw [(statement_of_start hstart).2] at hnext ⊢
    rcases p.addressOfFirst_statementAfter row with ⟨_, found, hfound, haddress⟩ | ⟨-, hnone⟩
    · obtain ⟨hbehind, -, haway⟩ := hfound.qualifies
      have hhere : row.address = address := hfirst.qualifies
      rw [hhere] at haway
      obtain ⟨later, hlater, hlt⟩ :=
        hsteps.contiguous.exists_firstAt hfirst hfound.1 hbehind haway
      rw [← haddress]
      exact ⟨hsteps.hasProgram found (List.mem_of_getElem? hfound.1), row.position, later,
        ⟨row, hfirst⟩, hlater, hlt⟩
    · exact absurd hnone hnext

/-- No step up to this one came to an end. -/
def Ongoing (m : AddressMap) (address : UInt64) (steps : Nat) : Prop :=
  ∀ i, 0 < i → i ≤ steps → m.walked address i ≠ 0

theorem Ongoing.mono {i steps : Nat} (h : m.Ongoing address steps) (hle : i ≤ steps) :
    m.Ongoing address i :=
  fun j hj hji => h j hj (Nat.le_trans hji hle)

theorem Ongoing.before {steps : Nat} (h : m.Ongoing address (steps + 1)) :
    m.Ongoing address steps :=
  h.mono (Nat.le_succ steps)

theorem Ongoing.next_ne {steps : Nat} (h : m.Ongoing address (steps + 1)) :
    (m.nextStatement (.address (m.walked address steps))).value ≠ 0 := by
  rw [← walked_succ]
  exact h (steps + 1) (Nat.succ_pos steps) (Nat.le_refl _)

section Walking

variable (hsteps : m.Steppable p) (hp : m.HasProgram (.address address) p)
include hsteps hp

theorem Steppable.hasProgram_walked {steps : Nat} (hongoing : m.Ongoing address steps) :
    m.HasProgram (.address (m.walked address steps)) p := by
  induction steps with
  | zero => exact hp
  | succ steps ih =>
    rw [walked_succ]
    exact (hsteps.next (ih hongoing.before) hongoing.next_ne).1

theorem Steppable.walked_next {steps : Nat} (hongoing : m.Ongoing address (steps + 1)) :
    ∃ start later, FirstAt p.rows (m.walked address steps) start ∧
      FirstAt p.rows (m.walked address (steps + 1)) later ∧ start < later := by
  have hbefore := hsteps.hasProgram_walked hp hongoing.before
  rw [walked_succ]
  exact (hsteps.next hbefore hongoing.next_ne).2

/-- The first rows of a walk follow one another in the program. -/
theorem Steppable.walked_lt {i j : Nat} (hij : i < j) (hongoing : m.Ongoing address j) :
    ∃ start later, FirstAt p.rows (m.walked address i) start ∧
      FirstAt p.rows (m.walked address j) later ∧ start < later := by
  induction j, hij using Nat.le_induction with
  | base => exact hsteps.walked_next hp hongoing
  | succ j hij ih =>
    -- Both the walk so far and its last step speak of the first row at the address between.
    obtain ⟨start, middle, hstart, hmiddle, hlt⟩ := ih hongoing.before
    obtain ⟨middle', later, hmiddle', hlater, hlt'⟩ := hsteps.walked_next hp hongoing
    obtain rfl := hmiddle.unique hmiddle'
    exact ⟨start, later, hstart, hlater, Nat.lt_trans hlt hlt'⟩

theorem Steppable.le_of_firstAt_walked {steps position : Nat}
    (hongoing : m.Ongoing address steps)
    (hposition : FirstAt p.rows (m.walked address steps) position) : steps ≤ position := by
  induction steps generalizing position with
  | zero => exact Nat.zero_le position
  | succ steps ih =>
    obtain ⟨start, later, hstart, hlater, hlt⟩ := hsteps.walked_next hp hongoing
    have hle := ih hongoing.before hstart
    have hsame := hlater.unique hposition
    omega

/-- A walk comes to an end with at most one step more than the program has rows. -/
theorem Steppable.exists_walked_eq :
    ∃ steps, 0 < steps ∧ steps ≤ p.rows.length + 1 ∧ m.walked address steps = 0 := by
  by_contra hnone
  have hongoing : m.Ongoing address (p.rows.length + 1) :=
    fun i hi hle hzero => hnone ⟨i, hi, hle, hzero⟩
  obtain ⟨_, later, -, hlater, -⟩ := hsteps.walked_next hp hongoing
  have hle := hsteps.le_of_firstAt_walked hp hongoing hlater
  have hlt := hlater.lt_length
  omega

end Walking

/-- Steps through a program whose rows lead back to it and stand together by address come to
an end after at most one call more than the program has rows.  Until then the first row of
each address is behind that of the address before it, so no address comes twice. -/
theorem walk_progresses {u : CompileUnit} (hu : m.units.covering? address = some u)
    (hp : m.Decodes u p)
    (hunits : ∀ row ∈ p.rows, ∃ v, m.units.covering? row.address = some v ∧
      v.lineProgramOffset? = u.lineProgramOffset?)
    (hrows : Contiguous p.rows) :
    ∃ calls, 0 < calls ∧ calls ≤ p.rows.length + 1 ∧ m.walked address calls = 0 ∧
      (∀ i, 0 < i → i < calls → m.walked address i ≠ 0) ∧
      ∀ i j, i < j → j < calls → m.walked address i ≠ m.walked address j ∧
        ∃ start later, FirstAt p.rows (m.walked address i) start ∧
          FirstAt p.rows (m.walked address j) later ∧ start < later := by
  have hsteps : m.Steppable p := by
    refine ⟨fun row hrow => ?_, hrows⟩
    obtain ⟨v, hv, hplace⟩ := hunits row hrow
    obtain ⟨offset, hoffset, hdecode⟩ := hp
    exact ⟨v, hv, offset, hplace.trans hoffset, hdecode⟩
  have hprogram : m.HasProgram (.address address) p := ⟨u, hu, hp⟩
  obtain ⟨steps, hpos, hle, hzero⟩ := hsteps.exists_walked_eq hprogram
  have hend : ∃ calls, 0 < calls ∧ m.walked address calls = 0 := ⟨steps, hpos, hzero⟩
  have hbefore : ∀ i, 0 < i → i < Nat.find hend → m.walked address i ≠ 0 :=
    fun i hi hlt hzero => Nat.find_min hend hlt ⟨hi, hzero⟩
  refine ⟨Nat.find hend, (Nat.find_spec hend).1,
    Nat.le_trans (Nat.find_min' hend ⟨hpos, hzero⟩) hle, (Nat.find_spec hend).2, hbefore,
    fun i j hij hj => ?_⟩
  have hongoing : m.Ongoing address j := fun i hi hle => hbefore i hi (Nat.lt_of_le_of_lt hle hj)
  obtain ⟨start, later, hstart, hlater, hlt⟩ := hsteps.walked_lt hprogram hij hongoing
  refine ⟨fun hsame => ?_, start, later, hstart, hlater, hlt⟩
  rw [hsame] at hstart
  exact Nat.ne_of_lt hlt (hstart.unique hlater)

/-- The steps from address 16 go by the addresses 32, 24 and 20. -/
theorem walk_progresses_sample :
    ∃ p, windingMap.units.covering? 16 = some windingUnit ∧ windingMap.Decodes windingUnit p ∧
      Contiguous p.rows ∧ p.rows.length = 7 ∧
      (∃ calls, 0 < calls ∧ calls ≤ 8 ∧ windingMap.walked 16 calls = 0 ∧
        ∀ i j, i < j → j < calls → windingMap.walked 16 i ≠ windingMap.walked 16 j) ∧
      (List.range 5).map (windingMap.walked 16) = [16, 32, 24, 20, 0] := by
  have hshown : (windingMap.program windingUnit).value.map
      (fun p => p.rows.map (·.address)) = some windingAddresses := by cbv
  obtain ⟨p, hprogram, haddresses⟩ := Option.map_eq_some_iff.1 hshown
  have hu : windingMap.units.covering? 16 = some windingUnit := rfl
  have hp := program_eq_some.1 hprogram
  have hlength : p.rows.length = windingAddresses.length := by rw [← haddresses, List.length_map]
  have hunits : ∀ row ∈ p.rows, ∃ v, windingMap.units.covering? row.address = some v ∧
      v.lineProgramOffset? = windingUnit.lineProgramOffset? := by
    have hcovered : ∀ address ∈ windingAddresses,
        windingMap.units.covering? address = some windingUnit := by
      simp only [windingAddresses, List.forall_mem_cons]
      exact ⟨rfl, rfl, rfl, rfl, rfl, rfl, rfl, List.forall_mem_nil _⟩
    intro row hrow
    have hmem : row.address ∈ windingAddresses := haddresses ▸ List.mem_map_of_mem hrow
    exact ⟨windingUnit, hcovered _ hmem, rfl⟩
  have hrows : Contiguous p.rows := by
    have htogether : ∀ k < windingAddresses.length, ∀ j < k, ∀ i < j,
        windingAddresses[i]? = windingAddresses[k]? →
          windingAddresses[j]? = windingAddresses[i]? := by decide
    have hat : ∀ {q : Nat} {row : Row}, p.rows[q]? = some row →
        windingAddresses[q]? = some row.address := by
      intro q row hrow
      rw [← haddresses, List.getElem?_map, hrow]
      rfl
    intro i j k r s t hij hjk hi hj hk hsame
    have hlt := (List.getElem?_eq_some_iff.1 hk).1
    rw [hlength] at hlt
    have heq := htogether k hlt j hjk i hij (by rw [hat hi, hat hk, hsame])
    rw [hat hi, hat hj] at heq
    exact Option.some.inj heq
  obtain ⟨calls, hpos, hle, hzero, -, hprogress⟩ := walk_progresses hu hp hunits hrows
  rw [hlength] at hle
  refine ⟨p, hu, hp, hrows, hlength, ⟨calls, hpos, hle, hzero, ?_⟩, by cbv⟩
  exact fun i j hij hj => (hprogress i j hij hj).1

end AddressMap
end LineTable
