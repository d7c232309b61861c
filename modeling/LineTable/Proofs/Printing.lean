/-
What the statement commands print.

A search for a statement either finds a row or it does not, and its answer is an address in
both cases, which is zero where nothing was found (`Answers`).  So what is printed is the
address of the row that was found, unless that row is at address zero: then `none` is printed
as if there were no row (`printed_statement`, `none_for_statement`).
-/
import LineTable.CommandLine.Command
import LineTable.Proofs.Stepping

namespace LineTable
namespace AddressMap

/-! ## Rows that searches find -/

/-- Of the rows of the place's program, the first that qualifies with regard to the first row
at the place. -/
def Finds (m : AddressMap) (place : Location) (qualifies : Nat → Row → Nat → Row → Prop)
    (found : Row) : Prop :=
  ∃ p start row position, m.HasProgram place p ∧
    IsFirst p.rows (fun _ r => r.LiesAt place) start row ∧
      IsFirst p.rows (qualifies start row) position found

/-- A statement from the start on. -/
def FromStart (start : Nat) (_ : Row) (q : Nat) (r : Row) : Prop := start ≤ q ∧ r.isStatement

/-- A statement behind the start at another address. -/
def BehindStart (start : Nat) (row : Row) (q : Nat) (r : Row) : Prop :=
  start < q ∧ r.isStatement ∧ r.address ≠ row.address

/-- The address of the row found, or no address if there is no such row. -/
def Answers (m : AddressMap) (place : Location) (qualifies : Nat → Row → Nat → Row → Prop)
    (address : UInt64) : Prop :=
  (∃ r, m.Finds place qualifies r ∧ r.address = address) ∨
    (∀ r, ¬ m.Finds place qualifies r) ∧ address = noAddress

variable {m : AddressMap} {place : Location} {qualifies : Nat → Row → Nat → Row → Prop}

theorem Finds.exists_start {found : Row} (h : m.Finds place qualifies found) :
    ∃ p row, (m.start place).value = some (p, row) ∧
      ∃ position, IsFirst p.rows (qualifies row.position row) position found := by
  obtain ⟨p, start, row, position, hp, hfirst, hfound⟩ := h
  obtain rfl := hp.row_position hfirst.1
  exact ⟨p, row, start_eq_some_iff.2 ⟨hp, hfirst⟩, position, hfound⟩

theorem Finds.of_start {p : Program} {row found : Row} (h : m.Finds place qualifies found)
    (hstart : (m.start place).value = some (p, row)) :
    ∃ position, IsFirst p.rows (qualifies row.position row) position found := by
  obtain ⟨p', row', hstart', hfound⟩ := h.exists_start
  obtain ⟨rfl, rfl⟩ := Prod.mk.inj (Option.some.inj (hstart.symm.trans hstart'))
  exact hfound

theorem Finds.unique {r s : Row} (hr : m.Finds place qualifies r)
    (hs : m.Finds place qualifies s) : r = s := by
  obtain ⟨p, row, hstart, _, hfound⟩ := hr.exists_start
  obtain ⟨_, hfound'⟩ := hs.of_start hstart
  exact (hfound.unique hfound').2

theorem answers_of_start {address : UInt64}
    (hnone : (m.start place).value = none → address = noAddress)
    (hsome : ∀ p row, (m.start place).value = some (p, row) →
      AddressOfFirst p.rows (qualifies row.position row) address) :
    m.Answers place qualifies address := by
  cases hstart : (m.start place).value with
  | none =>
    refine .inr ⟨fun r hr => ?_, hnone hstart⟩
    obtain ⟨p, row, hstart', -⟩ := hr.exists_start
    rw [hstart] at hstart'
    contradiction
  | some start =>
    obtain ⟨p, row⟩ := start
    rcases hsome p row hstart with ⟨position, found, hfound, haddress⟩ | ⟨hnone, haddress⟩
    · obtain ⟨hp, hfirst⟩ := start_eq_some_iff.1 hstart
      exact .inl ⟨found, ⟨p, row.position, row, position, hp, hfirst, hfound⟩, haddress⟩
    · refine .inr ⟨fun r hr => ?_, haddress⟩
      obtain ⟨position, hfound⟩ := hr.of_start hstart
      exact hnone position r hfound.1 hfound.qualifies

theorem answers_statement (m : AddressMap) (place : Location) :
    m.Answers place FromStart (m.statement place).value := by
  refine answers_of_start (fun hnone => (statement_of_no_start hnone).1) fun p row hstart => ?_
  rw [(statement_of_start hstart).1]
  exact p.addressOfFirst_statementFrom row

theorem answers_nextStatement (m : AddressMap) (place : Location) :
    m.Answers place BehindStart (m.nextStatement place).value := by
  refine answers_of_start (fun hnone => (statement_of_no_start hnone).2) fun p row hstart => ?_
  rw [(statement_of_start hstart).2]
  exact p.addressOfFirst_statementAfter row

theorem Answers.address_eq {address : UInt64} {r : Row} (h : m.Answers place qualifies address)
    (hr : m.Finds place qualifies r) : r.address = address := by
  rcases h with ⟨s, hs, rfl⟩ | ⟨hnone, -⟩
  · rw [hr.unique hs]
  · exact absurd hr (hnone r)

/-- A row that qualifies wherever the search starts is found, or one before it is. -/
theorem exists_finds {p : Program} {i q : Nat} {here r : Row} (hp : m.HasProgram place p)
    (hat : p.rows[i]? = some here) (hplace : here.LiesAt place) (hrow : p.rows[q]? = some r)
    (hqualifies : ∀ start row, start ≤ i → row.LiesAt place → qualifies start row q r) :
    ∃ found, m.Finds place qualifies found := by
  obtain ⟨start, row, hfirst⟩ := exists_isFirst (fun _ r => r.LiesAt place) hat hplace
  have hle : start ≤ i := hfirst.2.2 ⟨here, hat, hplace⟩
  obtain ⟨position, found, hfound⟩ :=
    exists_isFirst (qualifies start row) hrow (hqualifies start row hle hfirst.qualifies)
  exact ⟨found, p, start, row, position, hp, hfirst, hfound⟩

end AddressMap

namespace CommandLine

open AddressMap

theorem hex_ne_none (n : Nat) : Number.hex n ≠ "none" := by
  intro h
  have hchars := congrArg String.toList h
  rw [Number.hex, String.toList_append] at hchars
  exact absurd (List.cons.inj hchars).1 (by decide)

theorem renderAddress_eq_none_iff {address : UInt64} :
    renderAddress address = "none" ↔ address = 0 := by
  rw [renderAddress]
  split
  · rename_i hzero
    exact iff_of_true rfl hzero
  · rename_i hnonzero
    exact iff_of_false (hex_ne_none _) hnonzero

/-- What is printed for an answer, seen from the row that was found. -/
theorem render_of_answers {m : AddressMap} {place : Location}
    {qualifies : Nat → Row → Nat → Row → Prop} {address : UInt64}
    (h : m.Answers place qualifies address) :
    (renderAddress address = "none" ↔ (∀ r, ¬ m.Finds place qualifies r) ∨
        ∃ r, m.Finds place qualifies r ∧ r.address = 0) ∧
      ∀ r, m.Finds place qualifies r → r.address ≠ 0 →
        renderAddress address = Number.hex r.address.toNat := by
  rw [renderAddress_eq_none_iff]
  rcases h with ⟨r, hr, rfl⟩ | ⟨hnone, rfl⟩
  · constructor
    · constructor
      · intro hzero
        exact .inr ⟨r, hr, hzero⟩
      · rintro (hnone | ⟨s, hs, hzero⟩)
        · exact absurd hr (hnone r)
        · rw [hr.unique hs, hzero]
    · intro s hs hnonzero
      obtain rfl := hr.unique hs
      exact if_neg hnonzero
  · exact ⟨iff_of_true rfl (.inl hnone), fun r hr => absurd hr (hnone r)⟩

theorem prints_iff {line line' : String} :
    (Except.ok [line] : Except CommandError (List String)) = .ok [line'] ↔ line = line' := by
  rw [Except.ok.injEq, List.singleton_inj]

namespace Command

/-- For both commands about statements `none` is printed when no row is found and when the row
found is at address zero.  The address of any other row is printed. -/
theorem printed_statement (m : AddressMap) (address : UInt64) :
    ((((stmt address).run m).value = .ok ["none"] ↔
        (∀ r, ¬ m.Finds (.address address) FromStart r) ∨
          ∃ r, m.Finds (.address address) FromStart r ∧ r.address = 0) ∧
      ∀ r, m.Finds (.address address) FromStart r → r.address ≠ 0 →
        ((stmt address).run m).value = .ok [Number.hex r.address.toNat]) ∧
    (((next address).run m).value = .ok ["none"] ↔
        (∀ r, ¬ m.Finds (.address address) BehindStart r) ∨
          ∃ r, m.Finds (.address address) BehindStart r ∧ r.address = 0) ∧
      ∀ r, m.Finds (.address address) BehindStart r → r.address ≠ 0 →
        ((next address).run m).value = .ok [Number.hex r.address.toNat] := by
  have hstmt : ((stmt address).run m).value =
      .ok [renderAddress (m.statement (.address address)).value] := rfl
  have hnext : ((next address).run m).value =
      .ok [renderAddress (m.nextStatement (.address address)).value] := rfl
  rw [hstmt, hnext]
  simp only [prints_iff]
  exact ⟨render_of_answers (answers_statement m _), render_of_answers (answers_nextStatement m _)⟩

/-- A unit whose code begins at address zero. -/
def lowestUnit : CompileUnit :=
  ⟨0, .compileUnit, [⟨.lowPc, .address 0⟩, ⟨.stmtList, .sectionOffset 0⟩]⟩

/-- A map of that unit, with two rows at address 16, where a sequence ends, and one at zero. -/
def lowestMap : AddressMap :=
  .ofParts [lowestUnit] ⟨[
    -- the length of the unit, its version and the length of its header
    29, 0, 0, 0, 2, 0, 16, 0, 0, 0,
    -- the fields, nine operand counts and two empty tables
    1, 1, 0xFB, 14, 10, 0, 1, 1, 1, 1, 0, 0, 0, 1, 0, 0,
    -- address 16, a row, the end of the sequence, a row
    2, 16, 1, 0, 1, 1, 1], .little⟩

theorem printed_statement_sample :
    ∃ r, lowestMap.Finds (.address 16) FromStart r ∧ r.address ≠ 0 ∧
      ((stmt 16).run lowestMap).value = .ok [Number.hex r.address.toNat] ∧
      ((stmt 16).run lowestMap).value = .ok ["0x10"] := by
  have hvalue : (lowestMap.statement (.address 16)).value = 16 := by cbv
  rcases answers_statement lowestMap (.address 16) with ⟨r, hr, haddress⟩ | ⟨-, hzero⟩
  · rw [hvalue] at haddress
    have hnonzero : r.address ≠ 0 := by
      rw [haddress]
      decide
    have hprinted := (printed_statement lowestMap 16).1.2 r hr hnonzero
    refine ⟨r, hr, hnonzero, hprinted, ?_⟩
    rw [hprinted, haddress]
    rfl
  · rw [hvalue] at hzero
    contradiction

/-- At address zero, and behind address 16, a statement is found and `none` is printed. -/
theorem none_for_statement :
    ((stmt 0).run lowestMap).value = .ok ["none"] ∧
      (∃ r, lowestMap.Finds (.address 0) FromStart r ∧ r.address = 0) ∧
      ¬ (((stmt 0).run lowestMap).value = .ok ["none"] ↔
        ∀ r, ¬ lowestMap.Finds (.address 0) FromStart r) ∧
      ((next 16).run lowestMap).value = .ok ["none"] ∧
      (∃ r, lowestMap.Finds (.address 16) BehindStart r ∧ r.address = 0) ∧
      ¬ (((next 16).run lowestMap).value = .ok ["none"] ↔
        ∀ r, ¬ lowestMap.Finds (.address 16) BehindStart r) := by
  have hshown : (lowestMap.program lowestUnit).value.map (fun p =>
      p.rows.map fun r => (r.address, r.isStatement)) =
        some [(16, true), (16, true), (0, true)] := by cbv
  obtain ⟨p, hprogram, hrows⟩ := Option.map_eq_some_iff.1 hshown
  have hdecodes := program_eq_some.1 hprogram
  have hrow : ∀ q : Nat, p.rows[q]?.map (fun r : Row => (r.address, r.isStatement)) =
      [(16, true), (16, true), (0, true)][q]? := by
    intro q
    rw [← List.getElem?_map, hrows]
  obtain ⟨first, hfirst, hfirstShown⟩ := Option.map_eq_some_iff.1 (hrow 0)
  obtain ⟨last, hlast, hlastShown⟩ := Option.map_eq_some_iff.1 (hrow 2)
  obtain ⟨hat, -⟩ := Prod.mk.inj hfirstShown
  obtain ⟨hzero, hstatement⟩ := Prod.mk.inj hlastShown
  have hstmt : ((stmt 0).run lowestMap).value = .ok ["none"] := by cbv
  have hnext : ((next 16).run lowestMap).value = .ok ["none"] := by cbv
  have hlowest : lowestMap.HasProgram (.address 0) p := ⟨lowestUnit, rfl, hdecodes⟩
  have hhigher : lowestMap.HasProgram (.address 16) p := ⟨lowestUnit, rfl, hdecodes⟩
  obtain ⟨r, hr⟩ := exists_finds hlowest hlast hzero hlast fun start _ hle _ =>
    show FromStart start _ 2 last from ⟨hle, hstatement⟩
  obtain ⟨s, hs⟩ := exists_finds hhigher hfirst hat hlast fun start row hle hhere =>
    show BehindStart start row 2 last from ⟨by omega, hstatement, by rw [hzero, hhere]; decide⟩
  have hr0 : r.address = 0 := by
    rw [(answers_statement lowestMap _).address_eq hr]
    cbv
  have hs0 : s.address = 0 := by
    rw [(answers_nextStatement lowestMap _).address_eq hs]
    cbv
  exact ⟨hstmt, ⟨r, hr, hr0⟩, fun hiff => hiff.1 hstmt r hr,
    hnext, ⟨s, hs, hs0⟩, fun hiff => hiff.1 hnext s hs⟩

end Command
end CommandLine
end LineTable
