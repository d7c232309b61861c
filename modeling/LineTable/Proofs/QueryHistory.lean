/-
Maps that have been asked.

A query comes to one unit at most, and from the unit to one place in the section.  All
that it does to the map is to look that place up (`AddressMap.map_ask`), and its value is
decided by the units and the section alone (`AddressMap.Alike.ask`), which no query
changes.  `AddressMap.askAll` asks one query after the other.  The theorem this file
exists for is `queries_independent`: no query has a part in the reply to another one, and
the cells of the store are those of the places that the queries came to.
-/
import LineTable.Proofs.StoreHistory
import LineTable.Proofs.RangeQueries

namespace LineTable

/-- What one can ask of a map. -/
inductive Query where
  | addressesForLine (line : SourceLine)
  | linesForAddress (address : UInt64)
  | nextStatement (place : Location)
  | statement (place : Location)
  | program (unit : CompileUnit)

inductive Reply where
  | addresses (ranges : List (Interval UInt64))
  | lines (ranges : List SourceLines)
  | statement (address : UInt64)
  | program (found : Option Program)

def Location.unit? (units : UnitIndex) : Location → Option CompileUnit
  | .address a => units.covering? a
  | .line l => l.unit.compileUnit.toOption

namespace Query

/-- The unit that a query resolves to. -/
def unit? (units : UnitIndex) : Query → Option CompileUnit
  | addressesForLine l => Location.unit? units (.line l)
  | linesForAddress address => Location.unit? units (.address address)
  | nextStatement place | statement place => place.unit? units
  | program u => some u

/-- The place of the program of that unit. -/
def offset? (units : UnitIndex) (q : Query) : Option UInt64 :=
  (q.unit? units).bind (·.lineProgramOffset?)

end Query

namespace AddressMap

def ask (m : AddressMap) : Query → Answer Reply
  | .addressesForLine l => (m.addressesForLine l).restate .addresses
  | .linesForAddress address => (m.linesForAddress address).restate .lines
  | .nextStatement place => (m.nextStatement place).restate .statement
  | .statement place => (m.statement place).restate .statement
  | .program u => (m.program u).restate .program

/-- The replies to queries in turn, and the map behind them. -/
def askAll (m : AddressMap) : List Query → List Reply × AddressMap
  | [] => ([], m)
  | q :: rest =>
    let answer := m.ask q
    let (replies, last) := answer.map.askAll rest
    (answer.value :: replies, last)

/-- The map behind a lookup, if there is anything to look up. -/
def visit (m : AddressMap) : Option UInt64 → AddressMap
  | none => m
  | some offset => { m with programs := (m.programs.lookup offset).store }

variable {m n : AddressMap}

/-! ## What a query does to the map -/

theorem map_program (m : AddressMap) (u : CompileUnit) :
    (m.program u).map = m.visit u.lineProgramOffset? := by
  rw [program]
  cases u.lineProgramOffset? with
  | none => rfl
  | some offset => rfl

theorem map_programOfLine (m : AddressMap) (l : SourceLine) :
    (m.programOfLine l).map =
      m.visit ((Location.unit? m.units (.line l)).bind (·.lineProgramOffset?)) := by
  obtain ⟨unit, line⟩ := l
  cases unit with
  | described u => exact map_program m u
  | symbolsOnly file => rfl

theorem map_start (m : AddressMap) (place : Location) :
    (m.start place).map = m.visit ((place.unit? m.units).bind (·.lineProgramOffset?)) := by
  cases place with
  | address address =>
    rw [start, Location.unit?]
    cases m.units.covering? address with
    | none => rfl
    | some u => exact map_program m u
  | line l => exact map_programOfLine m l

/-- A query looks up the place that it resolves to, and does nothing else to the map. -/
theorem map_ask (m : AddressMap) (q : Query) : (m.ask q).map = m.visit (q.offset? m.units) := by
  cases q with
  | addressesForLine l => exact map_programOfLine m l
  | linesForAddress address =>
    show (m.linesForAddress address).map = m.visit ((m.units.covering? address).bind _)
    rw [linesForAddress]
    cases m.units.covering? address with
    | none => rfl
    | some u => exact map_program m u
  | nextStatement place => exact map_start m place
  | statement place => exact map_start m place
  | program u => exact map_program m u

/-! ## What decides a reply -/

/-- Maps over the same units and the same section. -/
structure Alike (m n : AddressMap) : Prop where
  units : m.units = n.units
  lines : m.programs.lines = n.programs.lines

theorem alike_visit (m : AddressMap) (place : Option UInt64) : (m.visit place).Alike m := by
  cases place with
  | none => exact ⟨rfl, rfl⟩
  | some offset => exact ⟨rfl, ProgramStore.lines_lookup m.programs offset⟩

theorem Alike.program (h : m.Alike n) (u : CompileUnit) :
    (m.program u).value = (n.program u).value := by
  refine Option.ext fun p => ?_
  rw [program_eq_some, program_eq_some, Decodes, Decodes, h.lines]

theorem Alike.programOfLine (h : m.Alike n) (l : SourceLine) :
    (m.programOfLine l).value = (n.programOfLine l).value := by
  obtain ⟨unit, line⟩ := l
  cases unit with
  | described u => exact h.program u
  | symbolsOnly file => rfl

theorem Alike.start (h : m.Alike n) (place : Location) :
    (m.start place).value = (n.start place).value := by
  cases place with
  | address address =>
    rw [AddressMap.start, AddressMap.start, h.units]
    cases n.units.covering? address with
    | none => rfl
    | some u => simp only [Answer.restate, h.program u]
  | line l => simp only [AddressMap.start, Answer.restate, h.programOfLine l]

/-- The cells of the store have no part in a reply. -/
theorem Alike.ask (h : m.Alike n) (q : Query) : (m.ask q).value = (n.ask q).value := by
  cases q with
  | addressesForLine l =>
    simp only [AddressMap.ask, addressesForLine, Answer.restate, h.programOfLine l]
  | linesForAddress address =>
    simp only [AddressMap.ask, linesForAddress, h.units]
    cases n.units.covering? address with
    | none => rfl
    | some u => simp only [Answer.restate, h.program u]
  | nextStatement place =>
    simp only [AddressMap.ask, nextStatement, Answer.restate, h.start place]
  | statement place => simp only [AddressMap.ask, statement, Answer.restate, h.start place]
  | program u => simp only [AddressMap.ask, Answer.restate, h.program u]

theorem alike_ask (m : AddressMap) (q : Query) : (m.ask q).map.Alike m := by
  rw [map_ask]
  exact alike_visit m _

/-! ## Queries in turn -/

theorem Alike.trans {k : AddressMap} (h : k.Alike m) (h' : m.Alike n) : k.Alike n :=
  ⟨h.units.trans h'.units, h.lines.trans h'.lines⟩

theorem Alike.replies (h : m.Alike n) (queries : List Query) :
    (m.askAll queries).1 = queries.map fun q => (n.ask q).value := by
  induction queries generalizing m with
  | nil => rfl
  | cons q rest ih =>
    show (m.ask q).value :: ((m.ask q).map.askAll rest).1 = _
    rw [List.map_cons, h.ask q, ih ((alike_ask m q).trans h)]

theorem alike_askAll (m : AddressMap) (queries : List Query) :
    (m.askAll queries).2.Alike m := by
  induction queries generalizing m with
  | nil => exact ⟨rfl, rfl⟩
  | cons q rest ih => exact (ih (m.ask q).map).trans (alike_ask m q)

/-- One query keeps a cell for its place, beside those that there were. -/
theorem keptFor_ask {lines : LineSection} {offsets : UInt64 → Prop}
    (hm : m.programs.KeptFor lines offsets) (q : Query) :
    (m.ask q).map.programs.KeptFor lines fun offset =>
      q.offset? m.units = some offset ∨ offsets offset := by
  rw [map_ask]
  cases hplace : q.offset? m.units with
  | none => exact hm.congr fun offset => by simp
  | some sought => exact (hm.lookup sought).congr fun offset => by simp [eq_comm]

theorem keptFor_askAll {lines : LineSection} {offsets : UInt64 → Prop}
    (hm : m.programs.KeptFor lines offsets) (queries : List Query) :
    (m.askAll queries).2.programs.KeptFor lines fun offset =>
      (∃ q ∈ queries, q.offset? m.units = some offset) ∨ offsets offset := by
  -- The first query adds its place to the kept ones, so these vary along with the map.
  induction queries generalizing m offsets with
  | nil => exact hm.congr fun offset => by simp
  | cons q rest ih =>
    refine (ih (keptFor_ask hm q)).congr fun offset => ?_
    rw [(alike_ask m q).units]
    rw [List.exists_mem_cons_iff, or_assoc]
    exact or_left_comm

/-- A query that comes to no place in the section leaves the map as it is. -/
theorem map_ask_of_outside {q : Query}
    (h : ∀ u, q.unit? m.units = some u → ∀ offset, u.lineProgramOffset? = some offset →
      m.programs.lines.size ≤ offset.toNat) : (m.ask q).map = m := by
  rw [map_ask]
  cases hplace : q.offset? m.units with
  | none => rfl
  | some offset =>
    obtain ⟨u, hu, hoffset⟩ := Option.bind_eq_some_iff.1 hplace
    have hout := LineSection.not_contains_iff.2 (h u hu offset hoffset)
    rw [visit, ProgramStore.lookup_outside hout]

/-- Behind any queries every reply is that of a new map, and the store has cells for the
places in the section that the queries came to and for no others.  A query that comes to
no such place, for want of a unit, of a place or of bytes there, leaves the map alone. -/
theorem queries_independent (units : List CompileUnit) (lines : LineSection)
    (queries : List Query) :
    ((ofParts units lines).askAll queries).1 =
        queries.map (fun q => ((ofParts units lines).ask q).value) ∧
      (∀ offset, offset ∈ ((ofParts units lines).askAll queries).2.programs.keys ↔
        offset.toNat < lines.size ∧ ∃ q ∈ queries, ∃ u,
          q.unit? (.ofUnits units) = some u ∧ u.lineProgramOffset? = some offset) ∧
      ∀ q : Query, (∀ u, q.unit? (.ofUnits units) = some u →
          ∀ offset, u.lineProgramOffset? = some offset → lines.size ≤ offset.toNat) →
        (((ofParts units lines).askAll queries).2.ask q).map =
          ((ofParts units lines).askAll queries).2 := by
  have hkept := keptFor_askAll (m := ofParts units lines)
    (ProgramStore.keptFor_ofSection lines) queries
  have halike := alike_askAll (ofParts units lines) queries
  refine ⟨Alike.replies ⟨rfl, rfl⟩ queries, fun offset => ?_, fun q hq => ?_⟩
  · rw [hkept.mem_keys, LineSection.contains_iff]
    simp only [not_sought_nil, or_false, Query.offset?, Option.bind_eq_some_iff]
    rfl
  · refine map_ask_of_outside ?_
    rw [halike.units, halike.lines]
    exact hq

/-- A unit with a place in the section at address 16, one without any at address 32 and
one whose place lies behind the section at address 48. -/
def unevenUnits : List CompileUnit :=
  [⟨0, .compileUnit, [⟨.lowPc, .address 16⟩, ⟨.stmtList, .sectionOffset 0⟩]⟩,
    ⟨40, .compileUnit, [⟨.lowPc, .address 32⟩]⟩,
    ⟨80, .compileUnit, [⟨.lowPc, .address 48⟩, ⟨.stmtList, .sectionOffset 1000⟩]⟩]

/-- A map of those units over a section too short for a program. -/
def unevenMap : AddressMap := .ofParts unevenUnits ⟨[1, 0, 0, 0], .little⟩

/-- One address in each of those units, and one line that no unit describes. -/
def unevenQueries : List Query :=
  [.linesForAddress 17, .statement (.address 40), .nextStatement (.address 60),
    .addressesForLine ⟨.symbolsOnly "crt0.s", 6⟩]

/-- The program of the first unit does not decode, and has its cell all the same. -/
theorem queries_independent_sample :
    (unevenMap.askAll unevenQueries).1 = unevenQueries.map (fun q => (unevenMap.ask q).value) ∧
      0 ∈ (unevenMap.askAll unevenQueries).2.programs.keys ∧
      1000 ∉ (unevenMap.askAll unevenQueries).2.programs.keys ∧
      ((unevenMap.askAll unevenQueries).2.ask (.statement (.address 63))).map =
        (unevenMap.askAll unevenQueries).2 := by
  obtain ⟨hreplies, hkeys, hsame⟩ :=
    queries_independent unevenUnits ⟨[1, 0, 0, 0], .little⟩ unevenQueries
  refine ⟨hreplies, (hkeys 0).2 ?_, fun hmem => ?_, hsame _ ?_⟩
  · exact ⟨by decide, .linesForAddress 17, List.mem_cons_self, _, rfl, rfl⟩
  · have hlt := ((hkeys 1000).1 hmem).1
    revert hlt
    decide
  · intro u hu offset hoffset
    cases hu
    cases hoffset
    decide

end AddressMap
end LineTable
