/-
Flags of one row.

Four instructions mark the next row: it begins a basic block, a prologue ends there, an
epilogue begins there, or it has a discriminator.  A mark stands until a row is recorded, so
the registers show the marks that were set since the last row and no other
(`Registers.Marked`).  A step adds one instruction to the history and keeps this true, whichever
of the three kinds of instruction records a row (`Machine.Follows.outcome`).  The theorem this
file exists for is `marks_since_row`: no mark of one row is left on the next.
-/
import LineTable.Proofs.Invariants
import LineTable.Proofs.Outcomes
import Mathlib

namespace LineTable

variable {h : Header} {e : Endian} {code : List Instruction} {i : Instruction}

/-! ## Marks -/

/-- The instruction sets something for the next row only. -/
def Instruction.marks : Instruction → Bool
  | setBasicBlock | setPrologueEnd | setEpilogueBegin | setDiscriminator _ => true
  | _ => false

/-- The instructions since the last one that recorded a row. -/
def sinceRow (code : List Instruction) : List Instruction := code.rtakeWhile fun i => !i.records

theorem sinceRow_of_records (hi : i.records) : sinceRow (code ++ [i]) = [] :=
  List.rtakeWhile_concat_neg _ _ _ (by simp [hi])

theorem sinceRow_of_not_records (hi : ¬ i.records) : sinceRow (code ++ [i]) = sinceRow code ++ [i] :=
  List.rtakeWhile_concat_pos _ _ _ (by simp [hi])

/-- The discriminator that was set last. -/
def lastDiscriminator (code : List Instruction) : UInt32 :=
  (code.filterMap Instruction.discriminator?).getLastD 0

theorem lastDiscriminator_concat (code : List Instruction) (i : Instruction) :
    lastDiscriminator (code ++ [i]) = i.discriminator?.getD (lastDiscriminator code) := by
  rw [lastDiscriminator, List.filterMap_append, List.filterMap_cons, List.filterMap_nil]
  cases i.discriminator? with
  | none => rw [List.append_nil, Option.getD_none, lastDiscriminator]
  | some n => exact List.getLastD_concat

/-- The registers show the marks that instructions set, and no other. -/
structure Registers.Marked (r : Registers) (code : List Instruction) : Prop where
  basicBlock : r.basicBlock ↔ .setBasicBlock ∈ code
  prologueEnd : r.prologueEnd ↔ .setPrologueEnd ∈ code
  epilogueBegin : r.epilogueBegin ↔ .setEpilogueBegin ∈ code
  discriminator : r.discriminator = lastDiscriminator code

namespace Registers.Marked

variable {r : Registers}

/-- An instruction that marks nothing does not show. -/
theorem of_concat (hmarked : r.Marked (code ++ [i])) (hi : ¬ i.marks) : r.Marked code := by
  have hmem : ∀ j : Instruction, j.marks → (j ∈ code ++ [i] ↔ j ∈ code) := by
    intro j hj
    rw [List.mem_append, List.mem_singleton, or_iff_left]
    intro hji
    exact hi (hji ▸ hj)
  have hnone : i.discriminator? = none := by
    cases i with
    | setDiscriminator n => exact absurd rfl hi
    | _ => rfl
  obtain ⟨hblock, hprologue, hepilogue, hdiscriminator⟩ := hmarked
  rw [hmem _ rfl] at hblock hprologue hepilogue
  rw [lastDiscriminator_concat, hnone] at hdiscriminator
  exact ⟨hblock, hprologue, hepilogue, hdiscriminator⟩

theorem exists_setDiscriminator (hmarked : r.Marked code) (hne : r.discriminator ≠ 0) :
    ∃ n, .setDiscriminator n ∈ code := by
  by_contra hnone
  apply hne
  have hempty : code.filterMap Instruction.discriminator? = [] := by
    rw [List.filterMap_eq_nil_iff]
    intro i hi
    cases i with
    | setDiscriminator n => exact absurd ⟨n, hi⟩ hnone
    | _ => rfl
  rw [hmarked.discriminator, lastDiscriminator, hempty]
  rfl

theorem nil_of_forall (hmarked : r.Marked code) (hcode : ∀ i ∈ code, ¬ i.marks) : r.Marked [] := by
  induction code using List.reverseRecOn with
  | nil => exact hmarked
  | append_singleton rest i ih =>
    rw [List.forall_mem_append] at hcode
    exact ih (hmarked.of_concat (hcode.2 i (List.mem_singleton_self i))) hcode.1

/-- Without marks nothing is set. -/
theorem unmarked (hmarked : r.Marked []) : r.basicBlock = false ∧ r.prologueEnd = false ∧
    r.epilogueBegin = false ∧ r.discriminator = 0 := by
  obtain ⟨hblock, hprologue, hepilogue, hdiscriminator⟩ := hmarked
  simp only [List.not_mem_nil, iff_false, Bool.not_eq_true] at hblock hprologue hepilogue
  exact ⟨hblock, hprologue, hepilogue, hdiscriminator⟩

end Registers.Marked

namespace Instruction

theorem not_marks_of_records (hi : i.records) : ¬ i.marks := by
  cases i with
  | special | copy | endSequence => exact Bool.false_ne_true
  | _ => contradiction

/-- An instruction adds its own mark to those that stand. -/
theorem marked_update {s : State} (hs : s.toRegisters.Marked code) :
    (i.update h s).toRegisters.Marked (code ++ [i]) := by
  obtain ⟨hblock, hprologue, hepilogue, hdiscriminator⟩ := hs
  constructor
  · rw [List.mem_append, ← hblock]
    cases i <;> simp [update, State.advance]
  · rw [List.mem_append, ← hprologue]
    cases i <;> simp [update, State.advance]
  · rw [List.mem_append, ← hepilogue]
    cases i <;> simp [update, State.advance]
  · rw [lastDiscriminator_concat, ← hdiscriminator]
    cases i <;> rfl

theorem marked_settle (hi : i.records) (s : State) : (i.settle s).toRegisters.Marked [] := by
  have hcleared : ∀ r : Registers, r.clearRowFlags.Marked [] := by
    intro r
    constructor <;> simp [Registers.clearRowFlags, lastDiscriminator]
  cases i with
  | special | copy => exact hcleared _
  | endSequence => exact hcleared (.initial s.defaultIsStatement)
  | _ => contradiction

theorem marked_outcome {m : Machine} (hm : m.state.toRegisters.Marked (sinceRow code)) :
    (i.outcome h m).state.toRegisters.Marked (sinceRow (code ++ [i])) := by
  by_cases hi : i.records
  · rw [sinceRow_of_records hi]
    exact marked_settle hi _
  · rw [sinceRow_of_not_records hi]
    have hupdate : (i.outcome h m).state = i.update h m.state := by
      cases i with
      | special | copy | endSequence => exact absurd rfl hi
      | _ => rfl
    rw [hupdate]
    exact marked_update hm

theorem endSequence_update {s : State} (hs : s.endSequence = false) :
    (i.update h s).endSequence ↔ i = endSequence := by
  cases i <;> simp [update, State.advance, hs]

theorem rows_outcome_of_records (hi : i.records) (m : Machine) : (i.outcome h m).rows =
    m.rows.push { (i.update h m.state).toRegisters with position := m.rows.size } := if_pos hi

theorem rows_outcome_of_not_records (hi : ¬ i.records) (m : Machine) :
    (i.outcome h m).rows = m.rows := if_neg hi

theorem endSequence_outcome {m : Machine} (hm : m.state.endSequence = false) :
    (i.outcome h m).state.endSequence = false := by
  cases i with
  | endSequence => rfl
  | _ => exact hm

end Instruction

/-! ## Rows and the instructions that record them -/

/-- Row `k` is recorded by the instruction `i`, behind the instructions `before`. -/
structure RecordedBy (code : List Instruction) (k : Nat) (before : List Instruction)
    (i : Instruction) : Prop where
  within : before ++ [i] <+: code
  records : i.records
  count : before.countP Instruction.records = k

/-- What the instructions of a history leave in a machine. -/
structure Machine.Follows (code : List Instruction) (m : Machine) : Prop where
  endSequence : m.state.endSequence = false
  marked : m.state.toRegisters.Marked (sinceRow code)
  size : m.rows.size = code.countP Instruction.records
  row : ∀ k row, m.rows[k]? = some row → ∃ before i, RecordedBy code k before i ∧
    (row.endSequence ↔ i = .endSequence) ∧ row.toRegisters.Marked (sinceRow before)

namespace Machine

variable {m : Machine}

theorem follows_ofHeader (h : Header) : (ofHeader h).Follows [] where
  endSequence := rfl
  marked := Instruction.marked_settle (i := .endSequence) rfl (State.ofHeader h)
  size := rfl
  row _ _ hrow := nomatch hrow

/-- An instruction that records leaves the earlier rows, and behind them its own. -/
theorem Follows.row_outcome (hm : m.Follows code) (hi : i.records) {k : Nat} {row : Row}
    (hrow : (i.outcome h m).rows[k]? = some row) :
    m.rows[k]? = some row ∨ RecordedBy (code ++ [i]) k code i ∧
      (row.endSequence ↔ i = .endSequence) ∧ row.toRegisters.Marked (sinceRow code) := by
  rw [Instruction.rows_outcome_of_records hi, Array.getElem?_push] at hrow
  by_cases hk : k = m.rows.size
  · rw [if_pos hk] at hrow
    cases hrow
    right
    refine ⟨⟨List.prefix_rfl, hi, ?_⟩, Instruction.endSequence_update hm.endSequence, ?_⟩
    · rw [hk, hm.size]
    · exact (Instruction.marked_update hm.marked).of_concat (Instruction.not_marks_of_records hi)
  · rw [if_neg hk] at hrow
    exact .inl hrow

theorem Follows.outcome (hm : m.Follows code) (i : Instruction) :
    (i.outcome h m).Follows (code ++ [i]) := by
  have hearlier : ∀ k row, m.rows[k]? = some row → ∃ before j, RecordedBy (code ++ [i]) k before j ∧
      (row.endSequence ↔ j = .endSequence) ∧ row.toRegisters.Marked (sinceRow before) := by
    intro k row hrow
    obtain ⟨before, j, hrecorded, hshown⟩ := hm.row k row hrow
    exact ⟨before, j, { hrecorded with
      within := hrecorded.within.trans (List.prefix_append code [i]) }, hshown⟩
  constructor
  · exact Instruction.endSequence_outcome hm.endSequence
  · exact Instruction.marked_outcome hm.marked
  · rw [List.countP_append, List.countP_singleton, ← hm.size]
    by_cases hi : i.records
    · rw [Instruction.rows_outcome_of_records hi, Array.size_push, if_pos hi]
    · rw [Instruction.rows_outcome_of_not_records hi, if_neg hi, Nat.add_zero]
  · intro k row hrow
    by_cases hi : i.records
    · cases hm.row_outcome hi hrow with
      | inl hold => exact hearlier k row hold
      | inr hnew => exact ⟨code, i, hnew⟩
    · rw [Instruction.rows_outcome_of_not_records hi] at hrow
      exact hearlier k row hrow

theorem follows_after (h : Header) (code : List Instruction) :
    ((ofHeader h).after h code).Follows code := by
  induction code using List.reverseRecOn with
  | nil => exact follows_ofHeader h
  | append_singleton rest i ih =>
    rw [after_concat]
    exact ih.outcome i

theorem follows_of_run {front : Bytes} (hrun : run h e front (ofHeader h) = .ok () m) :
    m.Follows (Instruction.readAll h e front) := by
  rw [eq_after_of_run hrun]
  exact follows_after h _

end Machine

/-- Between two instructions the state shows the marks since the last row and no others, and no
sequence has ended.  A row shows the marks between the row before it and itself, and the end of
a sequence if an instruction for that recorded it. -/
theorem marks_since_row (h : Header) (e : Endian) :
    (∀ (front behind : Bytes) (m : Machine),
      Machine.run h e front (Machine.ofHeader h) = .ok () m →
        Machine.run h e (front ++ behind) (Machine.ofHeader h) = Machine.run h e behind m ∧
        m.state.endSequence = false ∧ m.state.defaultIsStatement = h.defaultIsStatement ∧
        m.state.toRegisters.Marked (sinceRow (Instruction.readAll h e front)) ∧
        (m.state.discriminator ≠ 0 →
          ∃ n, .setDiscriminator n ∈ sinceRow (Instruction.readAll h e front))) ∧
      ∀ (stream : Bytes) (p : Program), Program.build h e stream = .ok p →
        p.rows.length = (Instruction.readAll h e stream).countP Instruction.records ∧
        ∀ k row, p.rows[k]? = some row → ∃ before i,
          RecordedBy (Instruction.readAll h e stream) k before i ∧
          (row.endSequence ↔ i = .endSequence) ∧ row.toRegisters.Marked (sinceRow before) ∧
          ((∀ j ∈ sinceRow before, ¬ j.marks) →
            row.basicBlock = false ∧ row.prologueEnd = false ∧ row.epilogueBegin = false ∧
              row.discriminator = 0) := by
  constructor
  · intro front behind m hrun
    have hm := Machine.follows_of_run hrun
    have hdefault :=
      Machine.invariant_of_run (Machine.stable_default h.defaultIsStatement) rfl hrun
    exact ⟨Machine.run_append hrun behind, hm.endSequence, hdefault, hm.marked,
      hm.marked.exists_setDiscriminator⟩
  · intro stream p hbuild
    obtain ⟨m, hrun, hp⟩ := Program.build_eq_ok_iff.1 hbuild
    have hm := Machine.follows_of_run hrun
    have hrows : p.rows = m.rows.toList := hp ▸ rfl
    rw [hrows]
    refine ⟨hm.size, ?_⟩
    intro k row hrow
    rw [Array.getElem?_toList] at hrow
    obtain ⟨before, i, hrecorded, hends, hmarked⟩ := hm.row k row hrow
    refine ⟨before, i, hrecorded, hends, hmarked, ?_⟩
    intro hnone
    exact (hmarked.nil_of_forall hnone).unmarked

/-- A header that has opcodes for the end of a prologue and the beginning of an epilogue. -/
def markingHeader : Header := .ofFields 2 13 (-5) 14 1

/-- A basic block with a discriminator, a row for them, and the end of a prologue. -/
def markingFront : Bytes := [7, 0, 2, 4, 5, 1, 10]

/-- The row shows the marks before it, and the state the one behind. -/
def markedPlaces : Machine where
  state := { State.start true with prologueEnd := true }
  rows := #[{ State.start true with basicBlock := true, discriminator := 5, position := 0 }]
  files := #[]

theorem marks_since_row_sample :
    Machine.run markingHeader .little markingFront (.ofHeader markingHeader) = .ok () markedPlaces ∧
      markedPlaces.state.toRegisters.Marked [.setPrologueEnd] ∧
      ∃ p, Program.build markingHeader .little (markingFront ++ [0, 1, 1]) = .ok p ∧
        p.rows.length = 2 ∧ ∃ row before, p.rows[1]? = some row ∧ row.endSequence = true ∧
          RecordedBy [.setBasicBlock, .setDiscriminator 5, .copy, .setPrologueEnd, .endSequence]
            1 before .endSequence ∧ row.toRegisters.Marked (sinceRow before) := by
  obtain ⟨hpoint, hrows⟩ := marks_since_row markingHeader .little
  have hrun : Machine.run markingHeader .little markingFront (.ofHeader markingHeader) =
      .ok () markedPlaces := by cbv
  have hfront : Instruction.readAll markingHeader .little markingFront =
      [.setBasicBlock, .setDiscriminator 5, .copy, .setPrologueEnd] := by cbv
  have hstream : Instruction.readAll markingHeader .little (markingFront ++ [0, 1, 1]) =
      [.setBasicBlock, .setDiscriminator 5, .copy, .setPrologueEnd, .endSequence] := by cbv
  have hshown : (Program.build markingHeader .little (markingFront ++ [0, 1, 1])).toOption.map
      (fun p => p.rows[1]?.map (·.endSequence)) = some (some true) := by cbv
  obtain ⟨p, hbuild, hends⟩ := exists_ok_of_toOption hshown
  obtain ⟨row, hrow, hend⟩ := Option.map_eq_some_iff.1 hends
  obtain ⟨hlength, hrecorded⟩ := hrows _ p hbuild
  rw [hstream] at hlength hrecorded
  obtain ⟨before, i, hby, hiff, hmarked, -⟩ := hrecorded 1 row hrow
  rw [hiff.1 hend] at hby
  refine ⟨hrun, ?_, p, hbuild, hlength, row, before, hrow, hend, hby, hmarked⟩
  obtain ⟨-, -, -, hstate, -⟩ := hpoint markingFront [] markedPlaces hrun
  rw [hfront] at hstate
  exact hstate

end LineTable
