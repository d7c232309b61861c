/-
What every run keeps.

An instruction changes a machine in three ways only: it writes to the state, it records
the state as a row, or it adds a file.  It never looks at the rows and files already
there.  So a relation between machines that these three changes keep is kept by every
instruction and by every run, whether it succeeds or fails (`Machine.run_respects`).

With the second machine left out a relation is an invariant.  Two of them hold of every
run from a header: the rows are numbered from zero on, and the state remembers what
`isStatement` is at the start of a sequence.
-/
import LineTable.Proofs.Streams

namespace LineTable
namespace Execution

variable {α β : Type} {R : Machine → Machine → Prop}

/-- Results of one kind, with the same value or the same error and related machines. -/
inductive Related (R : Machine → Machine → Prop) :
    EStateM.Result LineError Machine α → EStateM.Result LineError Machine α → Prop where
  | ok {m n : Machine} (a : α) (h : R m n) : Related R (.ok a m) (.ok a n)
  | error {m n : Machine} (cause : LineError) (h : R m n) :
    Related R (.error cause m) (.error cause n)

theorem Related.exists_ok {a : α} {m : Machine} {other : EStateM.Result LineError Machine α}
    (h : Related R (.ok a m) other) : ∃ n, other = .ok a n ∧ R m n := by
  cases h with
  | ok _ hmn => exact ⟨_, rfl, hmn⟩

theorem Related.exists_error {cause : LineError} {m : Machine}
    {other : EStateM.Result LineError Machine α} (h : Related R (.error cause m) other) :
    ∃ n, other = .error cause n ∧ R m n := by
  cases h with
  | error _ hmn => exact ⟨_, rfl, hmn⟩

/-- Related machines give related results. -/
def Respects (R : Machine → Machine → Prop) (x : Execution α) : Prop :=
  ∀ m n, R m n → Related R (x m) (x n)

theorem respects_pure (a : α) : Respects R (pure a : Execution α) :=
  fun _ _ hmn => .ok a hmn

theorem respects_throw (cause : LineError) : Respects R (throw cause : Execution α) :=
  fun _ _ hmn => .error cause hmn

theorem respects_modify {f : Machine → Machine} (hf : ∀ m n, R m n → R (f m) (f n)) :
    Respects R (modify f : Execution Unit) :=
  fun m n hmn => .ok () (hf m n hmn)

theorem Respects.bind {x : Execution α} {next : α → Execution β} (hx : Respects R x)
    (hnext : ∀ a, Respects R (next a)) : Respects R (x >>= next) := by
  intro m n hmn
  show Related R (EStateM.bind x next m) (EStateM.bind x next n)
  have hfirst := hx m n hmn
  unfold EStateM.bind
  generalize x m = first, x n = first' at hfirst ⊢
  cases hfirst with
  | ok a h => exact hnext a _ _ h
  | error cause h => exact .error cause h

end Execution

namespace Machine

/-- A relation between machines that every change an instruction makes keeps.  No write
touches the start value of `isStatement`. -/
structure Stable (R : Machine → Machine → Prop) : Prop where
  write : ∀ f : State → State, (∀ s, (f s).defaultIsStatement = s.defaultIsStatement) →
    ∀ m n, R m n → R { m with state := f m.state } { n with state := f n.state }
  pushRow : ∀ m n, R m n → R m.pushRow n.pushRow
  pushFile : ∀ entry m n, R m n → R (m.pushFile entry) (n.pushFile entry)

open Execution

variable {R : Machine → Machine → Prop} {h : Header} {e : Endian}

theorem Stable.respects_write (hR : Stable R) {f : State → State}
    (hf : ∀ s, (f s).defaultIsStatement = s.defaultIsStatement) : Respects R (Machine.write f) :=
  respects_modify (hR.write f hf)

theorem Stable.respects_record (hR : Stable R) : Respects R record :=
  (respects_modify hR.pushRow).bind fun _ => hR.respects_write fun _ => rfl

theorem respects_needLineRange (h : Header) : Respects R h.needLineRange := by
  unfold Header.needLineRange
  split
  · exact respects_throw _
  · exact respects_pure ()

theorem respects_needSpecialOpcodes (h : Header) : Respects R h.needSpecialOpcodes := by
  unfold Header.needSpecialOpcodes
  split
  · exact respects_pure ()
  · exact respects_throw _

theorem execute_respects (hR : Stable R) (h : Header) (i : Instruction) :
    Respects R (i.execute h) := by
  cases i with
  | special opcode =>
    refine (respects_needSpecialOpcodes h).bind fun _ => (respects_needLineRange h).bind fun _ => ?_
    refine Respects.bind (hR.respects_write ?_) fun _ =>
      Respects.bind (hR.respects_write ?_) fun _ => hR.respects_record
    · exact fun _ => rfl
    · exact fun _ => rfl
  | copy => exact hR.respects_record
  | constAddPc =>
    refine (respects_needLineRange h).bind fun _ => hR.respects_write ?_
    exact fun _ => rfl
  | endSequence =>
    refine Respects.bind (hR.respects_write ?_) fun _ =>
      (respects_modify hR.pushRow).bind fun _ => hR.respects_write ?_
    · exact fun _ => rfl
    · exact fun _ => rfl
  | defineFile entry => exact respects_modify (hR.pushFile entry)
  | skip | empty | skipExtended => exact respects_pure ()
  | advancePc | advanceLine | setFile | setColumn | negateStatement | setBasicBlock
  | fixedAdvancePc | setPrologueEnd | setEpilogueBegin | setIsa | setAddress
  | setDiscriminator =>
    rw [Instruction.execute]
    refine hR.respects_write ?_
    exact fun _ => rfl

/-- Runs of one stream from related machines end alike. -/
theorem run_respects (hR : Stable R) (code : Bytes) (m n : Machine) (hmn : R m n) :
    Related R (run h e code m) (run h e code n) := by
  fun_induction run h e code m generalizing n with
  | case1 code m hnil =>
    rw [run_eq, if_pos hnil]
    exact .ok () hmn
  | case2 code m hnil cause hread =>
    rw [run_eq, if_neg hnil, hread]
    exact .error _ hmn
  | case3 code m hnil i rest hread cause m' hexec =>
    have hstep := execute_respects hR h i m n hmn
    rw [hexec] at hstep
    obtain ⟨n', hexec', hmn'⟩ := hstep.exists_error
    rw [run_eq, if_neg hnil, hread]
    simp only [hexec']
    exact .error cause hmn'
  | case4 code m hnil i rest hread m' hexec ih =>
    have hstep := execute_respects hR h i m n hmn
    rw [hexec] at hstep
    obtain ⟨n', hexec', hmn'⟩ := hstep.exists_ok
    rw [run_eq code n, if_neg hnil, hread]
    simp only [hexec']
    exact ih n' hmn'

/-! ### Invariants -/

/-- An invariant, read as a relation, holds of the machine that a run leaves behind. -/
theorem invariant_of_run {P : Machine → Prop} (hP : Stable fun m _ => P m) {code : Bytes}
    {m last : Machine} (hm : P m) (hrun : run h e code m = .ok () last) : P last := by
  have hends := run_respects (h := h) (e := e) hP code m m hm
  rw [hrun] at hends
  obtain ⟨_, -, hlast⟩ := hends.exists_ok
  exact hlast

/-- The rows are numbered from zero on. -/
def Numbered (m : Machine) : Prop :=
  m.rows.toList.map (·.position) = List.range m.rows.size

theorem Numbered.pushRow {m : Machine} (hm : m.Numbered) : m.pushRow.Numbered := by
  unfold Numbered at hm ⊢
  simp [Machine.pushRow, hm, List.range_succ]

theorem stable_numbered : Stable fun m _ => m.Numbered where
  write _ _ _ _ hm := hm
  pushRow _ _ hm := hm.pushRow
  pushFile _ _ _ hm := hm

theorem numbered_of_run {code : Bytes} {m : Machine}
    (hrun : run h e code (ofHeader h) = .ok () m) : m.Numbered :=
  invariant_of_run stable_numbered (m := ofHeader h) rfl hrun

theorem stable_default (value : Bool) :
    Stable fun m _ => m.state.defaultIsStatement = value where
  write _ hf _ _ hm := (hf _).trans hm
  pushRow _ _ hm := hm
  pushFile _ _ _ hm := hm

/-- A run from a header always starts its next sequence as it started the first. -/
theorem restart_of_run {code : Bytes} {m : Machine}
    (hrun : run h e code (ofHeader h) = .ok () m) : m.state.restart = State.ofHeader h := by
  have hdefault := invariant_of_run (stable_default h.defaultIsStatement) rfl hrun
  rw [State.restart, hdefault, State.ofHeader]

end Machine

namespace Program

/-- The rows of a program are numbered in the order in which they were recorded. -/
theorem positions_of_build {h : Header} {e : Endian} {code : Bytes} {p : Program}
    (hbuild : build h e code = .ok p) : p.rows.map (·.position) = List.range p.rows.length := by
  obtain ⟨m, hrun, rfl⟩ := build_eq_ok_iff.1 hbuild
  exact Machine.numbered_of_run hrun

theorem row_position {h : Header} {e : Endian} {code : Bytes} {p : Program}
    (hbuild : build h e code = .ok p) {position : Nat} {row : Row}
    (hrow : p.rows[position]? = some row) : row.position = position := by
  obtain ⟨hlt, -⟩ := List.getElem?_eq_some_iff.1 hrow
  have hnumber : (p.rows.map (·.position))[position]? = some row.position := by
    rw [List.getElem?_map, hrow]
    rfl
  rw [positions_of_build hbuild, List.getElem?_range hlt] at hnumber
  exact (Option.some.inj hnumber).symm

end Program
end LineTable
