/-
Streams that are cut short.

A cut falls between two instructions or into the middle of one.  In the first case the
stream runs as the whole one does up to there, and in the second the last instruction
cannot be read (`Machine.run_cut`): no instruction reads bytes that another one begins
with.  Since a machine never takes back a row or a file (`Machine.extends_of_run`), the
theorem this file exists for is `build_cut`: a truncated stream is malformed or shows
the first rows and files of the whole one.
-/
import LineTable.Proofs.Invariants
import Mathlib

namespace LineTable
namespace Machine

variable {h : Header} {e : Endian}

/-- An instruction that is cut short is not read as another one. -/
theorem run_of_cut {front back : Bytes} {i : Instruction}
    (hread : (Instruction.read h e).Reads (front ++ back) i) (hfront : front ≠ [])
    (hback : back ≠ []) (m : Machine) : ∃ cause, run h e front m = .error (.malformed cause) m := by
  obtain ⟨cause, hcut⟩ := hread.cut hback
  refine ⟨cause, ?_⟩
  rw [run_eq, if_neg (by simpa using hfront), hcut]

/-- The front of a stream runs to a machine from which the rest runs on, unless it cannot
be read. -/
theorem run_cut {front back : Bytes} {m last : Machine} (hruns : Runs h e (front ++ back) m last) :
    (∃ cause m', run h e front m = .error (.malformed cause) m') ∨
      ∃ middle, run h e front m = .ok () middle ∧ run h e back middle = .ok () last := by
  generalize hcode : front ++ back = code at hruns
  -- Every instruction before the cut takes its bytes off the front.
  induction hruns generalizing front with
  | nil m =>
    obtain ⟨rfl, rfl⟩ := List.append_eq_nil_iff.1 hcode
    exact .inr ⟨m, run_nil m, run_nil m⟩
  | @cons bytes rest i m m' last hread hexec hrest ih =>
    rcases List.append_eq_append_iff.1 hcode with ⟨left, rfl, rfl⟩ | ⟨behind, rfl, rfl⟩
    · -- The cut falls into the first instruction, or to one of its ends.
      by_cases hfront : front = []
      · subst hfront
        exact .inr ⟨m, run_nil m, (Runs.cons hread hexec hrest).run_eq⟩
      · by_cases hleft : left = []
        · subst hleft
          rw [List.append_nil] at hread
          have hran := run_of_reads hread hexec []
          rw [List.append_nil, run_nil] at hran
          exact .inr ⟨m', hran, hrest.run_eq⟩
        · obtain ⟨cause, hcut⟩ := run_of_cut hread hfront hleft m
          exact .inl ⟨cause, m, hcut⟩
    · rw [run_of_reads hread hexec]
      exact ih rfl

/-! ### What a run leaves in place -/

/-- The rows and the files of one machine begin those of another. -/
structure Extends (m later : Machine) : Prop where
  rows : m.rows.toList <+: later.rows.toList
  files : m.files.toList <+: later.files.toList

theorem Extends.refl (m : Machine) : m.Extends m :=
  ⟨List.prefix_refl _, List.prefix_refl _⟩

theorem stable_extends (m : Machine) : Stable fun later _ => m.Extends later where
  write _ _ _ _ hlater := ⟨hlater.rows, hlater.files⟩
  pushRow later _ hlater := by
    refine ⟨?_, hlater.files⟩
    rw [pushRow, Array.toList_push]
    exact hlater.rows.trans (List.prefix_append _ _)
  pushFile entry later _ hlater := by
    refine ⟨hlater.rows, ?_⟩
    rw [pushFile, Array.toList_push]
    exact hlater.files.trans (List.prefix_append _ _)

theorem extends_of_run {code : Bytes} {m last : Machine} (hrun : run h e code m = .ok () last) :
    m.Extends last :=
  invariant_of_run (stable_extends m) (Extends.refl m) hrun

end Machine

/-- The front of a stream that builds a program is malformed, or it builds a program with
the first rows and the first files of the whole one. -/
theorem build_cut {h : Header} {e : Endian} {front code : Bytes} {p : Program}
    (hbuild : Program.build h e code = .ok p) (hfront : front <+: code) :
    (∃ cause, Program.build h e front = .error (.malformed cause)) ∨
      ∃ q, Program.build h e front = .ok q ∧ q.rows <+: p.rows ∧
        q.definedFiles <+: p.definedFiles := by
  obtain ⟨back, rfl⟩ := hfront
  obtain ⟨last, hrun, rfl⟩ := Program.build_eq_ok_iff.1 hbuild
  rcases Machine.run_cut (Machine.runs_of_run hrun) with ⟨cause, m, hcut⟩ | ⟨middle, hmiddle, hback⟩
  · refine .inl ⟨cause, ?_⟩
    rw [Program.build, hcut]
  · have hextends := Machine.extends_of_run hback
    refine .inr ⟨Program.ofMachine h middle, ?_, hextends.rows, hextends.files⟩
    exact Program.build_eq_ok_iff.2 ⟨middle, hmiddle, rfl⟩

/-- A header of version three with the opcodes of that version. -/
def standardHeader : Header := .ofFields 3 13 (-5) 14 1

/-- Three rows, four lines and 128 lines apart. -/
def sampleStream : Bytes := [1, 3, 4, 1, 3, 0x80, 1, 1]

/-- A cut between the bytes of a line advance, and one behind an advance. -/
theorem build_cut_sample :
    ∃ p, Program.build standardHeader .little sampleStream = .ok p ∧
      [1, 3, 4, 1, 3, 0x80] <+: sampleStream ∧ [1, 3, 4] <+: sampleStream ∧
      (∃ cause, Program.build standardHeader .little [1, 3, 4, 1, 3, 0x80] =
        .error (.malformed cause)) ∧
      ∃ q, Program.build standardHeader .little [1, 3, 4] = .ok q ∧
        q.rows <+: p.rows ∧ q.rows.map (·.line) = [1] ∧ p.rows.map (·.line) = [1, 5, 133] := by
  have hlines : (Program.build standardHeader .little sampleStream).toOption.map
      (fun p => p.rows.map (·.line)) = some [1, 5, 133] := by cbv
  have hfront : (Program.build standardHeader .little [1, 3, 4]).toOption.map
      (fun p => p.rows.map (·.line)) = some [1] := by cbv
  have hmiddle : (Program.build standardHeader .little [1, 3, 4, 1, 3, 0x80]).toOption.map
      (fun p => p.rows.map (·.line)) = none := by cbv
  obtain ⟨p, hwhole, hlines⟩ := exists_ok_of_toOption hlines
  obtain ⟨first, hfirst, hfront⟩ := exists_ok_of_toOption hfront
  have hinside : [1, 3, 4, 1, 3, 0x80] <+: sampleStream := ⟨[1, 1], rfl⟩
  have hbetween : [1, 3, 4] <+: sampleStream := ⟨[1, 3, 0x80, 1, 1], rfl⟩
  refine ⟨p, hwhole, hinside, hbetween, ?_, first, hfirst, ?_, hfront, hlines⟩
  · rcases build_cut hwhole hinside with hcut | ⟨q, hq, -⟩
    · exact hcut
    · rw [hq] at hmiddle
      contradiction
  · rcases build_cut hwhole hbetween with ⟨cause, hcut⟩ | ⟨q, hq, hrows, -⟩
    · rw [hcut] at hfirst
      contradiction
    · obtain rfl := Except.ok.inj (hq.symm.trans hfirst)
      exact hrows

end LineTable
