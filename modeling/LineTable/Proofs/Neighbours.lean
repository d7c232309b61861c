/-
A unit among its neighbours.

A unit states how many bytes follow its length, and decoding takes those bytes before it
looks at anything else.  What stands before and behind the unit therefore plays no part,
and a unit that the section cuts short is not decoded at all.  The place of a unit is
kept in its header and in one error, and has no other effect (`Program.build_movedTo`).

The theorem this file exists for is `LineSection.decode_unit`.
-/
import LineTable.Proofs.Failures
import LineTable.Proofs.HeaderLayout
import LineTable.Proofs.Yields
import Mathlib

namespace LineTable

/-! ## Moving a program -/

/-- The header at another offset of a section. -/
def Header.movedTo (offset : UInt64) (h : Header) : Header := { h with offset }

/-- The header at another offset of a section and in another format. -/
def Header.placed (offset : UInt64) (format : Format) (h : Header) : Header :=
  { h with offset, format }

/-- An error of the same program at another offset.  Only a zero line range says where. -/
def LineError.movedTo (offset : UInt64) : LineError → LineError
  | .zeroLineRange _ => .zeroLineRange offset
  | cause => cause

def Program.movedTo (offset : UInt64) (p : Program) : Program :=
  { p with header := p.header.movedTo offset }

/-- What decoding gives for the same unit at another offset. -/
def relocate (offset : UInt64) : Except LineError Program → Except LineError Program
  | .ok p => .ok (p.movedTo offset)
  | .error cause => .error (cause.movedTo offset)

namespace Reader

variable {α β γ : Type}

/-- The second reader takes the same bytes and gives the value that `f` makes of it. -/
def MapsTo (f : α → β) (r : Reader α) (r' : Reader β) : Prop :=
  ∀ input, r'.run input = (r.run input).map fun found => (f found.1, found.2)

theorem mapsTo_pure (f : α → β) (a : α) : MapsTo f (pure a) (pure (f a)) := fun _ => rfl

theorem mapsTo_bind {f : α → β} (first : Reader γ) {next : γ → Reader α} {next' : γ → Reader β}
    (hnext : ∀ c, MapsTo f (next c) (next' c)) : MapsTo f (first >>= next) (first >>= next') := by
  intro input
  rw [run_bind, run_bind]
  cases first.run input with
  | error cause => rfl
  | ok found => exact hnext found.1 found.2

theorem MapsTo.runLine {f : α → β} {r : Reader α} {r' : Reader β} (h : MapsTo f r r')
    (input : Bytes) : r'.runLine input = (r.runLine input).map fun found => (f found.1, found.2) := by
  rw [Reader.runLine, Reader.runLine, h input]
  cases r.run input <;> rfl

end Reader

/-- The fields of a header are read in the same way at every offset and in both formats. -/
theorem Header.readFields_placed (offset old : UInt64) (format oldFormat : Format)
    (version : UInt16) :
    Reader.MapsTo (Header.placed offset format) (readFields old oldFormat version)
      (readFields offset format version) := by
  unfold readFields
  refine Reader.mapsTo_bind _ fun minimumInstructionLength => ?_
  dsimp only
  -- Only some versions have a byte for the operations of an instruction.
  split
  all_goals
    refine Reader.mapsTo_bind _ fun maximumOperations => ?_
    refine Reader.mapsTo_bind _ fun defaultIsStatement => ?_
    refine Reader.mapsTo_bind _ fun lineBase => ?_
    refine Reader.mapsTo_bind _ fun lineRange => ?_
    refine Reader.mapsTo_bind _ fun opcodeBase => ?_
    refine Reader.mapsTo_bind _ fun operandCounts => ?_
    refine Reader.mapsTo_bind _ fun directories => ?_
    exact Reader.mapsTo_bind _ fun files => Reader.mapsTo_pure _ _

theorem Header.readFields_movedTo (offset old : UInt64) (format : Format) (version : UInt16) :
    Reader.MapsTo (Header.movedTo offset) (readFields old format version)
      (readFields offset format version) := by
  intro input
  rw [readFields_placed offset 0 format .dwarf32 version input,
    readFields_placed old 0 format .dwarf32 version input]
  cases (readFields 0 .dwarf32 version).run input <;> rfl

theorem Header.read_movedTo (e : Endian) (offset old : UInt64) (input : Bytes) :
    Header.read e offset input =
      (Header.read e old input).map fun found => (found.1.movedTo offset, found.2) := by
  unfold Header.read
  refine bind_eq_map_bind _ fun ⟨⟨format, unit⟩, behind⟩ => ?_
  refine bind_eq_map_bind _ fun ⟨version, unit⟩ => ?_
  dsimp only
  split
  · rfl
  refine bind_eq_map_bind _ fun ⟨length, unit⟩ => ?_
  refine bind_eq_map_bind _ fun ⟨fields, code⟩ => ?_
  have hfields := (readFields_movedTo offset old format version).runLine fields
  rw [hfields]
  cases (readFields old format version).runLine fields <;> rfl

/-! ## Running at another offset -/

namespace Execution

variable {α β : Type} {offset : UInt64}

/-- A result at another offset, of which only an error can speak. -/
def relocate (offset : UInt64) :
    EStateM.Result LineError Machine α → EStateM.Result LineError Machine α
  | .ok a m => .ok a m
  | .error cause m => .error (cause.movedTo offset) m

/-- The second computation is the first one at another offset. -/
def MovesTo (offset : UInt64) (x x' : Execution α) : Prop :=
  ∀ m, x' m = relocate offset (x m)

theorem MovesTo.bind {x x' : Execution α} {next next' : α → Execution β}
    (hx : MovesTo offset x x') (hnext : ∀ a, MovesTo offset (next a) (next' a)) :
    MovesTo offset (x >>= next) (x' >>= next') := by
  intro m
  show EStateM.bind x' next' m = relocate offset (EStateM.bind x next m)
  unfold EStateM.bind
  rw [hx m]
  cases x m with
  | ok a m' => exact hnext a m'
  | error cause m' => rfl

theorem needSpecialOpcodes_movesTo (h : Header) :
    MovesTo offset h.needSpecialOpcodes (h.movedTo offset).needSpecialOpcodes := by
  have hversion : (h.movedTo offset).version = h.version := rfl
  unfold Header.needSpecialOpcodes
  rw [hversion]
  split
  · exact fun _ => rfl
  · exact fun _ => rfl

theorem needLineRange_movesTo (h : Header) :
    MovesTo offset h.needLineRange (h.movedTo offset).needLineRange := by
  have hrange : (h.movedTo offset).lineRange = h.lineRange := rfl
  unfold Header.needLineRange
  rw [hrange]
  split
  · exact fun _ => rfl
  · exact fun _ => rfl

/-- No instruction looks at the offset, but a zero line range is reported with it. -/
theorem execute_movesTo (h : Header) (i : Instruction) :
    MovesTo offset (i.execute h) (i.execute (h.movedTo offset)) := by
  cases i with
  | special v =>
    refine (needSpecialOpcodes_movesTo h).bind fun _ => ?_
    exact (needLineRange_movesTo h).bind fun _ _ => rfl
  | constAddPc => exact (needLineRange_movesTo h).bind fun _ _ => rfl
  | _ => exact fun _ => rfl

end Execution

theorem Machine.run_movedTo (offset : UInt64) (h : Header) (e : Endian) (code : Bytes)
    (m : Machine) :
    run (h.movedTo offset) e code m = Execution.relocate offset (run h e code m) := by
  have hsame : Instruction.read (h.movedTo offset) e = Instruction.read h e := rfl
  -- Both headers lead through the same machines, so the run of one carries the other.
  fun_induction run h e code m with
  | case1 code m hnil =>
    rw [run_eq, if_pos hnil]
    rfl
  | case2 code m hnil cause hread =>
    rw [run_eq, if_neg hnil, hsame, hread]
    rfl
  | case3 code m hnil i rest hread cause m' hexec =>
    rw [run_eq, if_neg hnil, hsame, hread]
    simp only [Execution.execute_movesTo h i m, hexec, Execution.relocate]
  | case4 code m hnil i rest hread m' hexec ih =>
    rw [run_eq, if_neg hnil, hsame, hread]
    simp only [Execution.execute_movesTo h i m, hexec, Execution.relocate]
    exact ih

theorem Program.build_movedTo (offset : UInt64) (h : Header) (e : Endian) (code : Bytes) :
    build (h.movedTo offset) e code = relocate offset (build h e code) := by
  have hstart : Machine.ofHeader (h.movedTo offset) = Machine.ofHeader h := rfl
  rw [build, build, hstart, Machine.run_movedTo]
  cases Machine.run h e code (Machine.ofHeader h) <;> rfl

/-! ## Units -/

open Reader

/-- A complete unit: its length counts exactly the bytes that follow it. -/
def IsUnit (e : Endian) (bytes : Bytes) : Prop :=
  ∃ (format : Format) (body : Bytes), body.length < format.lengthLimit ∧
    bytes = Layout.initialLength format e body.length ++ body

variable {e : Endian} {unit : Bytes}

theorem IsUnit.exists_reads (hunit : IsUnit e unit) :
    ∃ found, (unitBytes e).Reads unit found := by
  obtain ⟨format, body, hfit, rfl⟩ := hunit
  exact ⟨(format, body), reads_unitBytes e format hfit⟩

theorem IsUnit.length_pos (hunit : IsUnit e unit) : 0 < unit.length := by
  obtain ⟨found, hreads⟩ := hunit.exists_reads
  refine List.length_pos_iff.2 ?_
  rintro rfl
  have hrun := hreads []
  contradiction

theorem IsUnit.read_append (hunit : IsUnit e unit) (offset : UInt64) (post : Bytes) :
    Header.read e offset (unit ++ post) = Header.read e offset unit := by
  obtain ⟨found, hreads⟩ := hunit.exists_reads
  have halone := hreads.runLine []
  rw [List.append_nil] at halone
  unfold Header.read
  rw [hreads.runLine post, halone]
  rfl

/-- A unit that is cut short has no header. -/
theorem IsUnit.read_cut (hunit : IsUnit e unit) (offset : UInt64) {front back : Bytes}
    (hsplit : unit = front ++ back) (hback : back ≠ []) :
    ∃ cause, Header.read e offset front = .error (.malformed cause) := by
  obtain ⟨found, hreads⟩ := hunit.exists_reads
  rw [hsplit] at hreads
  obtain ⟨cause, hcut⟩ := hreads.cut hback
  refine ⟨cause, ?_⟩
  unfold Header.read
  rw [Reader.runLine, hcut]
  rfl

namespace LineSection

/-- Decoding begins at its offset and sees nothing of what stands before it. -/
theorem decode_eq_read {pre bytes : Bytes} {offset : UInt64} (hoffset : offset.toNat = pre.length)
    (hbytes : bytes ≠ []) :
    decode ⟨pre ++ bytes, e⟩ offset =
      (Header.read e offset bytes >>= fun found => Program.build found.1 e found.2) := by
  have hpos := List.length_pos_iff.2 hbytes
  have hin : (⟨pre ++ bytes, e⟩ : LineSection).contains offset := by
    rw [contains_iff, size, List.length_append]
    omega
  rw [decode, bytesFrom?_eq, if_pos hin, hoffset]
  simp only [List.drop_left]

theorem read_build_movedTo (offset : UInt64) (bytes : Bytes) :
    (Header.read e offset bytes >>= fun found => Program.build found.1 e found.2) =
      relocate offset
        (Header.read e 0 bytes >>= fun found => Program.build found.1 e found.2) := by
  rw [Header.read_movedTo e offset 0]
  cases hread : Header.read e 0 bytes with
  | error cause =>
    obtain ⟨version, rfl⟩ | ⟨c, rfl⟩ := Header.cause_of_read hread
    · rfl
    · rfl
  | ok found => exact Program.build_movedTo offset found.1 e found.2

/-- A section that is cut inside a unit holds the front of that unit behind what stands
before it. -/
theorem take_unit {pre post : Bytes} {n : Nat} (hlow : pre.length < n)
    (hhigh : n < pre.length + unit.length) :
    (pre ++ unit ++ post).take n = pre ++ unit.take (n - pre.length) := by
  rw [List.append_assoc, List.take_append, List.take_of_length_le (Nat.le_of_lt hlow),
    List.take_append_of_le_length (by omega)]

/-- A unit is decoded in the same way wherever it stands, and not at all in a section that
ends before the unit does. -/
theorem decode_unit (hunit : IsUnit e unit) {pre : Bytes} {offset : UInt64}
    (hoffset : offset.toNat = pre.length) (post : Bytes) :
    decode ⟨pre ++ unit ++ post, e⟩ offset = relocate offset (decode ⟨unit, e⟩ 0) ∧
      ∀ n < pre.length + unit.length,
        (n ≤ pre.length → decode ⟨(pre ++ unit ++ post).take n, e⟩ offset =
          .error (.offsetOutOfRange offset n)) ∧
        (pre.length < n → ∃ cause, decode ⟨(pre ++ unit ++ post).take n, e⟩ offset =
          .error (.malformed cause)) := by
  have hne : unit ≠ [] := List.length_pos_iff.1 hunit.length_pos
  refine ⟨?_, fun n hn => ⟨fun hlow => ?_, fun hlow => ?_⟩⟩
  · have halone : decode ⟨[] ++ unit, e⟩ 0 = _ := decode_eq_read rfl hne
    have hwithin := decode_eq_read (e := e) hoffset (List.append_ne_nil_of_left_ne_nil hne post)
    rw [List.nil_append] at halone
    rw [List.append_assoc, hwithin, halone, hunit.read_append, read_build_movedTo]
  · -- Nothing of the unit is left.
    let cut : LineSection := ⟨(pre ++ unit ++ post).take n, e⟩
    have hsize : cut.size = n := by
      simp only [cut, size, List.length_take, List.length_append]
      omega
    have hend : cut.size ≤ offset.toNat := by omega
    have hout := decode_outside (not_contains_iff.2 hend)
    rwa [hsize] at hout
  · -- A front of the unit is left, and it is not the whole of it.
    have hfront : unit.take (n - pre.length) ≠ [] := by
      rw [← List.length_pos_iff, List.length_take]
      omega
    have hback : unit.drop (n - pre.length) ≠ [] := by
      rw [← List.length_pos_iff, List.length_drop]
      omega
    obtain ⟨cause, hcut⟩ := hunit.read_cut offset (List.take_append_drop _ unit).symm hback
    refine ⟨cause, ?_⟩
    rw [take_unit hlow hn, decode_eq_read hoffset hfront, hcut]
    rfl

/-- A unit with a row and a special opcode behind it. -/
def rowsUnit (lineRange : UInt8) : Bytes := [
  -- the length of the unit, its version and the length of its header
  24, 0, 0, 0, 2, 0, 16, 0, 0, 0,
  -- the fields, nine operand counts and two empty tables
  1, 1, 0xFB, lineRange, 10, 0, 1, 1, 1, 1, 0, 0, 0, 1, 0, 0,
  1, 0x20]

theorem isUnit_rowsUnit (lineRange : UInt8) : IsUnit .little (rowsUnit lineRange) := by
  have hfit : 24 < Format.lengthLimit .dwarf32 := by decide
  have hlength : Layout.initialLength .dwarf32 .little 24 = [24, 0, 0, 0] := by decide
  refine ⟨.dwarf32, (rowsUnit lineRange).drop 4, hfit, ?_⟩
  show _ = Layout.initialLength .dwarf32 .little 24 ++ _
  rw [hlength]
  rfl

theorem decode_unit_sample :
    (IsUnit .little (rowsUnit 14) ∧ IsUnit .little (rowsUnit 0) ∧
      UInt64.toNat 3 = [(9 : UInt8), 9, 9].length) ∧
      (∃ p, decode ⟨rowsUnit 14, .little⟩ 0 = .ok p ∧
        decode ⟨[9, 9, 9] ++ rowsUnit 14 ++ [0xFF], .little⟩ 3 = .ok (p.movedTo 3)) ∧
      decode ⟨[9, 9, 9] ++ rowsUnit 0 ++ [0xFF], .little⟩ 3 = .error (.zeroLineRange 3) ∧
      decode ⟨([9, 9, 9] ++ rowsUnit 14 ++ [0xFF]).take 2, .little⟩ 3 =
        .error (.offsetOutOfRange 3 2) ∧
      ∃ cause, decode ⟨([9, 9, 9] ++ rowsUnit 14 ++ [0xFF]).take 30, .little⟩ 3 =
        .error (.malformed cause) := by
  have hrows := isUnit_rowsUnit 14
  have hzero := isUnit_rowsUnit 0
  have hplace : UInt64.toNat 3 = [(9 : UInt8), 9, 9].length := rfl
  have hlines : (decode ⟨rowsUnit 14, .little⟩ 0).toOption.map
      (fun p => p.rows.map (·.line)) = some [1, 4] := by cbv
  have hfails : decode ⟨rowsUnit 0, .little⟩ 0 = .error (.zeroLineRange 0) := by cbv
  obtain ⟨hmoved, hcut⟩ := decode_unit hrows hplace [0xFF]
  obtain ⟨hmovedZero, -⟩ := decode_unit hzero hplace [0xFF]
  refine ⟨⟨hrows, hzero, hplace⟩, ?_, ?_, (hcut 2 (by decide)).1 (by decide),
    (hcut 30 (by decide)).2 (by decide)⟩
  · obtain ⟨p, hdecode, -⟩ := exists_ok_of_toOption hlines
    rw [hdecode] at hmoved
    exact ⟨p, hdecode, hmoved⟩
  · rw [hmovedZero, hfails]
    rfl

end LineSection
end LineTable
