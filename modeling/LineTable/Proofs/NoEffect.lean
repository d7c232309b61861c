/-
Instructions without effect.

Three kinds of instruction take their bytes and do nothing: the empty extended one,
extended ones whose opcode has no meaning, and standard ones whose opcode has none.
`NoEffect` says which bytes those are, with every way of writing a number that takes ten
bytes or fewer.  Such bytes are one instruction whatever follows them
(`NoEffect.exists_reads`), so where an instruction may begin they can be left out.  The
theorem this file exists for is `build_noEffect`.
-/
import LineTable.Proofs.Assembly
import LineTable.Proofs.Streams
import Mathlib

namespace LineTable

/-- Bytes of one instruction that does nothing. -/
inductive NoEffect (h : Header) : Bytes → Prop where
  | empty : NoEffect h [0, 0]
  /-- The length counts the opcode and the payload. -/
  | extended {size payload : Bytes} {opcode : UInt8} {length : UInt64}
      (hopcode : opcode ≠ 1 ∧ opcode ≠ 2 ∧ opcode ≠ 3 ∧ opcode ≠ 4)
      (hsize : Leb128.Holds size length) (hlength : length.toNat = payload.length + 1) :
      NoEffect h (0 :: size ++ opcode :: payload)
  /-- The header says how many operands there are, and there are none if it does not. -/
  | standard {opcode : UInt8} {operands : List Bytes} (hopcode : 12 < opcode)
      (hbelow : opcode < h.opcodeBase) (hoperands : ∀ o ∈ operands, ∃ n, Leb128.Holds o n)
      (hcount : operands.length = ((h.operandCount? opcode).getD 0).toNat) :
      NoEffect h (opcode :: operands.flatten)

namespace Reader

/-- Strings that a reader takes one by one are taken one after the other. -/
theorem exists_reads_times {α : Type} {item : Reader α} (parts : List Bytes)
    (hparts : ∀ bytes ∈ parts, ∃ a, item.Reads bytes a) :
    ∃ values, (times item parts.length).Reads parts.flatten values := by
  induction parts with
  | nil => exact ⟨[], Reads.pure []⟩
  | cons bytes rest ih =>
    obtain ⟨a, ha⟩ := hparts bytes List.mem_cons_self
    obtain ⟨values, hvalues⟩ := ih fun b hb => hparts b (List.mem_cons_of_mem bytes hb)
    rw [List.flatten_cons]
    exact ⟨a :: values, ha.bind (hvalues.bind_pure (a :: ·))⟩

end Reader

namespace Instruction

open Reader

variable {h : Header} {e : Endian}

/-- The instruction leaves every machine as it is. -/
def Idle (h : Header) (i : Instruction) : Prop := ∀ m, i.execute h m = .ok () m

theorem reads_meaningless (hbase : 1 ≤ h.opcodeBase) {size payload : Bytes} {opcode : UInt8}
    {length : UInt64} (hopcode : opcode ≠ 1 ∧ opcode ≠ 2 ∧ opcode ≠ 3 ∧ opcode ≠ 4)
    (hsize : Leb128.Holds size length) (hlength : length.toNat = payload.length + 1) :
    (read h e).Reads (0 :: size ++ opcode :: payload) (skipExtended opcode) := by
  have hmeaningless : opcode = 0 ∨ 4 < opcode := by
    simp only [ne_eq, ← UInt8.toNat_inj, UInt8.lt_iff_toNat_lt, UInt8.reduceToNat] at hopcode ⊢
    omega
  have hread := readOperation_skipExtended (e := e) (opcode :: payload).length hmeaningless payload
  exact reads_extended hbase
    (reads_sizedRegion hsize.reads hlength (List.cons_ne_nil _ _) hread)

theorem exists_reads_unknown {opcode : UInt8} {operands : List Bytes} (hopcode : 12 < opcode)
    (hbelow : opcode < h.opcodeBase) (hoperands : ∀ o ∈ operands, ∃ n, Leb128.Holds o n)
    (hcount : operands.length = ((h.operandCount? opcode).getD 0).toNat) :
    ∃ values, (read h e).Reads (opcode :: operands.flatten) (skip opcode values) := by
  have hzero : opcode ≠ 0 := by
    rintro rfl
    exact absurd hopcode (by decide)
  obtain ⟨values, hvalues⟩ := exists_reads_times operands fun o ho => by
    obtain ⟨n, hn⟩ := hoperands o ho
    exact ⟨n, hn.reads⟩
  rw [hcount] at hvalues
  refine ⟨values, reads_standard opcode hbelow hzero ?_⟩
  rw [readStandard_eq hopcode]
  exact hvalues.map (skip opcode)

end Instruction

/-- Bytes without effect are read as one instruction, and it is idle. -/
theorem NoEffect.exists_reads {h : Header} {e : Endian} (hbase : 1 ≤ h.opcodeBase) {n : Bytes}
    (hn : NoEffect h n) : ∃ i, (Instruction.read h e).Reads n i ∧ i.Idle h := by
  cases hn with
  | empty => exact ⟨_, Instruction.reads_extended hbase Instruction.reads_empty, fun _ => rfl⟩
  | extended hopcode hsize hlength =>
    exact ⟨_, Instruction.reads_meaningless hbase hopcode hsize hlength, fun _ => rfl⟩
  | standard hopcode hbelow hoperands hcount =>
    obtain ⟨values, hread⟩ := Instruction.exists_reads_unknown hopcode hbelow hoperands hcount
    exact ⟨_, hread, fun _ => rfl⟩

/-- Behind a stream that runs to its end, bytes without effect can be left out: what follows
builds the same program, or fails with the same error. -/
theorem build_noEffect {h : Header} {e : Endian} (hbase : 1 ≤ h.opcodeBase) {a n : Bytes}
    {p : Program} (ha : Program.build h e a = .ok p) (hn : NoEffect h n) (b : Bytes) :
    Program.build h e (a ++ n ++ b) = Program.build h e (a ++ b) := by
  obtain ⟨m, hrun, -⟩ := Program.build_eq_ok_iff.1 ha
  obtain ⟨i, hread, hidle⟩ := hn.exists_reads (e := e) hbase
  have hskipped : Machine.run h e (a ++ n ++ b) (Machine.ofHeader h) =
      Machine.run h e (a ++ b) (Machine.ofHeader h) := by
    calc Machine.run h e (a ++ n ++ b) (Machine.ofHeader h)
        = Machine.run h e (n ++ b) m := by rw [List.append_assoc, Machine.run_append hrun]
      _ = Machine.run h e b m := Machine.run_of_reads hread (hidle m) b
      _ = Machine.run h e (a ++ b) (Machine.ofHeader h) := (Machine.run_append hrun b).symm
  rw [Program.build, Program.build, hskipped]

/-- A header whose opcode 13 has two operands and no meaning. -/
def skippingHeader : Header :=
  { Header.ofFields 2 14 (-5) 14 1 with operandCounts := [0, 1, 1, 1, 1, 0, 0, 0, 1, 0, 0, 1, 2] }

/-- An operand in more bytes than it needs. -/
theorem noEffect_padded : NoEffect skippingHeader [13, 0x81, 0, 7] := by
  have hfirst : Leb128.Holds [0x81, 0] 1 :=
    ⟨.more (b := 0x81) (by decide) (.last (b := 0) (by decide)), by decide⟩
  have hsecond : Leb128.Holds [7] 7 := ⟨.last (b := 7) (by decide), by decide⟩
  have hoperands : ∀ o ∈ [[0x81, 0], [7]], ∃ n, Leb128.Holds o n := by
    intro o ho
    simp only [List.mem_cons, List.not_mem_nil, or_false] at ho
    rcases ho with rfl | rfl
    · exact ⟨1, hfirst⟩
    · exact ⟨7, hsecond⟩
  exact .standard (by decide) (by decide) hoperands rfl

theorem noEffect_payload : NoEffect skippingHeader [0, 0x83, 0, 0x80, 9, 9] := by
  have hsize : Leb128.Holds [0x83, 0] 3 :=
    ⟨.more (b := 0x83) (by decide) (.last (b := 0) (by decide)), by decide⟩
  show NoEffect skippingHeader (0 :: [0x83, 0] ++ 0x80 :: [9, 9])
  exact .extended (by decide) hsize rfl

theorem build_noEffect_sample :
    (1 ≤ skippingHeader.opcodeBase ∧ NoEffect skippingHeader [13, 0x81, 0, 7] ∧
      NoEffect skippingHeader [0, 0x83, 0, 0x80, 9, 9] ∧
      ∃ p, Program.build skippingHeader .little [1] = .ok p) ∧
      Program.build skippingHeader .little ([1] ++ [13, 0x81, 0, 7] ++ [3, 4, 1]) =
        Program.build skippingHeader .little ([1] ++ [3, 4, 1]) ∧
      Program.build skippingHeader .little ([1] ++ [0, 0x83, 0, 0x80, 9, 9] ++ [2]) =
        .error (.malformed .endOfInput) := by
  have hbase : 1 ≤ skippingHeader.opcodeBase := by decide
  have hrun : Machine.run skippingHeader .little [1] (.ofHeader skippingHeader) =
      .ok () (Machine.ofHeader skippingHeader).pushRow := by cbv
  have hbuild := Program.build_eq_ok_iff.2 ⟨_, hrun, rfl⟩
  have hcut : Program.build skippingHeader .little ([1] ++ [2]) =
      .error (.malformed .endOfInput) := by cbv
  have hsame := build_noEffect hbase hbuild noEffect_padded [3, 4, 1]
  have hfails := build_noEffect hbase hbuild noEffect_payload [2]
  exact ⟨⟨hbase, noEffect_padded, noEffect_payload, _, hbuild⟩, hsame, hfails.trans hcut⟩

end LineTable
