/-
The passes of the decoder's loops.

Three loops go on as long as their input lets them: one over the directories of a header, one
over its files and one over the opcode stream.  `Passes` says what a loop does pass by pass.
It is no function, so it knows of no bound and no order that the loop would have to end by:
that a loop ends is the theorem that it has passes (`exists_passes`).  Every pass takes a byte
or more, whatever lengths and counts the bytes state, so there are no more passes than bytes,
and no more entries, rows and files than passes (`LineSection.decode_bounded`).
-/
import LineTable.Proofs.FileNumbers
import LineTable.Proofs.Frames
import LineTable.Proofs.Production

namespace LineTable

/-! ## Loops -/

/-- What a loop does when it is about to make a pass. -/
inductive Turn (σ ρ : Type) where
  /-- It ends, and has no further pass. -/
  | stop (result : ρ)
  /-- It makes its last pass. -/
  | last (behind : Bytes) (result : ρ)
  /-- It makes a pass that another turn follows. -/
  | next (behind : Bytes) (state : σ)

/-- What is left of the input behind a pass. -/
def Turn.behind? {σ ρ : Type} : Turn σ ρ → Option Bytes
  | .stop _ => none
  | .last behind _ => some behind
  | .next behind _ => some behind

/-- A pass of a loop: what is left of the input before it and behind it. -/
structure Pass where
  before : Bytes
  behind : Bytes

/-- The pass takes a byte or more. -/
def Pass.Consumes (pass : Pass) : Prop := pass.behind.length < pass.before.length

section Loop

variable {σ ρ : Type}

/-- The passes of a loop from a state and an input on, and the result that it ends with. -/
inductive Passes (turn : σ → Bytes → Turn σ ρ) : σ → Bytes → List Pass → ρ → Prop
  | stop {s input result} (h : turn s input = .stop result) : Passes turn s input [] result
  | last {s input behind result} (h : turn s input = .last behind result) :
      Passes turn s input [⟨input, behind⟩] result
  | next {s s' input behind passes result} (h : turn s input = .next behind s')
      (hbehind : Passes turn s' behind passes result) :
      Passes turn s input (⟨input, behind⟩ :: passes) result

/-- A pass of the loop leaves less than it was given. -/
def Consuming (turn : σ → Bytes → Turn σ ρ) : Prop :=
  ∀ {s input behind}, (turn s input).behind? = some behind → behind.length < input.length

variable {turn : σ → Bytes → Turn σ ρ} {s s' : σ} {input behind : Bytes} {passes : List Pass}
  {result : ρ}

theorem Consuming.last (hturn : Consuming turn) (h : turn s input = .last behind result) :
    behind.length < input.length :=
  hturn (congrArg Turn.behind? h)

theorem Consuming.next (hturn : Consuming turn) (h : turn s input = .next behind s') :
    behind.length < input.length :=
  hturn (congrArg Turn.behind? h)

theorem exists_passes (hturn : Consuming turn) (s : σ) (input : Bytes) :
    ∃ passes result, Passes turn s input passes result := by
  induction hlength : input.length using Nat.strongRecOn generalizing s input with
  | _ n ih =>
    cases hs : turn s input with
    | stop result => exact ⟨[], result, .stop hs⟩
    | last behind result => exact ⟨[⟨input, behind⟩], result, .last hs⟩
    | next behind s' =>
      have hless := hturn.next hs
      obtain ⟨passes, result, hpasses⟩ := ih _ (hlength ▸ hless) s' behind rfl
      exact ⟨_, result, .next hs hpasses⟩

theorem Passes.consumes (hturn : Consuming turn) (h : Passes turn s input passes result) :
    ∀ pass ∈ passes, pass.Consumes := by
  induction h with
  | stop => nofun
  | last h =>
    intro pass hpass
    rw [List.mem_singleton.1 hpass]
    exact hturn.last h
  | next h _ ih => exact List.forall_mem_cons.2 ⟨hturn.next h, ih⟩

/-- A loop whose result leaves some bytes makes no more passes than it takes bytes. -/
theorem Passes.length_add_le (hturn : Consuming turn) {left : ρ → Nat}
    (hstop : ∀ {s input result}, turn s input = .stop result → left result ≤ input.length)
    (hlast : ∀ {s input behind result}, turn s input = .last behind result →
      left result ≤ behind.length)
    (h : Passes turn s input passes result) : passes.length + left result ≤ input.length := by
  induction h with
  | stop h =>
    rw [List.length_nil, Nat.zero_add]
    exact hstop h
  | last h =>
    have hless := hturn.last h
    have hleft := hlast h
    rw [List.length_singleton]
    omega
  | next h _ ih =>
    have hless := hturn.next h
    rw [List.length_cons]
    omega

end Loop

/-! ## Tables -/

namespace Reader

variable {α : Type} {entry : Bytes → Reader α}

/-- The loop over the entries of a table.  The pass that finds the empty name is the last. -/
def tableTurn (entry : Bytes → Reader α) (entries : List α) (input : Bytes) :
    Turn (List α) (Except ReadError (List α × Bytes)) :=
  match (tableStep entry entries).run input with
  | .error cause => .stop (.error cause)
  | .ok (.inr all, rest) => .last rest (.ok (all, rest))
  | .ok (.inl more, rest) => .next rest more

section

variable {entries more : List α} {input behind : Bytes} {passes : List Pass}
  {result : Except ReadError (List α × Bytes)}

theorem tableStep_shrinks (entries : List α) : (tableStep entry entries).Shrinks :=
  zeroTerminated_shrinks.bind _

theorem run_tableStep_of_stop (h : tableTurn entry entries input = .stop result) :
    ∃ cause, result = .error cause ∧ (tableStep entry entries).run input = .error cause := by
  unfold tableTurn at h
  split at h <;> cases h
  exact ⟨_, rfl, ‹_›⟩

theorem run_tableStep_of_last (h : tableTurn entry entries input = .last behind result) :
    ∃ all, result = .ok (all, behind) ∧
      (tableStep entry entries).run input = .ok (.inr all, behind) := by
  unfold tableTurn at h
  split at h <;> cases h
  exact ⟨_, rfl, ‹_›⟩

theorem run_tableStep_of_next (h : tableTurn entry entries input = .next behind more) :
    (tableStep entry entries).run input = .ok (.inl more, behind) := by
  unfold tableTurn at h
  split at h <;> cases h
  assumption

theorem consuming_tableTurn : Consuming (tableTurn entry) := by
  intro entries input behind h
  cases hturn : tableTurn entry entries input with
  | stop result =>
    rw [hturn] at h
    contradiction
  | last rest result =>
    obtain ⟨all, -, hrun⟩ := run_tableStep_of_last hturn
    rw [hturn] at h
    exact Option.some.inj h ▸ tableStep_shrinks entries hrun
  | next rest more =>
    rw [hturn] at h
    exact Option.some.inj h ▸ tableStep_shrinks entries (run_tableStep_of_next hturn)

theorem repeatFrom_of_passes (h : Passes (tableTurn entry) entries input passes result) :
    repeatFrom (tableStep entry) tableStep_shrinks entries input = result := by
  induction h with
  | stop h =>
    obtain ⟨cause, rfl, hrun⟩ := run_tableStep_of_stop h
    rw [repeatFrom_eq, hrun]
  | last h =>
    obtain ⟨all, rfl, hrun⟩ := run_tableStep_of_last h
    rw [repeatFrom_eq, hrun]
  | next h _ ih =>
    rw [repeatFrom_eq, run_tableStep_of_next h]
    exact ih

theorem run_table_of_passes (h : Passes (tableTurn entry) [] input passes result) :
    (table entry).run input = result :=
  repeatFrom_of_passes h

theorem runLine_table_of_passes (h : Passes (tableTurn entry) [] input passes result) :
    (table entry).runLine input = result.mapError .malformed := by
  rw [runLine, run_table_of_passes h]

/-- How many bytes a table leaves, if it is read. -/
def tableLeft : Except ReadError (List α × Bytes) → Nat
  | .error _ => 0
  | .ok (_, rest) => rest.length

theorem length_passes_table (h : Passes (tableTurn entry) entries input passes result) :
    passes.length + tableLeft result ≤ input.length := by
  refine h.length_add_le consuming_tableTurn ?_ ?_
  · intro entries input result hturn
    obtain ⟨cause, rfl, -⟩ := run_tableStep_of_stop hturn
    exact Nat.zero_le _
  · intro entries input behind result hturn
    obtain ⟨all, rfl, -⟩ := run_tableStep_of_last hturn
    exact Nat.le_refl _

/-- A step over a table adds an entry, or there are no more. -/
theorem tableStep_yields (entries : List α) :
    (tableStep entry entries).Yields fun
      | .inl more => more.length = entries.length + 1
      | .inr all => all.length = entries.length := by
  unfold tableStep
  apply Yields.bind
  intro name
  split
  · apply yields_pure
    exact List.length_reverse
  · apply Yields.bind
    intro first
    apply yields_pure
    rfl

/-- Every pass over a table but the last one gives an entry. -/
theorem length_entries {all : List α} {rest : Bytes}
    (h : Passes (tableTurn entry) entries input passes (.ok (all, rest))) :
    all.length + 1 = entries.length + passes.length := by
  generalize hresult : Except.ok (all, rest) = result at h
  induction h with
  | stop h =>
    obtain ⟨cause, rfl, -⟩ := run_tableStep_of_stop h
    contradiction
  | last h =>
    obtain ⟨_, rfl, hrun⟩ := run_tableStep_of_last h
    cases hresult
    rw [tableStep_yields _ hrun, List.length_singleton]
  | next h _ ih =>
    have hmore := tableStep_yields _ (run_tableStep_of_next h)
    have hall := ih hresult
    rw [List.length_cons]
    omega

/-- A table that is read has fewer entries than it takes bytes. -/
theorem length_table_lt {all : List α} {rest : Bytes}
    (hrun : (table entry).run input = .ok (all, rest)) :
    all.length + rest.length < input.length := by
  have hconsuming : Consuming (tableTurn entry) := consuming_tableTurn
  obtain ⟨passes, result, hpasses⟩ := exists_passes hconsuming [] input
  obtain rfl := (run_table_of_passes hpasses).symm.trans hrun
  have hentries := length_entries hpasses
  have hbytes := length_passes_table hpasses
  rw [List.length_nil, Nat.zero_add] at hentries
  rw [tableLeft] at hbytes
  omega

end

end Reader

/-! ## Opcode streams -/

namespace Machine

variable {h : Header} {e : Endian} {m m' : Machine} {code behind : Bytes}
  {result : EStateM.Result LineError Machine Unit}

/-- The loop over an opcode stream.  A pass reads an instruction and executes it. -/
def runTurn (h : Header) (e : Endian) (m : Machine) (code : Bytes) :
    Turn Machine (EStateM.Result LineError Machine Unit) :=
  if code.isEmpty then .stop (.ok () m)
  else
    match (Instruction.read h e).run code with
    | .error cause => .stop (.error (.malformed cause) m)
    | .ok (i, rest) =>
      match i.execute h m with
      | .error cause m' => .last rest (.error cause m')
      | .ok () m' => .next rest m'

/-- A run ends or goes on as its next turn says. -/
theorem run_turn (m : Machine) (code : Bytes) :
    run h e code m =
      match runTurn h e m code with
      | .stop result => result
      | .last _ result => result
      | .next behind m' => run h e behind m' := by
  rw [run_eq, runTurn]
  by_cases hempty : code.isEmpty
  · rw [if_pos hempty, if_pos hempty]
  · rw [if_neg hempty, if_neg hempty]
    cases (Instruction.read h e).run code with
    | error cause => rfl
    | ok found =>
      dsimp only
      cases found.1.execute h m <;> rfl

/-- Every pass begins by reading an instruction. -/
theorem exists_read_of_runTurn (hturn : (runTurn h e m code).behind? = some behind) :
    ∃ i, (Instruction.read h e).run code = .ok (i, behind) := by
  unfold runTurn at hturn
  by_cases hempty : code.isEmpty
  · rw [if_pos hempty] at hturn
    contradiction
  · rw [if_neg hempty] at hturn
    cases hread : (Instruction.read h e).run code with
    | error cause =>
      rw [hread] at hturn
      contradiction
    | ok found =>
      obtain ⟨i, rest⟩ := found
      rw [hread] at hturn
      dsimp only at hturn
      cases hexecute : i.execute h m with
      | error cause m' =>
        rw [hexecute] at hturn
        cases hturn
        exact ⟨i, rfl⟩
      | ok _ m' =>
        rw [hexecute] at hturn
        cases hturn
        exact ⟨i, rfl⟩

theorem consuming_runTurn : Consuming (runTurn h e) := by
  intro m code behind hturn
  obtain ⟨i, hread⟩ := exists_read_of_runTurn hturn
  exact Instruction.read_shortens hread

theorem run_of_passes {passes : List Pass} (hpasses : Passes (runTurn h e) m code passes result) :
    run h e code m = result := by
  induction hpasses with
  | stop hturn => rw [run_turn, hturn]
  | last hturn => rw [run_turn, hturn]
  | next hturn _ ih =>
    rw [run_turn, hturn]
    exact ih

theorem length_passes_run {passes : List Pass}
    (hpasses : Passes (runTurn h e) m code passes result) : passes.length ≤ code.length :=
  hpasses.length_add_le consuming_runTurn (fun _ => Nat.zero_le _) (fun _ => Nat.zero_le _)

end Machine

/-! ## Headers -/

namespace Header

/-- The fields of a header in front of its tables. -/
def readFixed (offset : UInt64) (format : Format) (version : UInt16) : Reader Header := do
  let minimumInstructionLength ← Reader.byte
  let maximumOperations ← if 4 ≤ version then Reader.byte else pure 1
  let defaultIsStatement ← Reader.byte
  let lineBase ← Reader.byte
  let lineRange ← Reader.byte
  let opcodeBase ← Reader.byte
  let operandCounts ← Reader.take (opcodeBase.toNat - 1)
  return {
    offset, format, version, minimumInstructionLength, maximumOperations
    defaultIsStatement := defaultIsStatement != 0
    lineBase := lineBase.toInt8
    lineRange, opcodeBase, operandCounts, directories := [], files := [] }

def withTables (h : Header) (directories : List String) (files : List FileEntry) : Header :=
  { h with directories, files }

def readDirectory (path : Bytes) : Reader String := pure (Utf8.decode path)

theorem readFields_eq (offset : UInt64) (format : Format) (version : UInt16) :
    readFields offset format version = (do
      let h ← readFixed offset format version
      let directories ← Reader.table readDirectory
      let files ← Reader.table FileEntry.readAfter
      return h.withTables directories files) := by
  unfold readFields readFixed
  by_cases hversion : 4 ≤ version
  · simp only [if_pos hversion, bind_assoc, pure_bind]
    rfl
  · simp only [if_neg hversion, bind_assoc, pure_bind]
    rfl

/-- What a unit has in front of its first table: the fields, the bytes from the tables on, and
the opcode stream. -/
def readFront (e : Endian) (offset : UInt64) (input : Bytes) :
    Except LineError (Header × Bytes × Bytes) := do
  let ((format, unit), _) ← (Reader.unitBytes e).runLine input
  let (version, unit) ← (Reader.u16 e).runLine unit
  if version < 2 ∨ 4 < version then throw (.unsupportedVersion version)
  let (length, unit) ← (Reader.word e format).runLine unit
  let (fields, code) ← (Reader.take length).runLine unit
  let (h, tables) ← (readFixed offset format version).runLine fields
  return (h, tables, code)

theorem read_eq (e : Endian) (offset : UInt64) (input : Bytes) :
    Header.read e offset input = (do
      let (h, tables, code) ← readFront e offset input
      let (directories, rest) ← (Reader.table readDirectory).runLine tables
      let (files, _) ← (Reader.table FileEntry.readAfter).runLine rest
      return (h.withTables directories files, code)) := by
  unfold Header.read readFront
  simp only [bind_assoc]
  refine bind_congr fun ⟨⟨format, unit⟩, _⟩ => ?_
  refine bind_congr fun ⟨version, unit⟩ => ?_
  dsimp only
  split
  · rfl
  simp only [bind_assoc]
  refine bind_congr fun ⟨length, unit⟩ => ?_
  refine bind_congr fun ⟨fields, code⟩ => ?_
  simp only [readFields_eq, Reader.runLine_bind, bind_assoc]
  rfl

theorem length_front_le {e : Endian} {offset : UInt64} {input tables code : Bytes} {h : Header}
    (hfront : readFront e offset input = .ok (h, tables, code)) :
    tables.length + code.length ≤ input.length := by
  unfold readFront at hfront
  obtain ⟨⟨⟨format, unit⟩, behind⟩, hunit, hfront⟩ := exists_ok_of_bind hfront
  obtain ⟨⟨version, versioned⟩, hversion, hfront⟩ := exists_ok_of_bind hfront
  dsimp only at hfront
  split at hfront
  · contradiction
  obtain ⟨⟨length, sized⟩, hlength, hfront⟩ := exists_ok_of_bind hfront
  obtain ⟨⟨fields, code⟩, htake, hfront⟩ := exists_ok_of_bind hfront
  obtain ⟨⟨fixed, tables⟩, hfixed, hfront⟩ := exists_ok_of_bind hfront
  cases hfront
  obtain ⟨-, rfl⟩ := Reader.run_take_eq_ok_iff.1 (Reader.runLine_eq_ok_iff.1 htake)
  calc tables.length + code.length
    _ ≤ fields.length + code.length := Nat.add_le_add_right (Reader.runLine_length_le hfixed) _
    _ = (fields ++ code).length := List.length_append.symm
    _ ≤ versioned.length := Reader.runLine_length_le hlength
    _ ≤ unit.length := Reader.runLine_length_le hversion
    _ ≤ input.length := Reader.length_le_of_unitBytes hunit

/-- A header has fewer directories and files than bytes for its fields. -/
theorem length_tables_le {offset : UInt64} {format : Format} {version : UInt16}
    {fields left : Bytes} {h : Header}
    (hfields : (readFields offset format version).run fields = .ok (h, left)) :
    h.directories.length + h.files.length ≤ fields.length := by
  rw [readFields_eq] at hfields
  obtain ⟨fixed, tables, hfixed, hfields⟩ := Reader.run_bind_eq_ok_iff.1 hfields
  obtain ⟨directories, rest, hdirectories, hfields⟩ := Reader.run_bind_eq_ok_iff.1 hfields
  obtain ⟨files, behind, hfiles, hfields⟩ := Reader.run_bind_eq_ok_iff.1 hfields
  cases hfields
  have hfixed := (readFixed offset format version).length_le hfixed
  have hdirectories := Reader.length_table_lt hdirectories
  have hfiles := Reader.length_table_lt hfiles
  show directories.length + files.length ≤ fields.length
  omega

end Header

/-! ## Programs -/

/-- The passes of the three loops. -/
structure Work where
  directories : List Pass
  files : List Pass
  opcodes : List Pass

def Work.passes (w : Work) : List Pass := w.directories ++ w.files ++ w.opcodes

/-- What comes of the run of an opcode stream. -/
def Program.ofResult (h : Header) :
    EStateM.Result LineError Machine Unit → Except LineError Program
  | .ok () m => .ok (ofMachine h m)
  | .error cause _ => .error cause

theorem Program.build_eq (h : Header) (e : Endian) (code : Bytes) :
    build h e code = ofResult h (Machine.run h e code (Machine.ofHeader h)) := by
  unfold build
  cases Machine.run h e code (Machine.ofHeader h) <;> rfl

namespace LineSection

variable {s : LineSection} {offset : UInt64} {work : Work} {outcome : Except LineError Program}

/-- What the unit at an offset has in front of its first table. -/
def front (s : LineSection) (offset : UInt64) : Except LineError (Header × Bytes × Bytes) :=
  match s.bytesFrom? offset with
  | some bytes => Header.readFront s.endian offset bytes
  | none => .error (.offsetOutOfRange offset s.size)

/-- Decoding the program at an offset: the passes of its loops and what comes of it.  A loop
begins when the one before it has ended with a table. -/
inductive Decoding (s : LineSection) (offset : UInt64) : Work → Except LineError Program → Prop
  | front {cause} (hfront : s.front offset = .error cause) :
      Decoding s offset ⟨[], [], []⟩ (.error cause)
  | directories {h tables code passes cause} (hfront : s.front offset = .ok (h, tables, code))
      (hdirectories :
        Passes (Reader.tableTurn Header.readDirectory) [] tables passes (.error cause)) :
      Decoding s offset ⟨passes, [], []⟩ (.error (.malformed cause))
  | files {h tables code first directories rest passes cause}
      (hfront : s.front offset = .ok (h, tables, code))
      (hdirectories : Passes (Reader.tableTurn Header.readDirectory) [] tables first
        (.ok (directories, rest)))
      (hfiles : Passes (Reader.tableTurn FileEntry.readAfter) [] rest passes (.error cause)) :
      Decoding s offset ⟨first, passes, []⟩ (.error (.malformed cause))
  | opcodes {h tables code first directories rest second files left passes result}
      (hfront : s.front offset = .ok (h, tables, code))
      (hdirectories : Passes (Reader.tableTurn Header.readDirectory) [] tables first
        (.ok (directories, rest)))
      (hfiles : Passes (Reader.tableTurn FileEntry.readAfter) [] rest second (.ok (files, left)))
      (hopcodes : Passes (Machine.runTurn (h.withTables directories files) s.endian)
        (Machine.ofHeader (h.withTables directories files)) code passes result) :
      Decoding s offset ⟨first, second, passes⟩
        (Program.ofResult (h.withTables directories files) result)

theorem decode_eq (s : LineSection) (offset : UInt64) :
    s.decode offset = (do
      let (h, tables, code) ← s.front offset
      let (directories, rest) ← (Reader.table Header.readDirectory).runLine tables
      let (files, _) ← (Reader.table FileEntry.readAfter).runLine rest
      Program.build (h.withTables directories files) s.endian code) := by
  rw [decode, front]
  cases s.bytesFrom? offset with
  | none => rfl
  | some bytes =>
    dsimp only
    rw [Header.read_eq]
    simp only [bind_assoc, pure_bind]

theorem Decoding.outcome_eq (hwork : Decoding s offset work outcome) :
    outcome = s.decode offset := by
  rw [decode_eq]
  cases hwork with
  | front hfront =>
    rw [hfront]
    rfl
  | directories hfront hdirectories =>
    rw [hfront]
    show _ = (Reader.table _).runLine _ >>= _
    rw [Reader.runLine_table_of_passes hdirectories]
    rfl
  | files hfront hdirectories hfiles =>
    rw [hfront]
    show _ = (Reader.table _).runLine _ >>= _
    rw [Reader.runLine_table_of_passes hdirectories]
    show _ = (Reader.table _).runLine _ >>= _
    rw [Reader.runLine_table_of_passes hfiles]
    rfl
  | opcodes hfront hdirectories hfiles hopcodes =>
    rw [hfront]
    show _ = (Reader.table _).runLine _ >>= _
    rw [Reader.runLine_table_of_passes hdirectories]
    show _ = (Reader.table _).runLine _ >>= _
    rw [Reader.runLine_table_of_passes hfiles, ← Machine.run_of_passes hopcodes]
    exact (Program.build_eq _ _ _).symm

theorem exists_decoding (s : LineSection) (offset : UInt64) :
    ∃ work outcome, Decoding s offset work outcome := by
  cases hfront : s.front offset with
  | error cause => exact ⟨_, _, .front hfront⟩
  | ok found =>
    obtain ⟨h, tables, code⟩ := found
    have hconsuming : Consuming (Reader.tableTurn Header.readDirectory) :=
      Reader.consuming_tableTurn
    obtain ⟨first, result, hdirectories⟩ := exists_passes hconsuming [] tables
    cases result with
    | error cause => exact ⟨_, _, .directories hfront hdirectories⟩
    | ok found =>
      obtain ⟨directories, rest⟩ := found
      have hconsuming : Consuming (Reader.tableTurn FileEntry.readAfter) :=
        Reader.consuming_tableTurn
      obtain ⟨second, result, hfiles⟩ := exists_passes hconsuming [] rest
      cases result with
      | error cause => exact ⟨_, _, .files hfront hdirectories hfiles⟩
      | ok found =>
        obtain ⟨files, left⟩ := found
        have hconsuming : Consuming (Machine.runTurn (h.withTables directories files) s.endian) :=
          Machine.consuming_runTurn
        obtain ⟨passes, result, hopcodes⟩ := exists_passes hconsuming
          (Machine.ofHeader (h.withTables directories files)) code
        exact ⟨_, _, .opcodes hfront hdirectories hfiles hopcodes⟩

theorem length_front_le {h : Header} {tables code : Bytes}
    (hfront : s.front offset = .ok (h, tables, code)) : tables.length + code.length ≤ s.size := by
  unfold front at hfront
  rw [bytesFrom?_eq] at hfront
  by_cases hin : s.contains offset
  · rw [if_pos hin] at hfront
    calc tables.length + code.length
      _ ≤ (s.bytes.drop offset.toNat).length := Header.length_front_le hfront
      _ ≤ s.size := by
        rw [List.length_drop]
        exact Nat.sub_le _ _
  · rw [if_neg hin] at hfront
    contradiction

theorem Decoding.consumes (hwork : Decoding s offset work outcome) :
    ∀ pass ∈ work.passes, pass.Consumes := by
  simp only [Work.passes, List.forall_mem_append]
  cases hwork with
  | front => exact ⟨⟨nofun, nofun⟩, nofun⟩
  | directories _ hdirectories =>
    exact ⟨⟨hdirectories.consumes Reader.consuming_tableTurn, nofun⟩, nofun⟩
  | files _ hdirectories hfiles =>
    exact ⟨⟨hdirectories.consumes Reader.consuming_tableTurn,
      hfiles.consumes Reader.consuming_tableTurn⟩, nofun⟩
  | opcodes _ hdirectories hfiles hopcodes =>
    exact ⟨⟨hdirectories.consumes Reader.consuming_tableTurn,
      hfiles.consumes Reader.consuming_tableTurn⟩, hopcodes.consumes Machine.consuming_runTurn⟩

/-- The loops make no more passes than the section has bytes. -/
theorem Decoding.length_le (hwork : Decoding s offset work outcome) :
    work.passes.length ≤ s.size := by
  simp only [Work.passes, List.length_append]
  cases hwork with
  | front => exact Nat.zero_le _
  | directories hfront hdirectories =>
    have hbytes := length_front_le hfront
    have hfirst := Reader.length_passes_table hdirectories
    simp only [List.length_nil]
    omega
  | files hfront hdirectories hfiles =>
    have hbytes := length_front_le hfront
    have hfirst := Reader.length_passes_table hdirectories
    have hsecond := Reader.length_passes_table hfiles
    simp only [Reader.tableLeft] at hfirst
    simp only [List.length_nil]
    omega
  | opcodes hfront hdirectories hfiles hopcodes =>
    have hbytes := length_front_le hfront
    have hfirst := Reader.length_passes_table hdirectories
    have hsecond := Reader.length_passes_table hfiles
    have hthird := Machine.length_passes_run hopcodes
    simp only [Reader.tableLeft] at hfirst
    dsimp only
    omega

/-- Decoding ends for every offset of every section: its loops have passes, and what comes of
these is what the offset decodes to.  Every pass takes a byte or more, so all of them together
are no more than the bytes of the section.  A program that is decoded stands in a frame.  It
has no more directories and files of its header than the bytes that the length of the header
counts, and no more rows and files of its own than bytes in its opcode stream. -/
theorem decode_bounded (s : LineSection) (offset : UInt64) :
    (∃ work, Decoding s offset work (s.decode offset)) ∧
    (∀ work outcome, Decoding s offset work outcome →
      outcome = s.decode offset ∧ (∀ pass ∈ work.passes, pass.Consumes) ∧
        work.passes.length ≤ s.size) ∧
    ∀ p, s.decode offset = .ok p →
      ∃ (f : Frame) (trailing : Bytes),
        s.bytes.drop offset.toNat = f.bytes s.endian ++ trailing ∧
        p.header.directories.length + p.header.files.length ≤ f.fields.length ∧
        p.rows.length + p.definedFiles.length ≤ f.code.length := by
  refine ⟨?_, fun work outcome hwork => ?_, fun p hdecode => ?_⟩
  · obtain ⟨work, outcome, hwork⟩ := exists_decoding s offset
    exact ⟨work, hwork.outcome_eq ▸ hwork⟩
  · exact ⟨hwork.outcome_eq, hwork.consumes, hwork.length_le⟩
  · obtain ⟨h, code, hread, hbuild⟩ := exists_read_of_decode hdecode
    obtain ⟨f, trailing, left, hinput, rfl, hfields⟩ := Header.exists_frame_of_read hread
    refine ⟨f, trailing, hinput, ?_, Program.produced_le_of_build hbuild⟩
    rw [Program.header_of_build hbuild]
    exact Header.length_tables_le hfields

/-- A unit with a directory, a file and a row.  In front of the row stand an extended
instruction of length zero and one that takes 255 operands. -/
def crowdedFrame : Frame where
  format := .dwarf32
  version := 2
  fields := [1, 1, 0xFB, 14, 14, 0, 1, 1, 1, 1, 0, 0, 0, 1, 0, 0, 1, 255, 0x64, 0, 0, 0x66, 0, 1, 0,
    0, 0]
  code := [0, 0, 13] ++ List.replicate 255 0 ++ [1]
  version_supported := by decide
  fits := by decide +kernel

/-- The section that holds this unit alone. -/
def crowdedSection : LineSection := ⟨crowdedFrame.bytes .little, .little⟩

theorem decode_bounded_sample :
    ∃ p work, crowdedSection.decode 0 = .ok p ∧ Decoding crowdedSection 0 work (.ok p) ∧
      p.header.directories = ["d"] ∧ p.header.files.length = 1 ∧ p.rows.length = 1 ∧
      (∀ pass ∈ work.passes, pass.Consumes) ∧ work.passes.length ≤ crowdedSection.size ∧
      ∃ (f : Frame) (trailing : Bytes),
        crowdedSection.bytes.drop 0 = f.bytes .little ++ trailing ∧
        p.header.directories.length + p.header.files.length ≤ f.fields.length ∧
        p.rows.length + p.definedFiles.length ≤ f.code.length := by
  have hshown : (crowdedSection.decode 0).toOption.map (fun p =>
      (p.header.directories, p.header.files.length, p.rows.length)) = some (["d"], 1, 1) := by
    decide +kernel
  obtain ⟨p, hdecode, hp⟩ := exists_ok_of_toOption hshown
  simp only [Prod.mk.injEq] at hp
  obtain ⟨⟨work, hwork⟩, hpasses, hprogram⟩ := decode_bounded crowdedSection 0
  obtain ⟨-, hconsumes, hlength⟩ := hpasses work _ hwork
  exact ⟨p, work, hdecode, hdecode ▸ hwork, hp.1, hp.2.1, hp.2.2, hconsumes, hlength,
    hprogram p hdecode⟩

end LineSection
end LineTable
