/-
Evaluation that stops at faults.

Words wrap, division by zero has a value, a slice past the end is short, and nothing comes
of an assertion that fails.  A `Checked` computation stops there instead and says which
fault it was.  This module evaluates the decoder once more with every operation that has
such a fault in its checked form, and then what one asks of a program: the row after a row,
and the file of a number.

No fault ever occurs (`Checked.never_faults`).  The guards that this rests on stand apart from
the operations that they guard: instructions are told apart by the opcode base before a
special one subtracts it, the line range is tested before anything divides by it, and the
files of the header are tried before their number is subtracted.
-/
import LineTable.Proofs.Assembly
import LineTable.Proofs.Invariants
import LineTable.Proofs.Production
import Mathlib

namespace LineTable

inductive Fault where
  /-- A result does not fit its type. -/
  | overflow
  | divisionByZero
  | outOfBounds
  | assertion
deriving DecidableEq, Repr

/-- A computation that a fault stops. -/
abbrev Checked := Except Fault

namespace Checked

/-! ## Operations that have a fault -/

def assert (condition : Prop) [Decidable condition] : Checked Unit :=
  if condition then .ok () else .error .assertion

def subByte (a b : UInt8) : Checked UInt8 := if b ≤ a then .ok (a - b) else .error .overflow

def divByte (a b : UInt8) : Checked UInt8 := if b = 0 then .error .divisionByZero else .ok (a / b)

def modByte (a b : UInt8) : Checked UInt8 := if b = 0 then .error .divisionByZero else .ok (a % b)

def addLine (a b : Int64) : Checked Int64 :=
  if (a + b).toInt = a.toInt + b.toInt then .ok (a + b) else .error .overflow

/-- Sizes and positions are words of 64 bits. -/
def addSize (a b : Nat) : Checked Nat :=
  if a + b < UInt64.size then .ok (a + b) else .error .overflow

def subSize (a b : Nat) : Checked Nat := if b ≤ a then .ok (a - b) else .error .overflow

def slice {α : Type} (xs : List α) (first last : Nat) : Checked (List α) :=
  if first ≤ last ∧ last ≤ xs.length then .ok ((xs.take last).drop first)
  else .error .outOfBounds

def index (bytes : Bytes) (place : Nat) : Checked UInt8 :=
  match bytes[place]? with
  | some b => .ok b
  | none => .error .outOfBounds

/-! ## Computations without a fault -/

/-- A computation that fails at most, and has no fault. -/
def total {ε α : Type} (x : Except ε α) : ExceptT ε Checked α := ExceptT.mk (.ok x)

/-- Steps without a fault make a computation without one. -/
theorem bind_total {ε α β : Type} {first : ExceptT ε Checked α} {x : Except ε α}
    {next : α → ExceptT ε Checked β} {next' : α → Except ε β} (hfirst : first = total x)
    (hnext : ∀ a, next a = total (next' a)) : (first >>= next) = total (x >>= next') := by
  subst hfirst
  cases x with
  | error cause => rfl
  | ok a => exact hnext a

theorem adapt_total {α : Type} (x : Except ReadError α) :
    (total x).adapt LineError.malformed = total (x.mapError .malformed) := by
  cases x with
  | error cause => rfl
  | ok a => rfl

/-- Takes the first byte, after a test that there is one. -/
def byte (input : Bytes) : ExceptT ReadError Checked (UInt8 × Bytes) :=
  if input.isEmpty then throw .endOfInput
  else do return (← index input 0, ← slice input 1 input.length)

/-- Splits bytes off, after a test that there are enough. -/
def split (count : Nat) (input : Bytes) : ExceptT ReadError Checked (Bytes × Bytes) :=
  if input.length < count then throw .endOfInput
  else do return (← slice input 0 count, ← slice input count input.length)

theorem byte_eq (input : Bytes) : byte input = total (Reader.byte.run input) := by
  cases input with
  | nil => rfl
  | cons b rest =>
    have hslice : slice (b :: rest) 1 (b :: rest).length = .ok rest := by
      rw [slice, if_pos (by simp), List.take_length]
      rfl
    show (do return (← index (b :: rest) 0, ← slice (b :: rest) 1 (b :: rest).length) :
      ExceptT ReadError Checked (UInt8 × Bytes)) = _
    rw [hslice]
    rfl

theorem split_eq (count : Nat) (input : Bytes) :
    split count input = total ((Reader.take count).run input) := by
  by_cases hshort : input.length < count
  · have htake : (input.take count).length ≠ count := by
      rw [List.length_take]
      omega
    rw [split, if_pos hshort]
    simp only [Reader.take, if_neg htake]
    rfl
  · have htake : (input.take count).length = count := by
      rw [List.length_take]
      omega
    have hfront : slice input 0 count = .ok (input.take count) := by
      rw [slice, if_pos (by omega), List.drop_zero]
    have hback : slice input count input.length = .ok (input.drop count) := by
      rw [slice, if_pos (by omega), List.take_length]
    rw [split, if_neg hshort, hfront, hback]
    simp only [Reader.take, if_pos htake]
    rfl

/-! ## Reading -/

section

variable (h : Header) (e : Endian)

def readExtended (input : Bytes) : ExceptT ReadError Checked (Instruction × Bytes) := do
  let (size, input) ← total (Leb128.unsigned.run input)
  if size = 0 then return (.empty, input)
  else
    let (region, rest) ← split size.toNat input
    let (i, _) ← total ((Instruction.readOperation e size.toNat).run region)
    return (i, rest)

def operandCount? (opcode : UInt8) : Checked (Option UInt8) :=
  if opcode = 0 then return none
  else return h.operandCounts[← subSize opcode.toNat 1]?

/-- Only opcodes without a meaning are looked up in the header. -/
def readStandard (opcode : UInt8) (input : Bytes) :
    ExceptT ReadError Checked (Instruction × Bytes) := do
  if 12 < opcode then
    let count ← operandCount? h opcode
    let (operands, rest) ←
      total ((Reader.times Leb128.unsigned (count.getD 0).toNat).run input)
    return (.skip opcode operands, rest)
  else total ((Instruction.readStandard h e opcode).run input)

def readInstruction (input : Bytes) : ExceptT ReadError Checked (Instruction × Bytes) := do
  let (opcode, input) ← byte input
  if h.opcodeBase ≤ opcode then return (.special opcode, input)
  else if opcode = 0 then readExtended e input
  else readStandard h e opcode input

def readHeader (offset : UInt64) (input : Bytes) : ExceptT LineError Checked (Header × Bytes) := do
  let ((format, length), input) ← total ((Reader.initialLength e).runLine input)
  let (unit, _) ← (split length input).adapt .malformed
  let (version, unit) ← total ((Reader.u16 e).runLine unit)
  if version < 2 ∨ 4 < version then throw (.unsupportedVersion version)
  let (length, unit) ← total ((Reader.word e format).runLine unit)
  let (fields, code) ← (split length unit).adapt .malformed
  let (header, _) ← total ((Header.readFields offset format version).runLine fields)
  return (header, code)

end

variable {h : Header} {e : Endian}

theorem readExtended_eq (input : Bytes) :
    readExtended e input = total ((Instruction.readExtended e).run input) := by
  rw [readExtended, Instruction.readExtended, Reader.run_bind_eq]
  refine bind_total rfl fun ⟨size, rest⟩ => ?_
  dsimp only
  split
  · rfl
  · rw [Reader.run_bind_eq]
    refine bind_total (split_eq _ _) fun ⟨region, more⟩ => ?_
    dsimp only
    unfold Reader.within
    cases (Instruction.readOperation e size.toNat).run region <;> rfl

theorem subSize_one {n : Nat} (hn : n ≠ 0) : subSize n 1 = .ok (n - 1) := if_pos (by omega)

theorem operandCount?_eq (opcode : UInt8) :
    operandCount? h opcode = .ok (h.operandCount? opcode) := by
  rw [operandCount?, Header.operandCount?]
  by_cases hzero : opcode = 0
  · rw [if_pos hzero, if_pos hzero]
    rfl
  · have hpos : opcode.toNat ≠ 0 := fun h0 => hzero (UInt8.toNat_inj.1 h0)
    rw [if_neg hzero, if_neg hzero, subSize_one hpos]
    rfl

theorem readStandard_eq (opcode : UInt8) (input : Bytes) :
    readStandard h e opcode input = total ((Instruction.readStandard h e opcode).run input) := by
  rw [readStandard]
  by_cases hopcode : 12 < opcode
  · rw [if_pos hopcode, Instruction.readStandard_eq hopcode, operandCount?_eq]
    show _ = total ((Reader.times _ _ >>= fun operands =>
      pure (Instruction.skip opcode operands)).run input)
    rw [Reader.run_bind_eq]
    exact bind_total rfl fun _ => rfl
  · rw [if_neg hopcode]

theorem readInstruction_eq (input : Bytes) :
    readInstruction h e input = total ((Instruction.read h e).run input) := by
  rw [readInstruction, Instruction.read, Reader.run_bind_eq]
  refine bind_total (byte_eq input) fun ⟨opcode, rest⟩ => ?_
  dsimp only
  split
  · rfl
  · split
    · exact readExtended_eq rest
    · exact readStandard_eq opcode rest

theorem readHeader_eq (offset : UInt64) (input : Bytes) :
    readHeader e offset input = total (Header.read e offset input) := by
  have hsplit (count : Nat) (bytes : Bytes) :
      (split count bytes).adapt .malformed = total ((Reader.take count).runLine bytes) := by
    rw [split_eq, adapt_total]
    rfl
  rw [readHeader, Header.read, Reader.unitBytes, Reader.runLine_bind, bind_assoc]
  refine bind_total rfl fun found => ?_
  obtain ⟨⟨format, length⟩, rest⟩ := found
  dsimp only
  rw [Reader.runLine_bind, bind_assoc]
  refine bind_total (hsplit _ _) fun found => ?_
  obtain ⟨unit, rest⟩ := found
  refine bind_total rfl fun found => ?_
  obtain ⟨version, unit⟩ := found
  dsimp only
  split
  · rfl
  refine bind_total rfl fun found => ?_
  refine bind_total (hsplit _ _) fun found => ?_
  exact bind_total rfl fun found => rfl

/-! ## Executing -/

end Checked

/-- A computation that writes to a machine, may fail part of the way, and stops at faults. -/
abbrev CheckedExecution := ExceptT LineError (StateT Machine Checked)

namespace Checked

open Machine

def outcome {α : Type} : EStateM.Result LineError Machine α → Except LineError α × Machine
  | .ok a m => (.ok a, m)
  | .error cause m => (.error cause, m)

/-- An execution that has no operation with a fault. -/
def ofExecution {α : Type} (x : Execution α) : CheckedExecution α :=
  ExceptT.mk fun m => .ok (outcome (x m))

def executeSpecial (h : Header) (opcode : UInt8) : CheckedExecution Unit := do
  ofExecution h.needSpecialOpcodes
  ofExecution h.needLineRange
  assert (h.opcodeBase ≤ opcode)
  -- The difference is cut off at zero and would hide what the assertion finds.
  let adjusted := if h.opcodeBase ≤ opcode then opcode - h.opcodeBase else 0
  let operations ← divByte adjusted h.lineRange
  let remainder ← modByte adjusted h.lineRange
  let lines ← addLine (Int64.ofInt h.lineBase.toInt) (Int64.ofInt remainder.toNat)
  ofExecution (write fun s => { s with line := s.line + lines })
  ofExecution (write (State.advance h operations.toUInt64))
  ofExecution record

def executeConstAddPc (h : Header) : CheckedExecution Unit := do
  let adjusted ← subByte 255 h.opcodeBase
  ofExecution h.needLineRange
  let operations ← divByte adjusted h.lineRange
  ofExecution (write (State.advance h operations.toUInt64))

/-- Only two instructions calculate with the fields of the header.  The other ones add and
multiply words that wrap. -/
def execute (h : Header) : Instruction → CheckedExecution Unit
  | .special opcode => executeSpecial h opcode
  | .constAddPc => executeConstAddPc h
  | i => ofExecution (i.execute h)

theorem bind_ofExecution {α β : Type} {x : Execution α} {next : α → CheckedExecution β}
    {next' : α → Execution β} (hnext : ∀ a, next a = ofExecution (next' a)) :
    (ofExecution x >>= next) = ofExecution (x >>= next') := by
  obtain rfl : next = fun a => ofExecution (next' a) := funext hnext
  funext m
  show ExceptT.bindCont (fun a => ofExecution (next' a)) (outcome (x m)).1 (outcome (x m)).2 =
    .ok (outcome (EStateM.bind x next' m))
  unfold EStateM.bind
  cases x m <;> rfl

theorem bind_of_ok {α β : Type} {x : Checked α} {a : α} (hx : x = .ok a)
    (next : α → CheckedExecution β) : ((liftM x : CheckedExecution α) >>= next) = next a := by
  subst hx
  rfl

variable {h : Header}

/-- The increment of a special opcode lies far inside the range of lines. -/
theorem addLine_lineBase (remainder : UInt8) :
    addLine (Int64.ofInt h.lineBase.toInt) (Int64.ofInt remainder.toNat) =
      .ok (Int64.ofInt (h.lineBase.toInt + remainder.toNat)) := by
  have hlow := h.lineBase.le_toInt
  have hhigh := h.lineBase.toInt_lt
  have hremainder := remainder.toNat_lt
  rw [addLine, ← Int64.ofInt_add, Int64.toInt_ofInt_of_le (by omega) (by omega),
    Int64.toInt_ofInt_of_le (by omega) (by omega), Int64.toInt_ofInt_of_le (by omega) (by omega),
    if_pos rfl]

theorem executeSpecial_eq {opcode : UInt8} (hopcode : h.opcodeBase ≤ opcode) :
    executeSpecial h opcode = ofExecution ((Instruction.special opcode).execute h) := by
  refine bind_ofExecution fun _ => ?_
  by_cases hrange : h.lineRange = 0
  · unfold Header.needLineRange
    rw [if_pos hrange]
    rfl
  · refine bind_ofExecution fun _ => ?_
    have hassert : assert (h.opcodeBase ≤ opcode) = .ok () := if_pos hopcode
    have hdiv : divByte (opcode - h.opcodeBase) h.lineRange = .ok _ := if_neg hrange
    have hmod : modByte (opcode - h.opcodeBase) h.lineRange = .ok _ := if_neg hrange
    rw [if_pos hopcode, bind_of_ok hassert, bind_of_ok hdiv, bind_of_ok hmod,
      bind_of_ok (addLine_lineBase _)]
    refine bind_ofExecution fun _ => ?_
    exact bind_ofExecution fun _ => rfl

/-- Below the opcode base the assertion fails, so instructions must be told apart first. -/
theorem executeSpecial_below {opcode : UInt8} (hversion : h.version = 2)
    (hrange : h.lineRange ≠ 0) (hopcode : opcode < h.opcodeBase) (m : Machine) :
    (executeSpecial h opcode).run m = .error .assertion := by
  have hassert : assert (h.opcodeBase ≤ opcode) = .error .assertion :=
    if_neg (UInt8.not_le.2 hopcode)
  rw [executeSpecial, Header.needSpecialOpcodes, if_pos hversion, Header.needLineRange,
    if_neg hrange, hassert]
  rfl

theorem executeConstAddPc_eq :
    executeConstAddPc h = ofExecution (Instruction.constAddPc.execute h) := by
  have htop : h.opcodeBase ≤ 255 := Nat.le_of_lt_succ h.opcodeBase.toNat_lt
  have hsub : subByte 255 h.opcodeBase = .ok (255 - h.opcodeBase) := if_pos htop
  rw [executeConstAddPc, bind_of_ok hsub]
  by_cases hrange : h.lineRange = 0
  · rw [Instruction.execute, Header.needLineRange, if_pos hrange]
    rfl
  · refine bind_ofExecution fun _ => ?_
    have hdiv : divByte (255 - h.opcodeBase) h.lineRange = .ok _ := if_neg hrange
    rw [bind_of_ok hdiv]
    rfl

/-- An instruction that was read has no fault. -/
theorem execute_eq {i : Instruction} (hproper : i.Proper h) :
    execute h i = ofExecution (i.execute h) := by
  cases i with
  | special opcode => exact executeSpecial_eq (hproper opcode rfl)
  | constAddPc => exact executeConstAddPc_eq
  | _ => rfl

theorem run_execute {i : Instruction} (hproper : i.Proper h) (m : Machine) :
    (execute h i).run m = .ok (outcome (i.execute h m)) := by
  rw [execute_eq hproper]
  rfl

/-! ## Decoding -/

variable {e : Endian}

/-- Executes an opcode stream to its end. -/
def run (h : Header) (e : Endian) (code : Bytes) (m : Machine) :
    Checked (Except LineError Unit × Machine) :=
  if code.isEmpty then .ok (.ok (), m)
  else
    match _hread : (readInstruction h e code).run with
    | .error fault => .error fault
    | .ok (.error cause) => .ok (.error (.malformed cause), m)
    | .ok (.ok (i, rest)) =>
      match (execute h i).run m with
      | .error fault => .error fault
      | .ok (.error cause, m') => .ok (.error cause, m')
      | .ok (.ok (), m') => run h e rest m'
termination_by code.length
decreasing_by
  rw [readInstruction_eq] at _hread
  exact Instruction.read_shortens (Except.ok.inj _hread)

def build (h : Header) (e : Endian) (code : Bytes) : ExceptT LineError Checked Program :=
  ExceptT.mk do
    match ← run h e code (Machine.ofHeader h) with
    | (.ok (), m) => return .ok (.ofMachine h m)
    | (.error cause, _) => return .error cause

def decode (s : LineSection) (offset : UInt64) : ExceptT LineError Checked Program := do
  match s.bytesFrom? offset with
  | some bytes =>
    let (header, code) ← readHeader s.endian offset bytes
    build header s.endian code
  | none => throw (.offsetOutOfRange offset s.size)

theorem run_cons (code : Bytes) (m : Machine) (hnil : ¬ code.isEmpty) :
    run h e code m =
      match (Instruction.read h e).run code with
      | .error cause => .ok (.error (.malformed cause), m)
      | .ok (i, rest) =>
        match (execute h i).run m with
        | .error fault => .error fault
        | .ok (.error cause, m') => .ok (.error cause, m')
        | .ok (.ok (), m') => run h e rest m' := by
  have hread : (readInstruction h e code).run = .ok ((Instruction.read h e).run code) :=
    readInstruction_eq code
  rw [run, if_neg hnil]
  split
  · rename_i hfault
    rw [hread] at hfault
    contradiction
  · rename_i hcause
    rw [Except.ok.inj (hread.symm.trans hcause)]
  · rename_i hstep
    rw [Except.ok.inj (hread.symm.trans hstep)]

theorem run_eq (code : Bytes) (m : Machine) :
    run h e code m = .ok (outcome (Machine.run h e code m)) := by
  -- Every instruction that is executed has been read, and so it has no fault.
  fun_induction Machine.run h e code m with
  | case1 code m hnil =>
    rw [run, if_pos hnil]
    rfl
  | case2 code m hnil cause hread =>
    rw [run_cons code m hnil, hread]
    rfl
  | case3 code m hnil i rest hread cause m' hexec =>
    have hstep := run_execute (Instruction.read_proper hread) m
    rw [hexec] at hstep
    rw [run_cons code m hnil, hread]
    simp only [hstep, outcome]
  | case4 code m hnil i rest hread m' hexec ih =>
    have hstep := run_execute (Instruction.read_proper hread) m
    rw [hexec] at hstep
    rw [run_cons code m hnil, hread]
    simp only [hstep, outcome]
    exact ih

theorem build_eq (code : Bytes) : build h e code = total (Program.build h e code) := by
  rw [build, run_eq, Program.build]
  cases Machine.run h e code (Machine.ofHeader h) <;> rfl

theorem decode_eq (s : LineSection) (offset : UInt64) :
    decode s offset = total (s.decode offset) := by
  rw [decode, LineSection.decode]
  cases s.bytesFrom? offset with
  | none => rfl
  | some bytes => exact bind_total (readHeader_eq offset bytes) fun found => build_eq found.2

/-! ## Walking -/

def next? (p : Program) (row : Row) : Checked (Option Row) := do
  return p.rows[← addSize row.position 1]?

def rowsFrom (p : Program) (position : Nat) : Checked (List Row) :=
  if position ≤ p.rows.length then slice p.rows position p.rows.length else return []

def rowsAfter (p : Program) (row : Row) : Checked (List Row) := do
  rowsFrom p (← addSize row.position 1)

def fileOf? (p : Program) (file : UInt64) : Checked (Option FileEntry) :=
  if file = 0 then return none
  else do
    let index ← subSize file.toNat 1
    match p.header.files[index]? with
    | some entry => return some entry
    | none => return p.definedFiles[← subSize index p.header.files.length]?

def directory? (p : Program) (entry : FileEntry) : Checked (Option String) :=
  if entry.directoryIndex = 0 then return none
  else return p.header.directories[← subSize entry.directoryIndex.toNat 1]?

def filePath? (p : Program) (file : UInt64) : Checked (Option String) := do
  match ← fileOf? p file with
  | none => return none
  | some entry =>
    match ← directory? p entry with
    | some directory =>
      if entry.path.toList.head? = some '/' then return some entry.path
      else return some (directory ++ "/" ++ entry.path)
    | none => return some entry.path

variable {p : Program}

theorem addSize_position (hrows : p.rows.length < UInt64.size) {row : Row}
    (hrow : row.position < p.rows.length) : addSize row.position 1 = .ok (row.position + 1) :=
  if_pos (by omega)

theorem next?_eq (hrows : p.rows.length < UInt64.size) {row : Row}
    (hrow : row.position < p.rows.length) : next? p row = .ok (p.next? row) := by
  rw [next?, addSize_position hrows hrow]
  rfl

theorem rowsFrom_eq (p : Program) (position : Nat) :
    rowsFrom p position = .ok (p.rowsFrom position) := by
  rw [rowsFrom, Program.rowsFrom]
  by_cases hinside : position ≤ p.rows.length
  · rw [if_pos hinside, slice, if_pos ⟨hinside, Nat.le_refl _⟩, List.take_length]
  · rw [if_neg hinside, List.drop_eq_nil_of_le (by omega)]
    rfl

theorem rowsAfter_eq (hrows : p.rows.length < UInt64.size) {row : Row}
    (hrow : row.position < p.rows.length) : rowsAfter p row = .ok (p.rowsAfter row) := by
  rw [rowsAfter, addSize_position hrows hrow]
  exact rowsFrom_eq p (row.position + 1)

theorem fileOf?_eq (p : Program) (file : UInt64) : fileOf? p file = .ok (p.fileOf? file) := by
  rw [fileOf?, Program.fileOf?]
  by_cases hzero : file = 0
  · rw [if_pos hzero, if_pos hzero]
    rfl
  · have hpos : file.toNat ≠ 0 := fun h0 => hzero (UInt64.toNat_inj.1 h0)
    rw [if_neg hzero, if_neg hzero, subSize_one hpos]
    show (match p.header.files[file.toNat - 1]? with
      | some entry => return some entry
      | none => return p.definedFiles[← subSize (file.toNat - 1) p.header.files.length]? :
        Checked (Option FileEntry)) = _
    dsimp only
    cases hheader : p.header.files[file.toNat - 1]? with
    | some entry => rfl
    | none =>
      -- A number that the header has no file for is not below the number of its files.
      have hbehind := List.getElem?_eq_none_iff.1 hheader
      have hsub : subSize (file.toNat - 1) p.header.files.length = .ok _ := if_pos hbehind
      rw [hsub]
      rfl

theorem directory?_eq (p : Program) (entry : FileEntry) :
    directory? p entry = .ok (p.directory? entry) := by
  rw [directory?, Program.directory?]
  by_cases hzero : entry.directoryIndex = 0
  · rw [if_pos hzero, if_pos hzero]
    rfl
  · have hpos : entry.directoryIndex.toNat ≠ 0 := fun h0 => hzero (UInt64.toNat_inj.1 h0)
    rw [if_neg hzero, if_neg hzero, subSize_one hpos]
    rfl

theorem filePath?_eq (p : Program) (file : UInt64) : filePath? p file = .ok (p.filePath? file) := by
  rw [filePath?, fileOf?_eq, Program.filePath?]
  cases p.fileOf? file with
  | none => rfl
  | some entry =>
    show (directory? p entry >>= _) = Except.ok (some entry >>= _)
    rw [directory?_eq]
    cases hdirectory : p.directory? entry with
    | none =>
      simp only [Option.bind_eq_bind, Option.bind_some, hdirectory]
      rfl
    | some directory =>
      simp only [Option.bind_eq_bind, Option.bind_some, hdirectory]
      show (if entry.path.toList.head? = some '/' then return some entry.path
        else return some (directory ++ "/" ++ entry.path) : Checked (Option String)) = _
      split <;> rfl

/-! ## Decoding and walking -/

/-- No fault stops the decoding of a section at any offset, nor a walk through the rows and
the files of what it decodes to.  The size of a section is a word. -/
theorem never_faults (s : LineSection) (hsize : s.size < UInt64.size) (offset : UInt64) :
    decode s offset = total (s.decode offset) ∧
      ∀ p, s.decode offset = .ok p →
        (∀ row ∈ p.rows,
          next? p row = .ok (p.next? row) ∧ rowsAfter p row = .ok (p.rowsAfter row)) ∧
        (∀ position, rowsFrom p position = .ok (p.rowsFrom position)) ∧
        ∀ file, fileOf? p file = .ok (p.fileOf? file) ∧
          filePath? p file = .ok (p.filePath? file) := by
  refine ⟨decode_eq s offset, fun p hdecode => ⟨fun row hrow => ?_, rowsFrom_eq p, fun file => ?_⟩⟩
  · have hproduced := LineSection.produced_le_of_decode hdecode
    have hrows : p.rows.length < UInt64.size := by omega
    obtain ⟨h, code, -, hbuild⟩ := LineSection.exists_read_of_decode hdecode
    obtain ⟨position, hlt, rfl⟩ := List.getElem_of_mem hrow
    have hposition := Program.row_position hbuild (List.getElem?_eq_getElem hlt)
    have hrow : (p.rows[position]).position < p.rows.length := by omega
    exact ⟨next?_eq hrows hrow, rowsAfter_eq hrows hrow⟩
  · exact ⟨fileOf?_eq p file, filePath?_eq p file⟩

/-- A program with three rows, a directory, a file and a file that it defines itself. -/
def walkedSection : LineSection := ⟨[
  -- the length of the unit, its version and the length of its header
  43, 0, 0, 0, 2, 0, 23, 0, 0, 0,
  -- the fields and nine operand counts
  1, 1, 0xFB, 14, 10, 0, 1, 1, 1, 1, 0, 0, 0, 1,
  -- the directory "d" and the file "a" in no directory
  0x64, 0, 0, 0x61, 0, 0, 0, 0, 0,
  -- an advance as by opcode 255, opcode 20, a row
  8, 20, 1,
  -- the file "b" in the directory, the end of the sequence
  0, 6, 3, 0x62, 0, 1, 0, 0, 0, 1, 1], .little⟩

theorem never_faults_sample :
    walkedSection.size < UInt64.size ∧ ∃ p, decode walkedSection 0 = total (.ok p) ∧
      p.rows.map (·.line) = [6, 6, 6] ∧
      (∀ row ∈ p.rows,
        next? p row = .ok (p.next? row) ∧ rowsAfter p row = .ok (p.rowsAfter row)) ∧
      rowsFrom p 4 = .ok [] ∧ filePath? p 1 = .ok (some "a") ∧
      filePath? p 2 = .ok (some "d/b") ∧ fileOf? p 0xFFFFFFFFFFFFFFFF = .ok none := by
  have hsize : walkedSection.size < UInt64.size := by decide
  have hshown : (walkedSection.decode 0).toOption.map (fun p => (p.rows.map (·.line),
      p.rowsFrom 4, p.filePath? 1, p.filePath? 2, p.fileOf? 0xFFFFFFFFFFFFFFFF)) =
        some ([6, 6, 6], [], some "a", some "d/b", none) := by cbv
  obtain ⟨p, hp, hshown⟩ := exists_ok_of_toOption hshown
  simp only [Prod.mk.injEq] at hshown
  obtain ⟨hlines, hbehind, hfirst, hsecond, hlast⟩ := hshown
  obtain ⟨hdecode, hwalk⟩ := never_faults walkedSection hsize 0
  obtain ⟨hrows, hfrom, hfiles⟩ := hwalk p hp
  rw [hp] at hdecode
  refine ⟨hsize, p, hdecode, hlines, hrows, ?_, ?_, ?_, ?_⟩
  · rw [hfrom, hbehind]
  · rw [(hfiles 1).2, hfirst]
  · rw [(hfiles 2).2, hsecond]
  · rw [(hfiles _).1, hlast]

end Checked
end LineTable
