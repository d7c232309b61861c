/-
Reading values off the front of a byte string.

A `Reader` takes some bytes and hands back the rest.  It carries the proof that
its result is decided by the bytes it took: whatever follows them is returned
untouched, and replacing it changes nothing.  The readers compose in `do`
notation, so every reader of the library has this property by construction, and
with it the bound `Reader.length_le` that the loops over records terminate by.
-/
import LineTable.Bytes

namespace LineTable

inductive ReadError where
  | endOfInput
  | unsignedLeb128
  | signedLeb128
  | reservedLength
  | addressSize
  | unknownVersion
  | unitType
  | unknownAbbreviation
  | duplicateAbbreviation
  | abbreviationTagZero
  | attributeFormZero
  | expectedZero
  | hasChildren
  | unknownForm
  | implicitConstant
  | missingRoot
  | segmentSize
  | instructionLengthZero
  | operationsZero
  | lineRangeZero
  | opcodeBaseZero
  | missingPath
  | expectedString
deriving DecidableEq, Repr

namespace ReadError

def message : ReadError → String
  | endOfInput => "Hit the end of input before it was expected"
  | unsignedLeb128 => "An error parsing an unsigned LEB128 value"
  | signedLeb128 => "An error parsing a signed LEB128 value"
  | reservedLength => "Found an unknown reserved length value"
  | addressSize => "The specified address size is not supported"
  | unknownVersion => "Found an unknown DWARF version"
  | unitType => "The `DW_UT_*` value for this unit is not supported yet"
  | unknownAbbreviation => "Found a record with an unknown abbreviation code"
  | duplicateAbbreviation => "Found an abbreviation code that has already been used"
  | abbreviationTagZero =>
    "An abbreviation declared that its tag is zero,\n                 but zero is reserved for null records"
  | attributeFormZero =>
    "An attribute specification declared that its form is zero,\n                 but zero is reserved for null records"
  | expectedZero => "Expected a zero, found something else"
  | hasChildren =>
    "The abbreviation's has-children byte was not one of\n                 `DW_CHILDREN_\x7byes,no\x7d`"
  | unknownForm => "Found an unknown `DW_FORM_*` type"
  | implicitConstant => "DW_FORM_implicit_const used in an invalid context."
  | missingRoot => "A compilation unit or type unit is missing its top level DIE."
  | segmentSize => "Nonzero segment size not supported yet"
  | instructionLengthZero => "The minimum instruction length must not be zero."
  | operationsZero => "The maximum operations per instruction must not be zero."
  | lineRangeZero => "The line range must not be zero."
  | opcodeBaseZero => "The opcode base must not be zero."
  | missingPath => "Missing DW_LNCT_path in file entry format."
  | expectedString => "Expected an attribute value to be a string form."

end ReadError

/-- Takes bytes off the front of its input.

`run_append` is the reader's contract: a successful run splits the input into the
bytes taken and the rest, and takes the same bytes whatever follows them. -/
structure Reader (α : Type) where
  run : Bytes → Except ReadError (α × Bytes)
  run_append : ∀ {input : Bytes} {value : α} {rest : Bytes}, run input = .ok (value, rest) →
    ∃ taken, input = taken ++ rest ∧ ∀ more, run (taken ++ more) = .ok (value, more)

namespace Reader

variable {α β : Type}

theorem length_le (r : Reader α) {input rest : Bytes} {value : α}
    (h : r.run input = .ok (value, rest)) : rest.length ≤ input.length := by
  obtain ⟨taken, rfl, _⟩ := r.run_append h
  simp

protected def pure (value : α) : Reader α where
  run input := .ok (value, input)
  run_append h := by
    simp only [Except.ok.injEq, Prod.mk.injEq] at h
    obtain ⟨rfl, rfl⟩ := h
    exact ⟨[], rfl, fun _ => rfl⟩

protected def bind (first : Reader α) (next : α → Reader β) : Reader β where
  run input :=
    match first.run input with
    | .error e => .error e
    | .ok (value, rest) => (next value).run rest
  run_append {input value rest} h := by
    cases hf : first.run input with
    | error e => simp [hf] at h
    | ok middle =>
      simp only [hf] at h
      obtain ⟨taken, rfl, hfirst⟩ := first.run_append hf
      obtain ⟨taken', ht, hnext⟩ := (next middle.1).run_append h
      refine ⟨taken ++ taken', by rw [ht, List.append_assoc], fun more => ?_⟩
      rw [List.append_assoc, hfirst]
      exact hnext more

instance : Monad Reader where
  pure := Reader.pure
  bind := Reader.bind

def fail (e : ReadError) : Reader α where
  run _ := .error e
  run_append h := by simp at h

@[simp] theorem run_pure (value : α) (input : Bytes) :
    (pure value : Reader α).run input = .ok (value, input) := rfl

@[simp] theorem run_fail (e : ReadError) (input : Bytes) :
    (fail e : Reader α).run input = .error e := rfl

theorem run_bind (first : Reader α) (next : α → Reader β) (input : Bytes) :
    (first >>= next).run input =
      match first.run input with
      | .error e => .error e
      | .ok (value, rest) => (next value).run rest := rfl

def byte : Reader UInt8 where
  run
    | [] => .error .endOfInput
    | b :: rest => .ok (b, rest)
  run_append {input value rest} h := by
    cases input with
    | nil => simp at h
    | cons b tail =>
      simp only [Except.ok.injEq, Prod.mk.injEq] at h
      obtain ⟨rfl, rfl⟩ := h
      exact ⟨[b], rfl, fun _ => rfl⟩

/-- Reads a value from a region of its own and ignores what the value leaves of it. -/
def within (region : Bytes) (r : Reader α) : Reader α :=
  match r.run region with
  | .error e => fail e
  | .ok (value, _) => pure value

def take (count : Nat) : Reader Bytes where
  run input :=
    let run := input.take count
    if run.length = count then .ok (run, input.drop count) else .error .endOfInput
  run_append {input value rest} h := by
    simp only at h
    split at h
    · rename_i hlen
      simp only [Except.ok.injEq, Prod.mk.injEq] at h
      obtain ⟨rfl, rfl⟩ := h
      refine ⟨input.take count, (List.take_append_drop count input).symm, fun more => ?_⟩
      have hmore : (input.take count ++ more).take count = input.take count :=
        List.take_left' hlen
      have hrest : (input.take count ++ more).drop count = more :=
        List.drop_left' hlen
      simp [hmore, hrest, hlen]
    · simp at h

theorem run_take_append (taken more : Bytes) :
    (take taken.length).run (taken ++ more) = .ok (taken, more) := by
  simp [take]

def number (e : Endian) (width : Nat) : Reader Nat := do
  return e.decode (← take width)

def u16 (e : Endian) : Reader UInt16 := do
  return UInt16.ofNat (← number e 2)

/-- A target address.  Addresses of one, two, four and eight bytes exist. -/
def address (e : Endian) (size : Nat) : Reader UInt64 :=
  if size = 1 ∨ size = 2 ∨ size = 4 ∨ size = 8 then do
    return UInt64.ofNat (← number e size)
  else fail .addressSize

/-- Splits a string off at its zero byte, which is taken too. -/
def splitAtZero : Bytes → Except ReadError (Bytes × Bytes)
  | [] => .error .endOfInput
  | b :: rest =>
    if b = 0 then .ok ([], rest)
    else (splitAtZero rest).map fun (text, more) => (b :: text, more)

theorem splitAtZero_eq_ok {input text rest : Bytes} (h : splitAtZero input = .ok (text, rest)) :
    input = text ++ 0 :: rest ∧ 0 ∉ text := by
  induction input generalizing text with
  | nil => simp [splitAtZero] at h
  | cons b tail ih =>
    by_cases hb : b = 0
    · simp only [splitAtZero, hb, if_true, Except.ok.injEq, Prod.mk.injEq] at h
      obtain ⟨rfl, rfl⟩ := h
      simp [hb]
    · simp only [splitAtZero, hb, if_false] at h
      cases ht : splitAtZero tail with
      | error e => simp [ht, Except.map] at h
      | ok found =>
        simp only [ht, Except.map, Except.ok.injEq, Prod.mk.injEq] at h
        obtain ⟨rfl, rfl⟩ := h
        obtain ⟨hinput, hzero⟩ := ih ht
        refine ⟨by rw [hinput]; rfl, ?_⟩
        simp only [List.mem_cons, not_or]
        exact ⟨fun h0 => hb h0.symm, hzero⟩

theorem splitAtZero_append {text : Bytes} (h : 0 ∉ text) (rest : Bytes) :
    splitAtZero (text ++ 0 :: rest) = .ok (text, rest) := by
  induction text with
  | nil => simp [splitAtZero]
  | cons b tail ih =>
    simp only [List.mem_cons, not_or] at h
    have hb : b ≠ 0 := fun h0 => h.1 h0.symm
    simp [splitAtZero, hb, ih h.2, Except.map]

def zeroTerminated : Reader Bytes where
  run := splitAtZero
  run_append {input value rest} h := by
    obtain ⟨rfl, hzero⟩ := splitAtZero_eq_ok h
    refine ⟨value ++ [0], by simp, fun more => ?_⟩
    rw [List.append_assoc]
    exact splitAtZero_append hzero more

def times (item : Reader α) : Nat → Reader (List α)
  | 0 => pure []
  | count + 1 => do
    let first ← item
    let others ← times item count
    return first :: others

/-- Whether a reader takes at least one byte. -/
def Shrinks (r : Reader α) : Prop :=
  ∀ {input : Bytes} {value : α} {rest : Bytes},
    r.run input = .ok (value, rest) → rest.length < input.length

theorem byte_shrinks : byte.Shrinks := fun {input _ _} h => by
  cases input with
  | nil => simp [byte] at h
  | cons b tail =>
    simp only [byte, Except.ok.injEq, Prod.mk.injEq] at h
    simp [h.2]

theorem take_shrinks {count : Nat} (hc : 0 < count) : (take count).Shrinks :=
  fun {input _ _} h => by
    simp only [take] at h
    split at h
    · rename_i hlen
      simp only [Except.ok.injEq, Prod.mk.injEq] at h
      rw [← h.2]
      simp only [List.length_take, List.length_drop] at hlen ⊢
      omega
    · simp at h

theorem zeroTerminated_shrinks : zeroTerminated.Shrinks := fun h => by
  obtain ⟨rfl, _⟩ := splitAtZero_eq_ok h
  simp only [List.length_append, List.length_cons]
  omega

/-- A sequence takes a byte if its first part does. -/
theorem Shrinks.bind {first : Reader α} (h : first.Shrinks) (next : α → Reader β) :
    (first >>= next).Shrinks := fun {input _ _} hrun => by
  rw [run_bind] at hrun
  cases hf : first.run input with
  | error e => simp [hf] at hrun
  | ok middle =>
    simp only [hf] at hrun
    exact Nat.lt_of_le_of_lt ((next middle.1).length_le hrun) (h hf)

/-- Repeats a step, from one state to the next, until it gives a value. -/
def repeatFrom {σ : Type} (step : σ → Reader (σ ⊕ α)) (shrinks : ∀ s, (step s).Shrinks)
    (s : σ) (input : Bytes) : Except ReadError (α × Bytes) :=
  match _hstep : (step s).run input with
  | .error e => .error e
  | .ok (.inr value, rest) => .ok (value, rest)
  | .ok (.inl next, rest) => repeatFrom step shrinks next rest
termination_by input.length
decreasing_by exact shrinks s _hstep

theorem repeatFrom_eq {σ : Type} (step : σ → Reader (σ ⊕ α)) (shrinks : ∀ s, (step s).Shrinks)
    (s : σ) (input : Bytes) :
    repeatFrom step shrinks s input =
      match (step s).run input with
      | .error e => .error e
      | .ok (.inr value, rest) => .ok (value, rest)
      | .ok (.inl next, rest) => repeatFrom step shrinks next rest := by
  rw [repeatFrom]
  split <;> rename_i hstep <;> rw [hstep]

/-- Repeats a step, each time on a byte or more, until it gives a value. -/
def iterate {σ : Type} (step : σ → Reader (σ ⊕ α)) (shrinks : ∀ s, (step s).Shrinks) (s : σ) :
    Reader α where
  run := repeatFrom step shrinks s
  run_append {input value rest} h := by
    induction hn : input.length using Nat.strongRecOn generalizing s input with
    | _ n ih =>
      rw [repeatFrom_eq] at h
      split at h
      · simp at h
      · rename_i found rest' hstep
        simp only [Except.ok.injEq, Prod.mk.injEq] at h
        obtain ⟨rfl, rfl⟩ := h
        obtain ⟨taken, rfl, hmore⟩ := (step s).run_append hstep
        refine ⟨taken, rfl, fun more => ?_⟩
        rw [repeatFrom_eq, hmore]
      · rename_i next rest' hstep
        have hlt := shrinks s hstep
        obtain ⟨taken', rfl, hmore'⟩ := (step s).run_append hstep
        obtain ⟨taken, rfl, hmore⟩ := ih _ (hn ▸ hlt) next h rfl
        refine ⟨taken' ++ taken, by rw [List.append_assoc], fun more => ?_⟩
        rw [List.append_assoc, repeatFrom_eq, hmore']
        exact hmore more

/-- The next entry of a table, behind the entries already read. -/
def tableStep (entry : Bytes → Reader α) (entries : List α) : Reader (List α ⊕ List α) := do
  let name ← zeroTerminated
  if name.isEmpty then return .inr entries.reverse
  else return .inl ((← entry name) :: entries)

/-- A table of entries: each begins with a name, and an empty name ends the table. -/
def table (entry : Bytes → Reader α) : Reader (List α) :=
  iterate (tableStep entry) (fun _ => zeroTerminated_shrinks.bind _) []

end Reader

end LineTable
