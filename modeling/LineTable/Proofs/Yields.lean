/-
What readers yield.

A computation that may fail is taken apart step by step, and so is a reader.  A property of
every value that a reader gives follows from its last step, whatever the bytes were.  By it
an instruction is read as a special one only if its opcode is not below the opcode base
(`Instruction.read_proper`).
-/
import LineTable.Program.Instruction
import LineTable.Proofs.Reading

namespace LineTable

/-- A computation that succeeds does so step by step. -/
theorem exists_ok_of_bind {ε α β : Type} {first : Except ε α} {next : α → Except ε β} {b : β}
    (h : (first >>= next) = .ok b) : ∃ a, first = .ok a ∧ next a = .ok b := by
  cases first with
  | error cause => contradiction
  | ok a => exact ⟨a, rfl, h⟩

theorem exists_ok_of_mapError {ε ε' α : Type} {x : Except ε α} {f : ε → ε'} {a : α}
    (h : x.mapError f = .ok a) : x = .ok a := by
  cases x with
  | error cause => contradiction
  | ok b => exact congrArg Except.ok (Except.ok.inj h)

/-- A step that two computations share, when the second maps what the first gives. -/
theorem bind_eq_map_bind {ε α β γ : Type} {f : β → γ} (first : Except ε α)
    {next : α → Except ε β} {next' : α → Except ε γ} (hnext : ∀ a, next' a = (next a).map f) :
    (first >>= next') = (first >>= next).map f := by
  cases first with
  | error cause => rfl
  | ok a => exact hnext a

namespace Reader

variable {α β : Type} {P : α → Prop}

theorem run_bind_eq (first : Reader α) (next : α → Reader β) (input : Bytes) :
    (first >>= next).run input =
      (first.run input >>= fun found => (next found.1).run found.2) := by
  rw [run_bind]
  cases first.run input <;> rfl

theorem runLine_bind (first : Reader α) (next : α → Reader β) (input : Bytes) :
    (first >>= next).runLine input =
      (first.runLine input >>= fun found => (next found.1).runLine found.2) := by
  rw [runLine, run_bind_eq, runLine]
  cases first.run input <;> rfl

theorem eq_of_run {r r' : Reader α} (h : ∀ input, r.run input = r'.run input) : r = r' := by
  obtain ⟨run, _⟩ := r
  obtain ⟨run', _⟩ := r'
  obtain rfl : run = run' := funext h
  rfl

instance : LawfulMonad Reader :=
  .mk' Reader
    (fun r => eq_of_run fun input => by
      show (r >>= fun a => Pure.pure (id a)).run input = _
      rw [run_bind]
      cases r.run input <;> rfl)
    (fun _ _ => rfl)
    (fun r next last => eq_of_run fun input => by
      rw [run_bind, run_bind, run_bind]
      cases r.run input <;> rfl)

/-- Every value that a reader gives has a property. -/
def Yields (r : Reader α) (P : α → Prop) : Prop :=
  ∀ {input rest : Bytes} {value : α}, r.run input = .ok (value, rest) → P value

theorem yields_pure {value : α} (h : P value) : (pure value : Reader α).Yields P := by
  intro input rest found hrun
  cases hrun
  exact h

theorem yields_fail (e : ReadError) : (fail e : Reader α).Yields P := by
  intro input rest found hrun
  cases hrun

theorem Yields.bind {first : Reader β} {next : β → Reader α} (h : ∀ b, (next b).Yields P) :
    (first >>= next).Yields P := by
  intro input rest value hrun
  rw [run_bind] at hrun
  cases hfirst : first.run input with
  | error e => simp [hfirst] at hrun
  | ok found =>
    simp only [hfirst] at hrun
    exact h found.1 hrun

theorem yields_map {f : β → α} (r : Reader β) (h : ∀ b, P (f b)) : (f <$> r).Yields P := by
  show (r >>= fun b => Pure.pure (f b)).Yields P
  exact Yields.bind fun b => yields_pure (h b)

theorem yields_within {region : Bytes} {r : Reader α} (h : r.Yields P) :
    (within region r).Yields P := by
  unfold within
  cases hrun : r.run region with
  | error e => exact yields_fail e
  | ok found => exact yields_pure (h hrun)

/-- Every one of several values has the property of one. -/
theorem Yields.times {item : Reader α} (h : item.Yields P) (count : Nat) :
    (times item count).Yields fun values => ∀ a ∈ values, P a := by
  induction count with
  | zero =>
    intro input rest values hrun
    cases hrun
    nofun
  | succ count ih =>
    intro input rest values hrun
    rw [Reader.times, run_bind_eq] at hrun
    obtain ⟨⟨first, middle⟩, hfirst, hrun⟩ := exists_ok_of_bind hrun
    rw [run_bind_eq] at hrun
    obtain ⟨⟨others, behind⟩, hothers, hrun⟩ := exists_ok_of_bind hrun
    cases hrun
    exact List.forall_mem_cons.2 ⟨h hfirst, ih hothers⟩

end Reader

namespace Instruction

open Reader

variable {h : Header} {e : Endian}

/-- The instruction is neither special nor the one that advances as opcode 255 does, so no
header is asked whether it can be executed. -/
def Plain : Instruction → Prop
  | special _ | constAddPc => False
  | _ => True

theorem readStandard_plain {v : UInt8} (hv : v ≠ 8) : (readStandard h e v).Yields Plain := by
  unfold readStandard
  split
  all_goals first
    | exact yields_pure trivial
    | exact yields_map _ fun _ => trivial
    | exact absurd rfl hv

theorem readOperation_plain (size : Nat) : (readOperation e size).Yields Plain := by
  refine Yields.bind fun opcode => ?_
  split
  all_goals first
    | exact yields_pure trivial
    | exact Yields.bind fun _ => yields_pure trivial

theorem readExtended_plain : (readExtended e).Yields Plain := by
  refine Yields.bind fun size => ?_
  split
  · exact yields_pure trivial
  · exact Yields.bind fun region => yields_within (readOperation_plain _)

/-- An instruction that is not plain is its opcode alone. -/
theorem opcode_of_read {code rest : Bytes} {i : Instruction}
    (hread : (read h e).run code = .ok (i, rest)) :
    i.Plain ∨ ∃ v, code = v :: rest ∧
      (i = special v ∧ h.opcodeBase ≤ v ∨ i = constAddPc ∧ v = 8 ∧ v < h.opcodeBase) := by
  cases code with
  | nil => contradiction
  | cons v tail =>
    change (if h.opcodeBase ≤ v then pure (special v)
      else if v = 0 then readExtended e else readStandard h e v).run tail = _ at hread
    split at hread
    · rename_i hspecial
      cases hread
      exact .inr ⟨v, rfl, .inl ⟨rfl, hspecial⟩⟩
    · rename_i hstandard
      split at hread
      · exact .inl (readExtended_plain hread)
      · by_cases hv : v = 8
        · subst hv
          cases hread
          exact .inr ⟨8, rfl, .inr ⟨rfl, rfl, UInt8.not_le.1 hstandard⟩⟩
        · exact .inl (readStandard_plain hv hread)

/-- The instruction is not a special one below the opcode base. -/
def Proper (h : Header) (i : Instruction) : Prop := ∀ v, i = special v → h.opcodeBase ≤ v

/-- Only opcodes from the opcode base on are read as special ones. -/
theorem read_proper : (read h e).Yields (Proper h) := by
  rintro code rest i hread v rfl
  obtain hplain | ⟨w, -, ⟨hw, hbase⟩ | ⟨hw, -⟩⟩ := opcode_of_read hread
  · cases hplain
  · cases hw
    exact hbase
  · cases hw

theorem opcodeBase_le_of_reads {bytes : Bytes} {v : UInt8}
    (hread : (read h e).Reads bytes (special v)) : h.opcodeBase ≤ v :=
  read_proper (hread []) v rfl

end Instruction

end LineTable
