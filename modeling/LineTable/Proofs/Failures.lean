/-
How decoding fails.

An instruction fails before it writes anything, and only for its version or its line
range.  A run fails for that or because an instruction cannot be read, and a header for
its version or because it cannot be read.  So an offset is called out of range only when
no bytes are left from it on (`LineSection.decode_outOfRange_iff`).
-/
import LineTable.LineSection
import LineTable.Proofs.Run

namespace LineTable

/-- What a header refuses an instruction for.  The version is looked at before the line
range. -/
inductive Header.Refuses (h : Header) : Instruction → LineError → Prop where
  | version (v : UInt8) (hversion : h.version ≠ 2) :
    h.Refuses (.special v) (.unsupportedVersion h.version)
  | special (v : UInt8) (hversion : h.version = 2) (hrange : h.lineRange = 0) :
    h.Refuses (.special v) (.zeroLineRange h.offset)
  | constAddPc (hrange : h.lineRange = 0) : h.Refuses .constAddPc (.zeroLineRange h.offset)

/-- An instruction fails only where it is refused, and leaves the machine as it was. -/
theorem Instruction.execute_error_iff {h : Header} {i : Instruction} {m m' : Machine}
    {cause : LineError} :
    i.execute h m = .error cause m' ↔ h.Refuses i cause ∧ m' = m := by
  constructor
  · intro hexec
    cases i with
    | special v =>
      by_cases hversion : h.version = 2
      · rw [execute, Execution.bind_of_ok (Header.needSpecialOpcodes_eq_ok hversion m)] at hexec
        by_cases hrange : h.lineRange = 0
        · rw [Header.needLineRange, if_pos hrange] at hexec
          cases hexec
          exact ⟨.special v hversion hrange, rfl⟩
        · rw [Header.needLineRange, if_neg hrange] at hexec
          cases hexec
      · rw [execute, Header.needSpecialOpcodes, if_neg hversion] at hexec
        cases hexec
        exact ⟨.version v hversion, rfl⟩
    | constAddPc =>
      by_cases hrange : h.lineRange = 0
      · rw [execute, Header.needLineRange, if_pos hrange] at hexec
        cases hexec
        exact ⟨.constAddPc hrange, rfl⟩
      · rw [execute, Header.needLineRange, if_neg hrange] at hexec
        cases hexec
    | _ => cases hexec
  · rintro ⟨hrefused, rfl⟩
    cases hrefused with
    | version v hversion =>
      rw [execute, Header.needSpecialOpcodes, if_neg hversion]
      rfl
    | special v hversion hrange =>
      rw [execute, Execution.bind_of_ok (Header.needSpecialOpcodes_eq_ok hversion m'),
        Header.needLineRange, if_pos hrange]
      rfl
    | constAddPc hrange =>
      rw [execute, Header.needLineRange, if_pos hrange]
      rfl

theorem Header.Refuses.cause {h : Header} {i : Instruction} {cause : LineError}
    (hrefused : h.Refuses i cause) :
    cause = .unsupportedVersion h.version ∨ cause = .zeroLineRange h.offset := by
  cases hrefused with
  | version => exact .inl rfl
  | special => exact .inr rfl
  | constAddPc => exact .inr rfl

/-- A run fails for its header or because an instruction cannot be read. -/
theorem Machine.cause_of_run {h : Header} {e : Endian} {code : Bytes} {m m' : Machine}
    {cause : LineError} (hrun : run h e code m = .error cause m') :
    (cause = .unsupportedVersion h.version ∨ cause = .zeroLineRange h.offset) ∨
      ∃ c, cause = .malformed c := by
  fun_induction run h e code m with
  | case1 => contradiction
  | case2 _ _ _ c =>
    cases hrun
    exact .inr ⟨c, rfl⟩
  | case3 _ _ _ _ _ _ _ _ hexec =>
    cases hrun
    exact .inl (Instruction.execute_error_iff.1 hexec).1.cause
  | case4 _ _ _ _ _ _ _ _ ih => exact ih hrun

theorem Reader.cause_of_runLine {α : Type} {r : Reader α} {input : Bytes} {cause : LineError}
    (hread : r.runLine input = .error cause) : ∃ c, cause = .malformed c := by
  unfold runLine at hread
  cases hrun : r.run input with
  | ok found =>
    rw [hrun] at hread
    contradiction
  | error c =>
    rw [hrun] at hread
    cases hread
    exact ⟨c, rfl⟩

/-- A step of a computation that fails: it fails itself, or what comes after it does. -/
theorem eq_error_of_bind {ε α β : Type} {first : Except ε α} {next : α → Except ε β}
    {cause : ε} (hfail : (first >>= next) = .error cause) :
    first = .error cause ∨ ∃ a, first = .ok a ∧ next a = .error cause := by
  cases first with
  | error e =>
    obtain rfl := Except.error.inj hfail
    exact .inl rfl
  | ok a => exact .inr ⟨a, rfl, hfail⟩

/-- A computation that fails for something else than a reader gets past its reading steps. -/
theorem Reader.exists_ok_of_bind_error {α β : Type} {r : Reader α} {input : Bytes}
    {next : α × Bytes → Except LineError β} {cause : LineError}
    (hcause : ¬ ∃ c, cause = .malformed c) (hfail : (r.runLine input >>= next) = .error cause) :
    ∃ found, r.runLine input = .ok found ∧ next found = .error cause :=
  (eq_error_of_bind hfail).resolve_left fun hread => hcause (cause_of_runLine hread)

/-- A header fails for its version or because it cannot be read. -/
theorem Header.cause_of_read {e : Endian} {offset : UInt64} {input : Bytes} {cause : LineError}
    (hread : Header.read e offset input = .error cause) :
    (∃ version, cause = .unsupportedVersion version) ∨ ∃ c, cause = .malformed c := by
  by_cases hcause : ∃ c, cause = .malformed c
  · exact .inr hcause
  unfold Header.read at hread
  obtain ⟨⟨⟨format, unit⟩, _⟩, -, hread⟩ := Reader.exists_ok_of_bind_error hcause hread
  obtain ⟨⟨version, unit⟩, -, hread⟩ := Reader.exists_ok_of_bind_error hcause hread
  dsimp only at hread
  split at hread
  · cases hread
    exact .inl ⟨version, rfl⟩
  obtain ⟨⟨length, unit⟩, -, hread⟩ := Reader.exists_ok_of_bind_error hcause hread
  obtain ⟨⟨fields, code⟩, -, hread⟩ := Reader.exists_ok_of_bind_error hcause hread
  obtain ⟨⟨header, _⟩, -, hread⟩ := Reader.exists_ok_of_bind_error hcause hread
  contradiction

namespace LineSection

/-- An offset is out of range exactly when it does not lie in the section. -/
theorem decode_outOfRange_iff {s : LineSection} {offset : UInt64} :
    (∃ place size, s.decode offset = .error (.offsetOutOfRange place size)) ↔
      ¬ s.contains offset := by
  rw [decode, bytesFrom?_eq]
  constructor
  · rintro ⟨place, size, hdecode⟩ hin
    rw [if_pos hin] at hdecode
    obtain hfail | ⟨⟨header, code⟩, -, hbuild⟩ := eq_error_of_bind hdecode
    · obtain ⟨version, hcause⟩ | ⟨c, hcause⟩ := Header.cause_of_read hfail
      · contradiction
      · contradiction
    · dsimp only [Program.build] at hbuild
      cases hrun : Machine.run header s.endian code (Machine.ofHeader header) with
      | ok _ m =>
        rw [hrun] at hbuild
        contradiction
      | error cause m =>
        rw [hrun] at hbuild
        obtain rfl := Except.error.inj hbuild
        obtain (hcause | hcause) | ⟨c, hcause⟩ := Machine.cause_of_run hrun
        · contradiction
        · contradiction
        · contradiction
  · intro hin
    rw [if_neg hin]
    exact ⟨offset, s.size, rfl⟩

end LineSection
end LineTable
