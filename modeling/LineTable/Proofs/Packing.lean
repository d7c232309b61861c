/-
Two advances in one byte.

A special opcode stands for an advance of the address and one of the line.  `Header.pack` is
the number that an assembler writes for both, and what it writes is an opcode where it fits a
byte.  Taking the number apart is a division by the line range, so each opcode from the opcode
base on packs one pair of advances and no other (`Header.pack_eq_iff`).  The theorem this
file exists for is `special_packs`: a special opcode makes just the advances that it packs,
and records a row.
-/
import LineTable.Proofs.Advances
import Mathlib

namespace LineTable
namespace Header

variable {h : Header}

/-- The number for advances of the address by `operations` and of the line by `lines`. -/
def pack (h : Header) (operations : Nat) (lines : Int) : Int :=
  h.opcodeBase.toNat + h.lineRange.toNat * operations + (lines - h.lineBase.toInt)

/-- The line can be advanced by so many lines in a special opcode. -/
def Reaches (h : Header) (lines : Int) : Prop :=
  h.lineBase.toInt ≤ lines ∧ lines < h.lineBase.toInt + h.lineRange.toNat

theorem opcodeBase_le_of_pack {v : UInt8} {operations : Nat} {lines : Int}
    (hlines : h.Reaches lines) (hpack : h.pack operations lines = v.toNat) : h.opcodeBase ≤ v := by
  have hle := hlines.1
  have hpos : 0 ≤ (h.lineRange.toNat : Int) * operations := by positivity
  show h.opcodeBase.toNat ≤ v.toNat
  rw [pack] at hpack
  omega

/-- Unpacking is division with remainder. -/
theorem pack_eq_iff (hrange : h.lineRange ≠ 0) {v : UInt8} (hv : h.opcodeBase ≤ v)
    {operations : Nat} {lines : Int} :
    h.Reaches lines ∧ h.pack operations lines = v.toNat ↔
      (Instruction.special v).operations h = operations ∧
        (Instruction.special v).lines h = lines := by
  have hle : h.opcodeBase.toNat ≤ v.toNat := hv
  have hpos : 0 < h.lineRange.toNat := by
    apply Nat.pos_of_ne_zero
    intro hzero
    exact hrange (UInt8.toNat_inj.1 hzero)
  show _ ↔ (v.toNat - h.opcodeBase.toNat) / h.lineRange.toNat = operations ∧
    h.lineBase.toInt + ((v.toNat - h.opcodeBase.toNat) % h.lineRange.toNat : Nat) = lines
  rw [Reaches, pack]
  constructor
  · intro ⟨⟨hfirst, hlast⟩, hpack⟩
    have hsum : (lines - h.lineBase.toInt).toNat + h.lineRange.toNat * operations =
        v.toNat - h.opcodeBase.toNat := by
      zify
      omega
    obtain ⟨hdiv, hmod⟩ := (Nat.div_mod_unique hpos).2 ⟨hsum, by omega⟩
    refine ⟨hdiv, ?_⟩
    rw [hmod]
    omega
  · intro ⟨hdiv, hmod⟩
    have hlt := Nat.mod_lt (v.toNat - h.opcodeBase.toNat) hpos
    have hsum := Nat.mod_add_div (v.toNat - h.opcodeBase.toNat) h.lineRange.toNat
    rw [hdiv] at hsum
    generalize (v.toNat - h.opcodeBase.toNat) % h.lineRange.toNat = left at hmod hlt hsum
    zify [hle] at hsum
    omega

/-- What is packed is what the opcode advances by. -/
theorem place_of_pack (hrange : h.lineRange ≠ 0) {v : UInt8} {operations : Nat} {lines : Int}
    (hlines : h.Reaches lines) (hpack : h.pack operations lines = v.toNat) (m : Machine) :
    ((Instruction.special v).outcome h m).state.address.toNat =
        (m.state.address.toNat + operations * h.minimumInstructionLength.toNat) % 2 ^ 64 ∧
      ((Instruction.special v).outcome h m).state.line.toInt =
        (m.state.line.toInt + lines).bmod (2 ^ 64) := by
  have hv := opcodeBase_le_of_pack hlines hpack
  have hproper : (Instruction.special v).Proper h := by
    intro w hw
    cases hw
    exact hv
  obtain ⟨hoperations, hadvance⟩ := (pack_eq_iff hrange hv).1 ⟨hlines, hpack⟩
  constructor
  · rw [Instruction.address_outcome hproper trivial, hoperations, UInt64.toNat_add,
      UInt64.toNat_ofNat', Nat.add_mod_mod, Nat.mul_comm operations]
    rfl
  · rw [Instruction.line_outcome hproper trivial, hadvance, Int64.toInt_add, Int64.toInt_ofInt]
    exact Int.add_bmod_bmod

end Header

/-- A special opcode advances the address and the line as it packs them, and records a row in
between.  Each opcode from the opcode base on packs one pair of advances. -/
theorem special_packs {h : Header} (hversion : h.version = 2) (hrange : h.lineRange ≠ 0) :
    (∀ (v : UInt8) (operations : Nat) (lines : Int), h.Reaches lines →
      h.pack operations lines = v.toNat → ∀ m : Machine,
        ∃ last row, (Instruction.special v).execute h m = .ok () last ∧
          row.address.toNat = (m.state.address.toNat +
            operations * h.minimumInstructionLength.toNat) % 2 ^ 64 ∧
          row.line.toInt = (m.state.line.toInt + lines).bmod (2 ^ 64) ∧
          row = { m.state.toRegisters with
            address := row.address, line := row.line, position := m.rows.size } ∧
          last.rows = m.rows.push row ∧ last.files = m.files ∧
          last.state = { row.toRegisters with
            basicBlock := false, prologueEnd := false, epilogueBegin := false, discriminator := 0
            defaultIsStatement := m.state.defaultIsStatement }) ∧
      ∀ v : UInt8, h.opcodeBase ≤ v →
        ∃! advances : Nat × Int,
          h.Reaches advances.2 ∧ h.pack advances.1 advances.2 = v.toNat := by
  constructor
  · intro v operations lines hlines hpack m
    obtain ⟨haddress, hline⟩ := Header.place_of_pack hrange hlines hpack m
    let row : Row := { ((Instruction.special v).update h m.state).toRegisters with
      position := m.rows.size }
    refine ⟨(Instruction.special v).outcome h m, row, ?_, haddress, hline, rfl, rfl, ?_, rfl⟩
    · exact Instruction.execute_of_accepts (Instruction.accepts_special_iff.2 ⟨hversion, hrange⟩) m
    · exact Array.append_empty
  · intro v hv
    refine ⟨((Instruction.special v).operations h, (Instruction.special v).lines h), ?_, ?_⟩
    · exact (Header.pack_eq_iff hrange hv).2 ⟨rfl, rfl⟩
    · intro ⟨operations, lines⟩ hpacks
      obtain ⟨hoperations, hlines⟩ := (Header.pack_eq_iff hrange hv).1 hpacks
      rw [hoperations, hlines]

/-- A header whose special opcodes reach 128 lines back, and 71 on. -/
def wideHeader : Header := .ofFields 2 10 (-128) 200 4

/-- Between rows, on line five. -/
def markedMachine : Machine :=
  .ofState { State.start true with
    address := 0xFFFFFFFFFFFFFFFE, line := 5, basicBlock := true, discriminator := 3 }

theorem special_packs_sample :
    (wideHeader.version = 2 ∧ wideHeader.lineRange ≠ 0 ∧ wideHeader.Reaches (-83) ∧
      wideHeader.pack 1 (-83) = (255 : UInt8).toNat) ∧
      (∃ last row, (Instruction.special 255).execute wideHeader markedMachine = .ok () last ∧
        row.address.toNat = 2 ∧ row.line.toInt = -78 ∧ row.basicBlock = true ∧
        row.discriminator = 3 ∧ last.rows = #[row] ∧ last.state.basicBlock = false ∧
        last.state.discriminator = 0) ∧
      ∀ operations lines, wideHeader.Reaches lines →
        wideHeader.pack operations lines = (255 : UInt8).toNat → operations = 1 ∧ lines = -83 := by
  have hrange : wideHeader.lineRange ≠ 0 := by decide
  have hlines : wideHeader.Reaches (-83) := by
    show _ ∧ _
    decide
  have hpack : wideHeader.pack 1 (-83) = (255 : UInt8).toNat := by decide
  obtain ⟨hexecutes, hunique⟩ := special_packs (h := wideHeader) rfl hrange
  obtain ⟨last, row, hexec, haddress, hline, hrow, hrows, -, hstate⟩ :=
    hexecutes 255 1 (-83) hlines hpack markedMachine
  refine ⟨⟨rfl, hrange, hlines, hpack⟩, ⟨last, row, hexec, ?_, ?_, ?_, ?_, hrows, ?_, ?_⟩, ?_⟩
  · rw [haddress]
    decide
  · rw [hline]
    decide
  · rw [hrow]
    rfl
  · rw [hrow]
    rfl
  · rw [hstate]
  · rw [hstate]
  · intro operations lines hreaches hpacks
    have hpair : (operations, lines) = ((1, -83) : Nat × Int) :=
      (hunique 255 (by decide)).unique ⟨hreaches, hpacks⟩ ⟨hlines, hpack⟩
    exact Prod.mk.inj hpair

end LineTable
