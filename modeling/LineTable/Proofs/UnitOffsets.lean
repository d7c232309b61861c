/-
Units by their offsets.

Nothing but its offset tells a unit from another one.  The walk over the information section
gives every unit the place where it begins, and each begins behind the one before it.  As
long as the places in a section are words, the offsets of a loaded file increase strictly and
any of them leads back to its unit, whatever reader finds the section (`units_identified`).
In the known formats no section is too large for that (`Binary.length_lt_of_contents`).
-/
import LineTable.Proofs.Run
import LineTable.Proofs.SectionSizes
import LineTable.Proofs.Units

namespace LineTable

/-! ## Increasing offsets -/

/-- The offsets of the units increase strictly. -/
def Ascending (units : List CompileUnit) : Prop :=
  units.Pairwise fun u v => u.offset < v.offset

namespace Ascending

variable {units : List CompileUnit}

theorem offset_lt (hunits : Ascending units) {i j : Nat} (hij : i < j) (hj : j < units.length) :
    units[i].offset < units[j].offset :=
  List.pairwise_iff_getElem.1 hunits i j (by omega) hj hij

/-- No two units are the same. -/
theorem beq_iff (hunits : Ascending units) {i j : Nat} (hi : i < units.length)
    (hj : j < units.length) : units[i] == units[j] ↔ i = j := by
  have hsame : units[i] == units[j] ↔ units[i].offset = units[j].offset := decide_eq_true_iff
  rw [hsame]
  constructor
  · intro heq
    rcases Nat.lt_trichotomy i j with hlt | rfl | hlt
    · exact absurd heq (UInt64.ne_of_lt (hunits.offset_lt hlt hj))
    · rfl
    · exact absurd heq.symm (UInt64.ne_of_lt (hunits.offset_lt hlt hi))
  · rintro rfl
    rfl

theorem find?_offset (hunits : Ascending units) {u : CompileUnit} (hu : u ∈ units) :
    units.find? (·.offset = u.offset) = some u := by
  induction units with
  | nil => contradiction
  | cons first rest ih =>
    obtain ⟨hfirst, hrest⟩ := List.pairwise_cons.1 hunits
    rcases List.mem_cons.1 hu with rfl | hu
    · rw [List.find?_cons_of_pos]
      exact decide_eq_true rfl
    · rw [List.find?_cons_of_neg]
      · exact ih hrest hu
      · have hne : first.offset ≠ u.offset := UInt64.ne_of_lt (hfirst u hu)
        simpa using hne

end Ascending

/-! ## Sections of the known formats -/

theorem Binary.length_lt_of_contents {memory : Nat} {file : Bytes} {b : Binary ObjectError}
    {name : String} {bytes : Bytes} (hlength : file.length < UInt64.size)
    (hfile : ofFile memory file = .ok b) (hcontents : b.contents name = .ok bytes) :
    bytes.length < UInt64.size := by
  obtain ⟨o, hobject, hfile⟩ := exists_ok_of_bind hfile
  cases hfile
  have hlimit : Packed.vectorLimit < UInt64.size := by decide
  have hbytes := Object.length_le_of_contents hobject hcontents
  omega

/-! ## The walk -/

namespace Loader

open Info

/-- The units of a walk lie from its start on, one behind the other. -/
theorem ascending_of_readUnits {s : Sections} {offset : Nat} {input : Bytes}
    {units : List CompileUnit} (hfits : offset + input.length ≤ UInt64.size)
    (hunits : readUnits s offset input = .ok units) :
    (∀ u ∈ units, offset ≤ u.offset.toNat) ∧ Ascending units := by
  fun_induction readUnits s offset input generalizing units with
  | case1 offset input hnil =>
    cases hunits
    exact ⟨nofun, List.Pairwise.nil⟩
  | case2 => contradiction
  | case3 offset input hnil h rest hheader ih =>
    obtain ⟨first, hfirst, hunits⟩ := exists_ok_of_bind hunits
    obtain ⟨others, hothers, hunits⟩ := exists_ok_of_bind hunits
    cases hunits
    have hshort := UnitHeader.read_shortens hheader
    obtain ⟨hbehind, hascending⟩ := ih (by omega) hothers
    -- The first unit begins before the end of the section, and the others behind it.
    have hplace : first.offset.toNat = offset := by
      rw [offset_of_readUnit hfirst]
      exact UInt64.toNat_ofNat_of_lt' (by omega)
    refine ⟨?_, List.pairwise_cons.2 ⟨fun u hu => ?_, hascending⟩⟩
    · intro u hu
      rcases List.mem_cons.1 hu with rfl | hu
      · exact Nat.le_of_eq hplace.symm
      · have hu := hbehind u hu
        omega
    · have hu := hbehind u hu
      rw [UInt64.lt_iff_toNat_lt, hplace]
      omega

section

variable {ε : Type} {read : Bytes → Except ε (Binary ε)} {file : Bytes} {m : AddressMap}

theorem units_of_sections {b : Binary ε} {s : Sections} (hsections : sections b = .ok s) :
    b.contents ".debug_info" = .ok s.units := by
  unfold sections at hsections
  obtain ⟨abbreviations, -, hsections⟩ := exists_ok_of_bind hsections
  obtain ⟨addresses, -, hsections⟩ := exists_ok_of_bind hsections
  obtain ⟨_, -, hsections⟩ := exists_ok_of_bind hsections
  obtain ⟨units, hunits, hsections⟩ := exists_ok_of_bind hsections
  obtain ⟨lines, -, hsections⟩ := exists_ok_of_bind hsections
  obtain ⟨lineTexts, -, hsections⟩ := exists_ok_of_bind hsections
  obtain ⟨texts, -, hsections⟩ := exists_ok_of_bind hsections
  obtain ⟨textOffsets, -, hsections⟩ := exists_ok_of_bind hsections
  obtain ⟨_, -, hsections⟩ := exists_ok_of_bind hsections
  obtain ⟨_, -, hsections⟩ := exists_ok_of_bind hsections
  obtain ⟨_, -, hsections⟩ := exists_ok_of_bind hsections
  obtain ⟨_, -, hsections⟩ := exists_ok_of_bind hsections
  obtain ⟨_, -, hsections⟩ := exists_ok_of_bind hsections
  cases hsections
  exact exists_ok_of_mapError hunits

/-! ## Loaded files -/

theorem ascending_of_loadWith
    (hsize : ∀ b units, read file = .ok b → b.contents ".debug_info" = .ok units →
      units.length < UInt64.size)
    (hload : loadWith read file = .ok m) : Ascending m.units.units := by
  unfold loadWith at hload
  obtain ⟨b, hfile, hload⟩ := exists_ok_of_bind hload
  obtain ⟨s, hsections, hload⟩ := exists_ok_of_bind hload
  obtain ⟨units, hunits, hload⟩ := exists_ok_of_bind hload
  cases hload
  have hlength := hsize b s.units (exists_ok_of_mapError hfile) (units_of_sections hsections)
  exact (ascending_of_readUnits (by omega) (exists_ok_of_mapError hunits)).2

/-- The offsets of a loaded file's units increase strictly.  So no two of its units are the
same, and each is the one that is found at its offset.  The places in the section that the
units stand in are words. -/
theorem units_identified
    (hsize : ∀ b units, read file = .ok b → b.contents ".debug_info" = .ok units →
      units.length < UInt64.size)
    (hload : loadWith read file = .ok m) :
    (m.units.units.Pairwise fun u v => u.offset < v.offset) ∧
      (∀ i j, (hi : i < m.units.units.length) → (hj : j < m.units.units.length) →
        (m.units.units[i] == m.units.units[j] ↔ i = j)) ∧
      ∀ u ∈ m.units.units, m.units.atOffset? u.offset = some u := by
  have hascending := ascending_of_loadWith hsize hload
  exact ⟨hascending, fun _ _ => hascending.beq_iff, fun _ => hascending.find?_offset⟩

end

/-- A file with a unit named `a` and behind it one named `b`. -/
def namedFile : Bytes :=
  peFile
    -- entries of one kind, with a name
    [1, 0x11, 0, 3, 8, 0, 0, 0]
    -- two units of version four with such an entry
    [10, 0, 0, 0, 4, 0, 0, 0, 0, 0, 8, 1, 0x61, 0,
      10, 0, 0, 0, 4, 0, 0, 0, 0, 0, 8, 1, 0x62, 0]
    []

theorem units_identified_sample :
    (∀ b units, Binary.ofFile memory namedFile = .ok b → b.contents ".debug_info" = .ok units →
      units.length < UInt64.size) ∧
      ∃ m, loadWith (Binary.ofFile memory) namedFile = .ok m ∧
        m.units.units.map (fun u => (u.offset, u.name?)) = [(0, some "a"), (14, some "b")] ∧
        (m.units.units.Pairwise fun u v => u.offset < v.offset) ∧
        ∀ u ∈ m.units.units, m.units.atOffset? u.offset = some u := by
  have hlength : namedFile.length < UInt64.size := by decide +kernel
  have hsize (b : Binary ObjectError) (units : Bytes)
      (hfile : Binary.ofFile memory namedFile = .ok b)
      (hunits : b.contents ".debug_info" = .ok units) : units.length < UInt64.size :=
    Binary.length_lt_of_contents hlength hfile hunits
  have hnames : (load namedFile).toOption.map (fun m =>
      m.units.units.map fun u => (u.offset, u.name?)) =
        some [(0, some "a"), (14, some "b")] := by
    decide +kernel
  obtain ⟨m, hload, hnames⟩ := exists_ok_of_toOption hnames
  obtain ⟨hascending, -, hfound⟩ := units_identified hsize hload
  exact ⟨hsize, m, hload, hnames, hascending, hfound⟩

/-- The same for files of the known formats, on every system. -/
theorem ascending_of_load {file : Bytes} {m : AddressMap} (hlength : file.length < UInt64.size)
    (hload : load file = .ok m) : Ascending m.units.units :=
  ascending_of_loadWith (fun _ _ => Binary.length_lt_of_contents hlength) hload

end Loader
end LineTable
