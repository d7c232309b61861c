/-
How large the contents of a section can be.

Contents are taken from the file as they stand, or decompressed to a size that they state.
Those of the first kind are no longer than the file, in whatever format it is, and those of
the second fit a vector.  The theorem this file exists for is `Object.length_le_of_contents`.
-/
import LineTable.Object
import LineTable.Proofs.Yields

namespace LineTable

theorem Bytes.length_le_of_slice? {bytes run : Bytes} {start size : Nat}
    (hslice : bytes.slice? start size = some run) : run.length ≤ bytes.length := by
  unfold slice? at hslice
  split at hslice
  · dsimp only at hslice
    split at hslice
    · cases hslice
      rw [List.length_take, List.length_drop]
      omega
    · contradiction
  · contradiction

namespace Packed

/-- Contents, if there are any, are no longer than the file before they are decompressed. -/
def Within (file : Bytes) (x : Except ObjectError Packed) : Prop :=
  ∀ p, x = .ok p → p.data.length ≤ file.length

variable {file : Bytes}

theorem within_error (cause : ObjectError) : Within file (.error cause) := nofun

theorem within_empty : Within file (.ok (plain [])) := by
  intro p hp
  cases hp
  exact Nat.zero_le _

theorem within_atPlace (coding : Coding) (declared start size : Nat) :
    Within file (atPlace file coding declared start size) := by
  unfold atPlace
  split
  · rename_i data hslice
    intro p hp
    cases hp
    exact Bytes.length_le_of_slice? hslice
  · exact within_error _

theorem within_plainAt (fault : ObjectError) (start size : Nat) :
    Within file (plainAt file fault start size) := by
  unfold plainAt
  split
  · rename_i data hslice
    intro p hp
    cases hp
    exact Bytes.length_le_of_slice? hslice
  · exact within_error _

theorem within_headed (e : Endian) (wide : Bool) (start size : Nat) :
    Within file (headed file e wide start size) := by
  unfold headed
  generalize (if wide then 24 else 12) = length
  dsimp only
  split
  · exact within_error _
  · split
    · exact within_error _
    · intro p hp
      obtain ⟨coding, -, hp⟩ := exists_ok_of_bind hp
      exact within_atPlace _ _ _ _ p hp

theorem within_marked (start size : Nat) : Within file (marked file start size) := by
  unfold marked
  split
  · exact within_error _
  · split
    · exact within_error _
    · split
      · exact within_error _
      · split
        · exact within_error _
        · exact within_atPlace _ _ _ _

theorem length_of_checkSize {size : Nat} {output bytes : Bytes}
    (hcheck : checkSize size output = .ok bytes) : bytes.length = size := by
  unfold checkSize at hcheck
  split at hcheck
  · rename_i hsize
    cases hcheck
    exact hsize
  · contradiction

theorem length_le_of_unpack {memory : Nat} {p : Packed} {bytes : Bytes}
    (hunpack : p.unpack memory = .ok bytes) :
    bytes.length ≤ max p.data.length vectorLimit := by
  unfold unpack at hunpack
  split at hunpack
  · cases hunpack
    exact Nat.le_max_left _ _
  · split at hunpack
    · contradiction
    · split at hunpack
      · have hsize := length_of_checkSize hunpack
        omega
      · contradiction
  · split at hunpack
    · contradiction
    · split at hunpack
      · have hsize := length_of_checkSize hunpack
        omega
      · contradiction

end Packed

/-- The contents of the section come out of the file. -/
def Section.Within (file : Bytes) (s : Section) : Prop := Packed.Within file s.contents

/-! ## Formats -/

section

variable {file : Bytes}

theorem Elf.within_contentsOf (l : Layout) (name : Option Bytes) (s : SectionEntry) :
    Packed.Within file (contentsOf l file name s) := by
  unfold contentsOf
  split
  · split
    · exact Packed.within_error _
    · exact Packed.within_headed _ _ _ _
  · split
    · split
      · exact Packed.within_error _
      · exact Packed.within_marked _ _
    · split
      · exact Packed.within_empty
      · exact Packed.within_atPlace _ _ _ _

theorem Elf.within_sections {wide : Bool} {e : Endian} {found : List Section}
    (hsections : sections wide file = .ok (e, found)) : ∀ s ∈ found, s.Within file := by
  unfold sections at hsections
  obtain ⟨l, -, hsections⟩ := exists_ok_of_bind hsections
  split at hsections
  · contradiction
  · obtain ⟨_, -, hsections⟩ := exists_ok_of_bind hsections
    obtain ⟨entries, -, hsections⟩ := exists_ok_of_bind hsections
    obtain ⟨names, -, hsections⟩ := exists_ok_of_bind hsections
    obtain ⟨symbols, -, hsections⟩ := exists_ok_of_bind hsections
    obtain ⟨_, -, hsections⟩ := exists_ok_of_bind hsections
    obtain ⟨_, -, hsections⟩ := exists_ok_of_bind hsections
    cases hsections
    intro s hs
    obtain ⟨entry, -, rfl⟩ := List.mem_map.1 hs
    exact within_contentsOf _ _ _

theorem Coff.within_contentsOf (s : SectionEntry) : Packed.Within file (contentsOf file s) := by
  unfold contentsOf
  split
  · exact Packed.within_empty
  · exact Packed.within_plainAt _ _ _

theorem Coff.within_sections {long : Bool} {found : List Section}
    (hsections : sections long file = .ok found) : ∀ s ∈ found, s.Within file := by
  unfold sections at hsections
  obtain ⟨h, -, hsections⟩ := exists_ok_of_bind hsections
  split at hsections
  · contradiction
  · obtain ⟨strings, -, hsections⟩ := exists_ok_of_bind hsections
    cases hsections
    intro s hs
    obtain ⟨entry, -, rfl⟩ := List.mem_map.1 hs
    exact within_contentsOf entry

theorem Pe.within_sections {wide : Bool} {found : List Section}
    (hsections : sections wide file = .ok found) : ∀ s ∈ found, s.Within file := by
  unfold sections at hsections
  obtain ⟨⟨offset, h⟩, -, hsections⟩ := exists_ok_of_bind hsections
  obtain ⟨table, -, hsections⟩ := exists_ok_of_bind hsections
  split at hsections
  · contradiction
  · cases hsections
    intro s hs
    obtain ⟨entry, -, rfl⟩ := List.mem_map.1 hs
    exact Packed.within_plainAt _ _ _

theorem MachO.within_contentsOf (name : Bytes) (flags offset size : Nat) :
    Packed.Within file (contentsOf file name flags offset size) := by
  unfold contentsOf
  dsimp only
  split
  · split
    · exact Packed.within_marked _ _
    · exact Packed.within_error _
  · split
    · exact Packed.within_atPlace _ _ _ _
    · exact Packed.within_empty

theorem MachO.readSection_within (l : Layout) :
    (readSection l file).Yields (Section.Within file) := by
  unfold readSection
  refine Reader.Yields.bind fun name => Reader.Yields.bind fun _ => ?_
  refine Reader.Yields.bind fun _ => Reader.Yields.bind fun size => ?_
  refine Reader.Yields.bind fun offset => Reader.Yields.bind fun _ => ?_
  refine Reader.Yields.bind fun _ => Reader.Yields.bind fun _ => ?_
  refine Reader.Yields.bind fun flags => Reader.Yields.bind fun _ => ?_
  refine Reader.yields_pure ?_
  exact within_contentsOf _ flags offset size

theorem MachO.within_commandSections {l : Layout} {kind : Nat} {command : Bytes}
    {found : List Section} (hsections : commandSections l file kind command = .ok found) :
    ∀ s ∈ found, s.Within file := by
  unfold commandSections at hsections
  split at hsections
  · split at hsections
    · contradiction
    · split at hsections
      · contradiction
      · rename_i hread
        cases hsections
        exact Reader.Yields.times (readSection_within l) _ hread
  · split at hsections
    · split at hsections
      · contradiction
      · split at hsections
        · cases hsections
          nofun
        · contradiction
    · cases hsections
      nofun

theorem MachO.within_commandList {l : Layout} {count : Nat} {table : Bytes}
    {found : List Section} (hsections : commandList l file count table = .ok found) :
    ∀ s ∈ found, s.Within file := by
  induction count generalizing table found with
  | zero =>
    cases hsections
    nofun
  | succ count ih =>
    unfold commandList at hsections
    split at hsections
    · cases hsections
      nofun
    · split at hsections
      · cases hsections
        nofun
      · split at hsections
        · cases hsections
          nofun
        · obtain ⟨first, hfirst, hsections⟩ := exists_ok_of_bind hsections
          obtain ⟨others, hothers, hsections⟩ := exists_ok_of_bind hsections
          cases hsections
          exact List.forall_mem_append.2 ⟨within_commandSections hfirst, ih hothers⟩

theorem MachO.within_sections {l : Layout} {found : List Section}
    (hsections : sections l file = .ok found) : ∀ s ∈ found, s.Within file := by
  unfold sections at hsections
  split at hsections
  · contradiction
  · split at hsections
    · cases hsections
      nofun
    · exact within_commandList hsections

end

/-! ## Objects -/

namespace Object

variable {file : Bytes} {o : Object}

theorem within_of_ofFile (hfile : ofFile file = .ok o) : ∀ s ∈ o.sections, s.Within file := by
  unfold ofFile at hfile
  obtain ⟨kind, -, hfile⟩ := exists_ok_of_bind hfile
  cases kind with
  | elf wide =>
    obtain ⟨⟨e, found⟩, hfound, hfile⟩ := exists_ok_of_bind hfile
    cases hfile
    exact Elf.within_sections (exists_ok_of_mapError hfound)
  | machO layout =>
    obtain ⟨found, hfound, hfile⟩ := exists_ok_of_bind hfile
    cases hfile
    exact MachO.within_sections (exists_ok_of_mapError hfound)
  | coff long =>
    obtain ⟨found, hfound, hfile⟩ := exists_ok_of_bind hfile
    cases hfile
    exact Coff.within_sections (exists_ok_of_mapError hfound)
  | pe wide =>
    obtain ⟨found, hfound, hfile⟩ := exists_ok_of_bind hfile
    cases hfile
    exact Pe.within_sections (exists_ok_of_mapError hfound)
  | xcoff wide =>
    obtain ⟨_, -, hfile⟩ := exists_ok_of_bind hfile
    cases hfile
    nofun
  | other => contradiction

theorem mem_of_section? {name : String} {s : Section} (hs : o.section? name = some s) :
    s ∈ o.sections := by
  unfold section? at hs
  obtain ⟨accepts, -, hs⟩ := List.exists_of_findSome?_eq_some hs
  exact List.mem_of_find?_eq_some hs

/-- The contents of a section are no longer than the file or fit a vector. -/
theorem length_le_of_contents (hfile : ofFile file = .ok o) {memory : Nat} {name : String}
    {bytes : Bytes} (hcontents : o.contents memory name = .ok bytes) :
    bytes.length ≤ max file.length Packed.vectorLimit := by
  unfold contents at hcontents
  split at hcontents
  · cases hcontents
    exact Nat.zero_le _
  · rename_i s hs
    obtain ⟨p, hp, hunpack⟩ := exists_ok_of_bind hcontents
    have hwithin := within_of_ofFile hfile s (mem_of_section? hs) p hp
    have hlength := Packed.length_le_of_unpack hunpack
    omega

end Object
end LineTable
