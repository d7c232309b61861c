/-
What a lookup does to a store.

There are three kinds of lookup, and each has an equation.  Outside the section nothing
is found and the store is left alone.  An offset with an outcome is answered from its
cell.  Any other offset gets a cell and is decoded into it.
-/
import LineTable.ProgramStore

namespace LineTable
namespace ProgramStore

variable {s : ProgramStore} {offset : UInt64}

/-- The offsets with a cell, the one made last first. -/
def keys (s : ProgramStore) : List UInt64 := s.cells.map Prod.fst

theorem mem_keys_iff : offset ∈ s.keys ↔ s.find? offset ≠ none := by
  simp [keys, find?]

theorem outcome?_eq_none (hkey : offset ∉ s.keys) : s.outcome? offset = none := by
  have hfind : s.find? offset = none := Decidable.of_not_not fun h => hkey (mem_keys_iff.2 h)
  rw [outcome?, hfind]
  rfl

theorem mem_keys_of_outcome? {outcome : Option Program} (h : s.outcome? offset = some outcome) :
    offset ∈ s.keys := by
  refine Decidable.of_not_not fun hkey => ?_
  rw [outcome?_eq_none hkey] at h
  contradiction

/-! ### Cells -/

theorem reserve_of_mem (hin : s.lines.contains offset) (hkey : offset ∈ s.keys) :
    s.reserve offset hin = s := by
  unfold reserve
  split
  · rfl
  · rename_i hfind
    exact absurd hfind (mem_keys_iff.1 hkey)

theorem cells_reserve (hin : s.lines.contains offset) (hkey : offset ∉ s.keys) :
    (s.reserve offset hin).cells = (offset, none) :: s.cells := by
  unfold reserve
  split
  · rename_i entry hfind
    refine absurd (mem_keys_iff.2 ?_) hkey
    rw [hfind]
    exact Option.some_ne_none entry
  · rfl

theorem lines_reserve (hin : s.lines.contains offset) :
    (s.reserve offset hin).lines = s.lines := by
  unfold reserve
  split <;> rfl

theorem mem_keys_reserve (hin : s.lines.contains offset) {key : UInt64} :
    key ∈ (s.reserve offset hin).keys ↔ key = offset ∨ key ∈ s.keys := by
  by_cases hkey : offset ∈ s.keys
  · rw [reserve_of_mem hin hkey]
    constructor
    · exact .inr
    · rintro (rfl | hold)
      · exact hkey
      · exact hold
  · rw [keys, cells_reserve hin hkey]
    exact List.mem_cons

theorem outcome?_reserve (hin : s.lines.contains offset) :
    (s.reserve offset hin).outcome? offset = s.outcome? offset := by
  by_cases hkey : offset ∈ s.keys
  · rw [reserve_of_mem hin hkey]
  · rw [outcome?_eq_none hkey, outcome?, find?, cells_reserve hin hkey,
      List.find?_cons_of_pos (by simp)]
    rfl

theorem keys_complete : (s.complete offset).keys = s.keys := by
  rw [keys, complete, List.map_map]
  refine List.map_congr_left fun entry _ => ?_
  by_cases hkey : entry.1 = offset <;> simp [hkey]

/-- What a cell holds is what its offset decodes to. -/
theorem eq_of_outcome? {outcome : Option Program} (h : s.outcome? offset = some outcome) :
    outcome = (s.lines.decode offset).toOption := by
  obtain ⟨entry, hentry, hcell⟩ := Option.bind_eq_some_iff.1 h
  have hkey : entry.1 = offset := by simpa using List.find?_some hentry
  rw [← hkey]
  exact (s.sound entry (List.mem_of_find?_eq_some hentry)).2 outcome hcell

/-! ### Lookups -/

theorem lookup_outside (hin : ¬ s.lines.contains offset) :
    s.lookup offset = ⟨none, s, [s.outsideRecord offset]⟩ := dif_neg hin

theorem lookup_held (hin : s.lines.contains offset) {outcome : Option Program}
    (h : s.outcome? offset = some outcome) : s.lookup offset = ⟨outcome, s, []⟩ := by
  rw [lookup, dif_pos hin]
  dsimp only
  rw [reserve_of_mem hin (mem_keys_of_outcome? h), h]

theorem lookup_new (hin : s.lines.contains offset) (h : s.outcome? offset = none) :
    s.lookup offset = ⟨(s.lines.decode offset).toOption, (s.reserve offset hin).complete offset,
      [recordOf offset (s.lines.decode offset)]⟩ := by
  rw [lookup, dif_pos hin]
  dsimp only
  rw [outcome?_reserve hin, h, lines_reserve hin]

/-- A lookup finds what decoding its offset gives, whatever was looked up before. -/
theorem program_lookup (s : ProgramStore) (offset : UInt64) :
    (s.lookup offset).program = (s.lines.decode offset).toOption := by
  by_cases hin : s.lines.contains offset
  · cases h : s.outcome? offset with
    | some outcome =>
      rw [lookup_held hin h]
      exact eq_of_outcome? h
    | none => rw [lookup_new hin h]
  · rw [lookup_outside hin, LineSection.decode_outside hin]
    rfl

theorem lines_lookup (s : ProgramStore) (offset : UInt64) :
    (s.lookup offset).store.lines = s.lines := by
  by_cases hin : s.lines.contains offset
  · cases h : s.outcome? offset with
    | some outcome => rw [lookup_held hin h]
    | none =>
      rw [lookup_new hin h]
      exact lines_reserve hin
  · rw [lookup_outside hin]

/-- A lookup in the section leaves a cell for its offset, and no other new one. -/
theorem mem_keys_lookup {key : UInt64} :
    key ∈ (s.lookup offset).store.keys ↔
      (key = offset ∧ s.lines.contains offset) ∨ key ∈ s.keys := by
  by_cases hin : s.lines.contains offset
  · cases h : s.outcome? offset with
    | some outcome =>
      rw [lookup_held hin h]
      constructor
      · exact .inr
      · rintro (⟨rfl, -⟩ | hold)
        · exact mem_keys_of_outcome? h
        · exact hold
    | none =>
      rw [lookup_new hin h, keys_complete, mem_keys_reserve hin]
      simp [hin]
  · rw [lookup_outside hin]
    simp [hin]

/-! ### Cells between lookups -/

/-- Every cell holds an outcome. -/
def Filled (s : ProgramStore) : Prop := ∀ entry ∈ s.cells, entry.2.isSome

theorem Filled.outcome?_isSome (hs : s.Filled) (hkey : offset ∈ s.keys) :
    (s.outcome? offset).isSome := by
  cases hfind : s.find? offset with
  | none => exact absurd hfind (mem_keys_iff.1 hkey)
  | some entry =>
    rw [outcome?, hfind]
    exact hs entry (List.mem_of_find?_eq_some hfind)

/-- A lookup leaves no cell empty. -/
theorem Filled.lookup (hs : s.Filled) (offset : UInt64) : (s.lookup offset).store.Filled := by
  by_cases hin : s.lines.contains offset
  · cases h : s.outcome? offset with
    | some outcome => rwa [lookup_held hin h]
    | none =>
      have hkey : offset ∉ s.keys := by
        intro hkey
        have hheld := hs.outcome?_isSome hkey
        rw [h] at hheld
        contradiction
      rw [lookup_new hin h]
      intro entry hentry
      obtain ⟨old, hold, rfl⟩ := List.mem_map.1 hentry
      rw [cells_reserve hin hkey] at hold
      rcases List.mem_cons.1 hold with rfl | hold
      · simp
      · split
        · rfl
        · exact hs old hold
  · rwa [lookup_outside hin]

theorem Filled.decodedCount_eq (hs : s.Filled) : s.decodedCount = s.count :=
  List.countP_eq_length.2 hs

end ProgramStore
end LineTable
