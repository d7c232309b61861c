/-
Stores that have been used.

`Request` is what one can ask of a store and `serve` answers any number of requests in
turn.  Two invariants hold behind every request: no cell is empty, and the offsets with
a cell are those in the section that were sought since the store was last cleared
(`keptFor_serve`).  The theorem this file exists for is `lookups_transparent`: nothing
that was asked before has a part in what a lookup finds, and the counters count offsets.
-/
import LineTable.Proofs.Failures
import LineTable.Proofs.Lookup
import Mathlib.Data.Set.Card

namespace LineTable

/-- What one can ask of a store. -/
inductive Request where
  | lookup (offset : UInt64)
  | decode (offset : UInt64)
  | clear
  | counts
deriving DecidableEq, Repr

/-- The offset was looked up, and the store has not been cleared since. -/
def Sought (requests : List Request) (offset : UInt64) : Prop :=
  ∃ earlier later, requests = earlier ++ .lookup offset :: later ∧ .clear ∉ later

theorem not_sought_nil (offset : UInt64) : ¬ Sought [] offset := by
  rintro ⟨earlier, later, hsplit, -⟩
  simp at hsplit

theorem sought_concat {requests : List Request} {last : Request} {offset : UInt64} :
    Sought (requests ++ [last]) offset ↔
      last = .lookup offset ∨ (last ≠ .clear ∧ Sought requests offset) := by
  constructor
  · rintro ⟨earlier, later, hsplit, hclear⟩
    rcases List.eq_nil_or_concat later with rfl | ⟨before, final, rfl⟩
    · have hlast := (List.append_inj' hsplit rfl).2
      exact .inl (List.singleton_inj.1 hlast)
    · rw [List.concat_eq_append] at hsplit hclear
      rw [← List.cons_append, ← List.append_assoc] at hsplit
      obtain ⟨hbefore, hlast⟩ := List.append_inj' hsplit rfl
      obtain rfl := List.singleton_inj.1 hlast
      refine .inr ⟨?_, earlier, before, hbefore, ?_⟩
      · rintro rfl
        exact hclear (by simp)
      · intro hmem
        exact hclear (List.mem_append_left _ hmem)
  · rintro (rfl | ⟨hlast, earlier, later, rfl, hclear⟩)
    · exact ⟨requests, [], rfl, by simp⟩
    · refine ⟨earlier, later ++ [last], by simp, ?_⟩
      simp only [List.mem_append, List.mem_singleton, not_or]
      exact ⟨hclear, Ne.symm hlast⟩

namespace ProgramStore

/-- The store behind a request.  Decoding and counting do not touch it. -/
def after (s : ProgramStore) : Request → ProgramStore
  | .lookup offset => (s.lookup offset).store
  | .decode _ => s
  | .clear => s.clear
  | .counts => s

/-- The store behind any number of requests. -/
def serve (s : ProgramStore) (requests : List Request) : ProgramStore := requests.foldl after s

/-- The store is over `lines`, has no empty cell, and has cells for `offsets` only. -/
structure KeptFor (s : ProgramStore) (lines : LineSection) (offsets : UInt64 → Prop) : Prop where
  lines_eq : s.lines = lines
  filled : s.Filled
  mem_keys (offset : UInt64) : offset ∈ s.keys ↔ lines.contains offset ∧ offsets offset

variable {s : ProgramStore} {lines : LineSection} {requests : List Request}

theorem keptFor_ofSection (lines : LineSection) :
    (ofSection lines).KeptFor lines (Sought []) where
  lines_eq := rfl
  filled := by simp [Filled, ofSection]
  mem_keys offset := by simp [keys, ofSection, not_sought_nil]

theorem KeptFor.congr {offsets others : UInt64 → Prop} (hs : s.KeptFor lines offsets)
    (h : ∀ offset, offsets offset ↔ others offset) : s.KeptFor lines others where
  lines_eq := hs.lines_eq
  filled := hs.filled
  mem_keys offset := by rw [hs.mem_keys, h]

/-- After a lookup the store also keeps the offset that was sought. -/
theorem KeptFor.lookup {offsets : UInt64 → Prop} (hs : s.KeptFor lines offsets)
    (sought : UInt64) :
    (s.lookup sought).store.KeptFor lines fun offset => offset = sought ∨ offsets offset where
  lines_eq := (lines_lookup s sought).trans hs.lines_eq
  filled := hs.filled.lookup sought
  mem_keys offset := by
    rw [mem_keys_lookup, hs.mem_keys, hs.lines_eq]
    constructor
    · rintro (⟨rfl, hin⟩ | ⟨hin, hkept⟩)
      · exact ⟨hin, .inl rfl⟩
      · exact ⟨hin, .inr hkept⟩
    · rintro ⟨hin, rfl | hkept⟩
      · exact .inl ⟨rfl, hin⟩
      · exact .inr ⟨hin, hkept⟩

/-- One request keeps what the requests before it have established. -/
theorem KeptFor.after (hs : s.KeptFor lines (Sought requests)) (request : Request) :
    (s.after request).KeptFor lines (Sought (requests ++ [request])) := by
  cases request with
  | lookup sought =>
    refine (hs.lookup sought).congr fun offset => ?_
    rw [sought_concat]
    simp [eq_comm]
  | clear =>
    have hempty := keptFor_ofSection s.lines
    refine ⟨hs.lines_eq, hempty.filled, fun offset => ?_⟩
    rw [ProgramStore.after, clear, hempty.mem_keys, sought_concat]
    simp [not_sought_nil]
  | decode _ | counts =>
    refine hs.congr fun offset => ?_
    rw [sought_concat]
    simp

/-- What any number of requests leaves behind. -/
theorem keptFor_serve (lines : LineSection) (requests : List Request) :
    ((ofSection lines).serve requests).KeptFor lines (Sought requests) := by
  induction requests using List.reverseRecOn with
  | nil => exact keptFor_ofSection lines
  | append_singleton requests request ih =>
    rw [serve, List.foldl_append]
    exact ih.after request

/-- A store has as many cells as there are offsets that it was to keep. -/
theorem KeptFor.count_eq {offsets : UInt64 → Prop} (hs : s.KeptFor lines offsets) :
    s.count = {offset | lines.contains offset ∧ offsets offset}.ncard := by
  have hkeys : {offset | lines.contains offset ∧ offsets offset} = ↑s.keys.toFinset := by
    ext offset
    simp [hs.mem_keys]
  have hcard : s.keys.toFinset.card = s.keys.length := List.toFinset_card_of_nodup s.nodup
  rw [hkeys, Set.ncard_coe_finset, hcard]
  exact (List.length_map Prod.fst).symm

/-- A lookup changes a store without empty cells exactly when it makes a cell. -/
theorem KeptFor.store_lookup_eq_iff {offsets : UInt64 → Prop} (hs : s.KeptFor lines offsets)
    (offset : UInt64) :
    (s.lookup offset).store = s ↔ ¬ lines.contains offset ∨ offsets offset := by
  constructor
  · intro hstore
    by_cases hin : lines.contains offset
    · have hkey : offset ∈ (s.lookup offset).store.keys :=
        mem_keys_lookup.2 (.inl ⟨rfl, hs.lines_eq ▸ hin⟩)
      rw [hstore, hs.mem_keys] at hkey
      exact .inr hkey.2
    · exact .inl hin
  · intro hunchanged
    by_cases hin : s.lines.contains offset
    · have hoffset : offsets offset := by
        rcases hunchanged with hout | hoffset
        · exact absurd (hs.lines_eq ▸ hin) hout
        · exact hoffset
      have hkey : offset ∈ s.keys := (hs.mem_keys offset).2 ⟨hs.lines_eq ▸ hin, hoffset⟩
      obtain ⟨outcome, houtcome⟩ := Option.isSome_iff_exists.1 (hs.filled.outcome?_isSome hkey)
      rw [lookup_held hin houtcome]
    · rw [lookup_outside hin]

/-- Behind any requests, a lookup finds what decoding its offset gives, both counters
give the number of offsets in the section that were sought since the last clearing, and
a lookup changes the store unless its offset is out of range or was sought since then. -/
theorem lookups_transparent (lines : LineSection) (requests : List Request) :
    ((ofSection lines).serve requests).lines = lines ∧
    (∀ offset, (((ofSection lines).serve requests).lookup offset).program =
      (lines.decode offset).toOption) ∧
    ((ofSection lines).serve requests).count =
      {offset | offset.toNat < lines.size ∧ Sought requests offset}.ncard ∧
    ((ofSection lines).serve requests).decodedCount =
      {offset | offset.toNat < lines.size ∧ Sought requests offset}.ncard ∧
    ∀ offset, (((ofSection lines).serve requests).lookup offset).store =
        (ofSection lines).serve requests ↔
      (∃ place size, lines.decode offset = .error (.offsetOutOfRange place size)) ∨
        Sought requests offset := by
  have hkept := keptFor_serve lines requests
  have hcount := hkept.count_eq
  simp only [LineSection.contains, decide_eq_true_eq] at hcount
  refine ⟨hkept.lines_eq, fun offset => ?_, hcount,
    hkept.filled.decodedCount_eq.trans hcount, fun offset => ?_⟩
  · rw [program_lookup, hkept.lines_eq]
  · rw [hkept.store_lookup_eq_iff, LineSection.decode_outOfRange_iff]

end ProgramStore
end LineTable
