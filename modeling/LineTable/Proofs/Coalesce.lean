/-
Which keys the intervals of a list hold.

`coalesce` holds exactly the keys it was given, in whatever order they come
(`exists_mem_coalesce`).  Over ascending keys its intervals are canonical: none is
empty, and between one and the next at least one integer is left out
(`canonical_coalesce`).  Keys are compared through the integers they are read as, so
nothing here depends on where a word ends.
-/
import LineTable.Interval

namespace LineTable
namespace Interval

variable {α : Type} {toInt : α → Int}

/-- An interval holds the keys from its first to its last one. -/
instance [LE α] : Membership α (Interval α) := ⟨fun r x => r.first ≤ x ∧ x ≤ r.last⟩

/-- No interval is empty, they ascend, and no two of them touch. -/
structure Canonical (toInt : α → Int) (ranges : List (Interval α)) : Prop where
  nonempty : ∀ r ∈ ranges, toInt r.first ≤ toInt r.last
  apart : ranges.Pairwise fun r s => toInt r.last + 1 < toInt s.first

/-- Keys that are read as integers in their own order. -/
structure Faithful [LE α] (toInt : α → Int) : Prop where
  le_iff (x y : α) : toInt x ≤ toInt y ↔ x ≤ y
  injective {x y : α} : toInt x = toInt y → x = y

theorem faithful_address : Faithful fun address : UInt64 => (address.toNat : Int) where
  le_iff _ _ := Int.ofNat_le.trans UInt64.le_iff_toNat_le.symm
  injective h := UInt64.toNat_inj.1 (Int.ofNat.inj h)

theorem faithful_line : Faithful Int64.toInt where
  le_iff _ _ := Int64.le_iff_toInt_le.symm
  injective h := Int64.toInt_inj.1 h

theorem mem_iff [LE α] {first last x : α} :
    x ∈ (⟨first, last⟩ : Interval α) ↔ first ≤ x ∧ x ≤ last := Iff.rfl

namespace Faithful

variable [LE α]

theorem le_refl (hf : Faithful toInt) (key : α) : key ≤ key :=
  (hf.le_iff key key).1 (Int.le_refl _)

/-- An interval that ends where it starts holds one key. -/
theorem mem_single (hf : Faithful toInt) {key x : α} :
    x ∈ (⟨key, key⟩ : Interval α) ↔ x = key := by
  constructor
  · rintro ⟨hlow, hhigh⟩
    rw [← hf.le_iff] at hlow hhigh
    exact hf.injective (Int.le_antisymm hhigh hlow)
  · rintro rfl
    exact ⟨hf.le_refl x, hf.le_refl x⟩

end Faithful

theorem canonical_nil : Canonical toInt [] where
  nonempty := by simp
  apart := List.Pairwise.nil

theorem continues_iff {last next : α} :
    continues toInt last next = true ↔
      toInt next = toInt last ∨ toInt next = toInt last + 1 := by
  simp [continues]

/-- What continues an interval extends it by itself alone. -/
theorem mem_of_continues [LE α] (hf : Faithful toInt) {first last next x : α}
    (h : first ≤ last) (hnext : continues toInt last next = true) :
    x ∈ (⟨first, next⟩ : Interval α) ↔ x ∈ (⟨first, last⟩ : Interval α) ∨ x = next := by
  have hinj := hf.injective (x := x) (y := next)
  rw [continues_iff] at hnext
  rw [← hf.le_iff] at h
  rw [mem_iff, mem_iff, ← hf.le_iff, ← hf.le_iff, ← hf.le_iff]
  constructor
  · rintro ⟨hlow, hhigh⟩
    by_cases hlast : toInt x ≤ toInt last
    · exact .inl ⟨hlow, hlast⟩
    · exact .inr (hinj (by omega))
  · rintro (hx | rfl)
    · omega
    · omega

/-! ### The keys of the intervals -/

section Keys

variable [LE α]

/-- Extending an open interval adds the keys and nothing in between. -/
theorem exists_mem_extend (hf : Faithful toInt) {first last : α} (h : first ≤ last)
    (keys : List α) (x : α) :
    (∃ r ∈ extend toInt first last keys, x ∈ r) ↔
      x ∈ (⟨first, last⟩ : Interval α) ∨ x ∈ keys := by
  induction keys generalizing first last with
  | nil => simp [extend]
  | cons next rest ih =>
    rw [extend, List.mem_cons]
    by_cases hnext : continues toInt last next
    · have hopen : first ≤ next := by
        rw [← hf.le_iff] at h ⊢
        rw [continues_iff] at hnext
        omega
      rw [if_pos hnext, ih hopen, mem_of_continues hf h hnext, or_assoc]
    · rw [if_neg hnext, ← hf.mem_single, ← ih (hf.le_refl next)]
      simp

/-- The intervals hold the keys they were made from and no other. -/
theorem exists_mem_coalesce (hf : Faithful toInt) (keys : List α) (x : α) :
    (∃ r ∈ coalesce toInt keys, x ∈ r) ↔ x ∈ keys := by
  cases keys with
  | nil => simp [coalesce]
  | cons key rest =>
    rw [coalesce, exists_mem_extend hf (hf.le_refl key), List.mem_cons, hf.mem_single]

theorem coalesce_eq_nil (hf : Faithful toInt) {keys : List α} :
    coalesce toInt keys = [] ↔ keys = [] := by
  constructor
  · intro h
    rw [List.eq_nil_iff_forall_not_mem]
    intro x hx
    obtain ⟨r, hr, -⟩ := (exists_mem_coalesce hf keys x).2 hx
    rw [h] at hr
    exact List.not_mem_nil hr
  · rintro rfl
    rfl

end Keys

/-! ### Their order -/

theorem nonempty_extend {first last : α} (h : toInt first ≤ toInt last) (keys : List α) :
    ∀ r ∈ extend toInt first last keys, toInt r.first ≤ toInt r.last := by
  induction keys generalizing first last with
  | nil =>
    intro r hr
    rw [extend, List.mem_singleton] at hr
    rw [hr]
    exact h
  | cons next rest ih =>
    rw [extend]
    by_cases hnext : continues toInt last next
    · rw [if_pos hnext]
      rw [continues_iff] at hnext
      exact ih (by omega)
    · rw [if_neg hnext]
      intro r hr
      rcases List.mem_cons.1 hr with rfl | hr
      · exact h
      · exact ih (Int.le_refl _) r hr

theorem le_first_of_mem_extend {bound : Int} {first last : α} {keys : List α}
    (hfirst : bound ≤ toInt first) (hkeys : ∀ key ∈ keys, bound ≤ toInt key) :
    ∀ r ∈ extend toInt first last keys, bound ≤ toInt r.first := by
  induction keys generalizing first last with
  | nil =>
    intro r hr
    rw [extend, List.mem_singleton] at hr
    rw [hr]
    exact hfirst
  | cons next rest ih =>
    have hrest : ∀ key ∈ rest, bound ≤ toInt key :=
      fun key hkey => hkeys key (List.mem_cons_of_mem next hkey)
    rw [extend]
    by_cases hnext : continues toInt last next
    · rw [if_pos hnext]
      exact ih hfirst hrest
    · rw [if_neg hnext]
      intro r hr
      rcases List.mem_cons.1 hr with rfl | hr
      · exact hfirst
      · exact ih (hkeys next List.mem_cons_self) hrest r hr

/-- Over ascending keys an interval is closed by a gap only. -/
theorem apart_extend {first last : α} {keys : List α}
    (hlast : ∀ key ∈ keys, toInt last ≤ toInt key)
    (hkeys : keys.Pairwise fun x y => toInt x ≤ toInt y) :
    (extend toInt first last keys).Pairwise fun r s => toInt r.last + 1 < toInt s.first := by
  induction keys generalizing first last with
  | nil => exact List.pairwise_singleton _ _
  | cons next rest ih =>
    obtain ⟨hbelow, hrest⟩ := List.pairwise_cons.1 hkeys
    rw [extend]
    by_cases hnext : continues toInt last next
    · rw [if_pos hnext]
      exact ih hbelow hrest
    · rw [if_neg hnext]
      refine List.pairwise_cons.2 ⟨fun s hs => ?_, ih hbelow hrest⟩
      have hgap := hlast next List.mem_cons_self
      have hfirst := le_first_of_mem_extend (Int.le_refl _) hbelow s hs
      rw [continues_iff] at hnext
      show toInt last + 1 < toInt s.first
      omega

theorem canonical_coalesce {keys : List α}
    (hkeys : keys.Pairwise fun x y => toInt x ≤ toInt y) : Canonical toInt (coalesce toInt keys) := by
  cases keys with
  | nil => exact canonical_nil
  | cons key rest =>
    obtain ⟨hbelow, hrest⟩ := List.pairwise_cons.1 hkeys
    exact ⟨nonempty_extend (Int.le_refl _) rest, apart_extend hbelow hrest⟩

theorem Faithful.ascending_mergeSort [LE α] [DecidableLE α] (hf : Faithful toInt)
    (keys : List α) : keys.mergeSort.Pairwise fun x y => toInt x ≤ toInt y := by
  have htrans : ∀ x y z : α, decide (x ≤ y) → decide (y ≤ z) → decide (x ≤ z) := by
    simp only [decide_eq_true_eq, ← hf.le_iff]
    omega
  have htotal : ∀ x y : α, decide (x ≤ y) || decide (y ≤ x) := by
    simp only [Bool.or_eq_true, decide_eq_true_eq, ← hf.le_iff]
    omega
  refine (List.pairwise_mergeSort htrans htotal keys).imp fun hle => ?_
  rw [decide_eq_true_eq] at hle
  exact (hf.le_iff _ _).2 hle

theorem Faithful.coalesce_mergeSort_eq_nil [LE α] [DecidableLE α] (hf : Faithful toInt)
    {keys : List α} : coalesce toInt keys.mergeSort = [] ↔ keys = [] := by
  rw [coalesce_eq_nil hf, ← List.length_eq_zero_iff, List.length_mergeSort,
    List.length_eq_zero_iff]

end Interval
end LineTable
