/-
The cut of a list of keys into ranges, in whatever order the keys come.

The ranges spell out the keys with adjacent repetitions removed, none of them is empty, and
none goes on where the one before it ends.  No two lists of ranges are like that for the same
keys: the first range begins at the first key, and where it ends is settled as well, since
the next one may not begin at the integer behind it (`eq_of_separate`).  So these conditions
say all there is to say about the ranges of addresses and of lines (`cut_iff_ranges`).
-/
import LineTable.Proofs.Coalesce
import Mathlib.Data.Int.Range
import Mathlib.Data.List.Chain
import Mathlib.Data.List.Destutter

namespace LineTable
namespace Interval

/-! ## Runs of integers -/

section

variable {a b c : Int} {xs ys : List Int}

theorem range_self (a : Int) : Int.range a a = [] := by simp [Int.range]

theorem range_single (a : Int) : Int.range a (a + 1) = [a] := by
  have hlength : (a + 1 - a).toNat = 1 := by omega
  rw [Int.range, hlength]
  simp

theorem range_append (hab : a ≤ b) (hbc : b ≤ c) :
    Int.range a b ++ Int.range b c = Int.range a c := by
  have hlength : (c - a).toNat = (b - a).toNat + (c - b).toNat := by omega
  have hbehind (n : Nat) : b + n = a + ((b - a).toNat + n : Nat) := by omega
  simp only [Int.range, hlength, List.range_add, List.map_append, List.map_map,
    Function.comp_def, hbehind]

theorem range_succ (h : a ≤ b) : Int.range a (b + 1) = Int.range a b ++ [b] := by
  rw [← range_append h (Int.le_add_one (Int.le_refl b)), range_single]

theorem range_eq_cons (h : a < b) : Int.range a b = a :: Int.range (a + 1) b := by
  rw [← range_append (Int.le_add_one (Int.le_refl a)) h, range_single, List.singleton_append]

/-- A run that ends earlier is not followed by what would continue it. -/
theorem le_of_range_append (hab : a ≤ b) (hxs : xs.head? ≠ some (b + 1))
    (h : Int.range a (b + 1) ++ xs = Int.range a (c + 1) ++ ys) : c ≤ b := by
  by_contra hlt
  have hsplit : Int.range a (c + 1) = Int.range a (b + 1) ++ Int.range (b + 1) (c + 1) :=
    (range_append (by omega) (by omega)).symm
  rw [hsplit, List.append_assoc, List.append_cancel_left_eq, range_eq_cons (by omega)] at h
  rw [h] at hxs
  exact hxs rfl

theorem range_append_inj (hab : a ≤ b) (hac : a ≤ c) (hxs : xs.head? ≠ some (b + 1))
    (hys : ys.head? ≠ some (c + 1))
    (h : Int.range a (b + 1) ++ xs = Int.range a (c + 1) ++ ys) : b = c ∧ xs = ys := by
  obtain rfl : b = c :=
    Int.le_antisymm (le_of_range_append hac hys h.symm) (le_of_range_append hab hxs h)
  exact ⟨rfl, List.append_cancel_left h⟩

end

/-! ## Ranges that are apart -/

variable {α : Type} {toInt : α → Int} {r : Interval α} {ranges others : List (Interval α)}

/-- The keys of a range as integers, from its first to its last one. -/
def integers (toInt : α → Int) (r : Interval α) : List Int :=
  Int.range (toInt r.first) (toInt r.last + 1)

/-- The second range begins neither at the last key of the first nor at the integer behind. -/
def Apart (toInt : α → Int) (r s : Interval α) : Prop :=
  toInt s.first ≠ toInt r.last ∧ toInt s.first ≠ toInt r.last + 1

/-- No range is empty, and none could go on in the next one. -/
structure Separate (toInt : α → Int) (ranges : List (Interval α)) : Prop where
  nonempty : ∀ r ∈ ranges, toInt r.first ≤ toInt r.last
  maximal : ranges.IsChain (Apart toInt)

theorem integers_eq_cons (h : toInt r.first ≤ toInt r.last) :
    r.integers toInt = toInt r.first :: Int.range (toInt r.first + 1) (toInt r.last + 1) :=
  range_eq_cons (Int.lt_add_one_of_le h)

namespace Separate

theorem tail (h : Separate toInt (r :: ranges)) : Separate toInt ranges where
  nonempty := fun s hs => h.nonempty s (List.mem_cons_of_mem r hs)
  maximal := (List.isChain_cons.1 h.maximal).2

theorem head?_flatMap (h : Separate toInt ranges) :
    (ranges.flatMap (integers toInt)).head? = ranges.head?.map fun r => toInt r.first := by
  cases ranges with
  | nil => rfl
  | cons r rest =>
    rw [List.flatMap_cons, integers_eq_cons (h.nonempty r List.mem_cons_self)]
    rfl

/-- The ranges behind a range do not continue it. -/
theorem head?_ne (h : Separate toInt (r :: ranges)) :
    (ranges.flatMap (integers toInt)).head? ≠ some (toInt r.last + 1) := by
  rw [h.tail.head?_flatMap]
  intro hhead
  obtain ⟨s, hs, hfirst⟩ := Option.map_eq_some_iff.1 hhead
  exact ((List.isChain_cons.1 h.maximal).1 s hs).2 hfirst

end Separate

/-- Ranges that are apart are determined by their keys. -/
theorem eq_of_separate (hinj : ∀ {x y}, toInt x = toInt y → x = y) (h : Separate toInt ranges)
    (h' : Separate toInt others)
    (heq : ranges.flatMap (integers toInt) = others.flatMap (integers toInt)) :
    ranges = others := by
  induction ranges generalizing others with
  | nil =>
    have hhead := h'.head?_flatMap
    rw [← heq] at hhead
    exact (List.head?_eq_none_iff.1 (Option.map_eq_none_iff.1 hhead.symm)).symm
  | cons r ranges ih =>
    have hhead := h.head?_flatMap
    rw [heq, h'.head?_flatMap] at hhead
    cases others with
    | nil => contradiction
    | cons s others =>
      have hfirst : toInt s.first = toInt r.first := Option.some.inj hhead
      have hr := h.nonempty r List.mem_cons_self
      have hs := h'.nonempty s List.mem_cons_self
      rw [List.flatMap_cons, List.flatMap_cons, integers, integers, hfirst] at heq
      rw [hfirst] at hs
      obtain ⟨hlast, hrest⟩ := range_append_inj hr hs h.head?_ne h'.head?_ne heq
      have hsame : r = s := by
        cases r
        cases s
        exact congr (congrArg Interval.mk (hinj hfirst.symm)) (hinj hlast)
      rw [hsame, ih h.tail h'.tail hrest]

/-! ## The cut of a list of keys -/

/-- The ranges are apart and spell out the keys, each repeated one once. -/
structure Cut [DecidableEq α] (toInt : α → Int) (keys : List α) (ranges : List (Interval α)) :
    Prop extends Separate toInt ranges where
  lossless : ranges.flatMap (integers toInt) = (keys.destutter (· ≠ ·)).map toInt

theorem head?_extend (toInt : α → Int) (first last : α) (keys : List α) :
    ∀ r ∈ (extend toInt first last keys).head?, r.first = first := by
  induction keys generalizing last with
  | nil =>
    intro r hr
    obtain rfl : ⟨first, last⟩ = r := Option.some.inj hr
    rfl
  | cons next rest ih =>
    rw [extend]
    by_cases hnext : continues toInt last next
    · rw [if_pos hnext]
      exact ih next
    · rw [if_neg hnext]
      intro r hr
      obtain rfl : ⟨first, last⟩ = r := Option.some.inj hr
      rfl

/-- A range is closed only by a key that does not continue it. -/
theorem maximal_extend (toInt : α → Int) (first last : α) (keys : List α) :
    (extend toInt first last keys).IsChain (Apart toInt) := by
  induction keys generalizing first last with
  | nil => exact List.isChain_singleton _
  | cons next rest ih =>
    rw [extend]
    by_cases hnext : continues toInt last next
    · rw [if_pos hnext]
      exact ih first next
    · rw [if_neg hnext]
      rw [continues_iff] at hnext
      refine List.isChain_cons.2 ⟨fun s hs => ?_, ih next next⟩
      rw [Apart, head?_extend toInt next next rest s hs]
      exact not_or.1 hnext

/-- What an open range and the keys behind it spell out: the range up to its last key, and
then that key and the others without adjacent repetitions. -/
theorem flatMap_extend [DecidableEq α] (hinj : ∀ {x y}, toInt x = toInt y → x = y)
    {first last : α} (h : toInt first ≤ toInt last) (keys : List α) :
    (extend toInt first last keys).flatMap (integers toInt) =
      Int.range (toInt first) (toInt last) ++ (keys.destutter' (· ≠ ·) last).map toInt := by
  -- The last key is not counted as part of the open range: a key behind may repeat it, and both
  -- are spelled out once, with the first key that differs from them.
  induction keys generalizing first last with
  | nil =>
    rw [extend, List.flatMap_singleton, integers, range_succ h]
    rfl
  | cons next rest ih =>
    rw [extend]
    by_cases hsame : toInt next = toInt last
    · obtain rfl : next = last := hinj hsame
      rw [if_pos (continues_iff.2 (.inl rfl)), ih h, List.destutter'_cons_neg _ (by simp)]
    · have hne : last ≠ next := fun heq => hsame (heq ▸ rfl)
      rw [List.destutter'_cons_pos _ hne, List.map_cons]
      by_cases hsucc : toInt next = toInt last + 1
      · rw [if_pos (continues_iff.2 (.inr hsucc)), ih (by omega), hsucc, range_succ h,
          List.append_assoc, List.singleton_append]
      · have hgap : ¬continues toInt last next := by
          rw [continues_iff]
          exact not_or.2 ⟨hsame, hsucc⟩
        rw [if_neg hgap, List.flatMap_cons, ih (Int.le_refl _), range_self, List.nil_append,
          integers, range_succ h, List.append_assoc, List.singleton_append]

theorem cut_coalesce [DecidableEq α] (hinj : ∀ {x y}, toInt x = toInt y → x = y)
    (keys : List α) : Cut toInt keys (coalesce toInt keys) := by
  cases keys with
  | nil =>
    exact { nonempty := by simp [coalesce], maximal := List.isChain_nil, lossless := rfl }
  | cons key rest =>
    refine ⟨⟨nonempty_extend (Int.le_refl _) rest, maximal_extend toInt key key rest⟩, ?_⟩
    rw [coalesce, flatMap_extend hinj (Int.le_refl _), range_self, List.nil_append,
      List.destutter_cons']

theorem cut_iff [DecidableEq α] (hinj : ∀ {x y}, toInt x = toInt y → x = y) {keys : List α} :
    Cut toInt keys ranges ↔ ranges = coalesce toInt keys := by
  have hcut := cut_coalesce hinj keys
  constructor
  · intro h
    exact eq_of_separate hinj h.toSeparate hcut.toSeparate (h.lossless.trans hcut.lossless.symm)
  · rintro rfl
    exact hcut

/-- The ranges of addresses, and those of lines, are the one cut of their keys, whether these
are sorted or not. -/
theorem cut_iff_ranges :
    (∀ addresses ranges,
      Cut (fun address : UInt64 => (address.toNat : Int)) addresses ranges ↔
        ranges = ofAddresses addresses) ∧
      ∀ lines ranges, Cut Int64.toInt lines ranges ↔ ranges = ofLines lines :=
  ⟨fun _ _ => cut_iff faithful_address.injective, fun _ _ => cut_iff faithful_line.injective⟩

/-- The last address has no successor, and a step down opens a range even if it leads to a key
right below. -/
example :
    ofAddresses [7, 8, 8, 7, 18446744073709551615, 18446744073709551615, 0] =
      [⟨7, 8⟩, ⟨7, 7⟩, ⟨18446744073709551615, 18446744073709551615⟩, ⟨0, 0⟩] := by
  decide

end Interval
end LineTable
