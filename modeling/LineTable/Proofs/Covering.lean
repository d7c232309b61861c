/-
Which unit covers an address.

A unit is indexed at the number that its first lowest address stands for, and of several at
one address the last one counts.  So the index holds, for each address at which units begin,
the last of these (`LowAddresses.mem_ofUnits`), the highest address first.  The first entry
that is not above an address is then the greatest one, and the search for it is a search
through all units (`UnitIndex.covering?_floor`).
-/
import LineTable.UnitIndex
import Mathlib.Data.Set.Card

namespace LineTable

/-! ## Where a unit begins -/

/-- The unsigned number that a value stands for. -/
inductive AttributeValue.Denotes : AttributeValue → UInt64 → Prop where
  | address (n : UInt64) : Denotes (.address n) n
  | unsigned (n : UInt64) : Denotes (.unsigned n) n
  | sectionOffset (n : UInt64) : Denotes (.sectionOffset n) n
  | set : Denotes (.flag true) 1
  | unset : Denotes (.flag false) 0
  | signed (value : Int64) (n : UInt64) (h : value.toInt = n.toNat) : Denotes (.signed value) n

/-- The unit is a compile unit, and the first of its lowest addresses stands for `low`. -/
def CompileUnit.BeginsAt (u : CompileUnit) (low : UInt64) : Prop :=
  u.tag = .compileUnit ∧ ∃ front value behind,
    u.attributes = front ++ ⟨.lowPc, value⟩ :: behind ∧
      (∀ other ∈ front, other.name ≠ .lowPc) ∧ value.Denotes low

namespace AttributeValue

theorem toInt_eq_toNat_toUInt64 {value : Int64} (hsign : 0 ≤ value.toInt) :
    value.toInt = value.toUInt64.toNat := by
  have hmsb : value.toBitVec.msb = false := by
    rw [BitVec.msb_eq_toInt]
    exact decide_eq_false (Int.not_lt.2 hsign)
  exact BitVec.toInt_eq_toNat_of_msb hmsb

theorem toUnsigned?_signed {value : Int64} {n : UInt64} :
    (signed value).toUnsigned? = some n ↔ value.toInt = n.toNat := by
  show (if 0 ≤ value then some value.toUInt64 else none) = some n ↔ _
  by_cases hsign : 0 ≤ value
  · have hnumber := toInt_eq_toNat_toUInt64 (Int64.le_iff_toInt_le.1 hsign)
    rw [if_pos hsign, Option.some.injEq, hnumber, Nat.cast_inj, UInt64.toNat_inj]
  · rw [if_neg hsign]
    have hnegative : ¬ 0 ≤ value.toInt := fun h => hsign (Int64.le_iff_toInt_le.2 h)
    constructor
    · intro h
      contradiction
    · intro h
      omega

theorem toUnsigned?_eq_some_iff {value : AttributeValue} {n : UInt64} :
    value.toUnsigned? = some n ↔ value.Denotes n := by
  constructor
  · intro h
    cases value with
    | address | unsigned | sectionOffset =>
      cases h
      constructor
    | flag set =>
      cases set <;> cases h <;> constructor
    | text => contradiction
    | signed value => exact .signed value n (toUnsigned?_signed.1 h)
  · intro h
    cases h with
    | signed value n h => exact toUnsigned?_signed.2 h
    | _ => rfl

end AttributeValue

namespace CompileUnit

variable {u : CompileUnit} {low : UInt64}

theorem beginsAt_iff : u.BeginsAt low ↔ u.tag = .compileUnit ∧ u.lowAddress? = some low := by
  rw [BeginsAt, lowAddress?, value?]
  refine and_congr_right fun _ => ?_
  simp only [Option.bind_eq_some_iff, Option.map_eq_some_iff, List.find?_eq_some_iff_append,
    AttributeValue.toUnsigned?_eq_some_iff, decide_eq_true_eq, Bool.not_eq_true',
    decide_eq_false_iff_not]
  constructor
  · rintro ⟨front, value, behind, hsplit, hfront, hvalue⟩
    exact ⟨value, ⟨⟨.lowPc, value⟩, ⟨rfl, front, behind, hsplit, hfront⟩, rfl⟩, hvalue⟩
  · rintro ⟨_, ⟨⟨_, value⟩, ⟨rfl, front, behind, hsplit, hfront⟩, rfl⟩, hvalue⟩
    exact ⟨front, value, behind, hsplit, hfront, hvalue⟩

end CompileUnit

/-- The last of the units that begin at an address. -/
def LastAt (units : List CompileUnit) (low : UInt64) (u : CompileUnit) : Prop :=
  ∃ front behind, units = front ++ u :: behind ∧ u.BeginsAt low ∧
    ∀ v ∈ behind, ¬ v.BeginsAt low

section LastAt

variable {units : List CompileUnit} {low : UInt64} {u : CompileUnit}

theorem LastAt.mem (h : LastAt units low u) : u ∈ units := by
  obtain ⟨front, behind, rfl, -, -⟩ := h
  exact List.mem_append_right front List.mem_cons_self

theorem LastAt.beginsAt (h : LastAt units low u) : u.BeginsAt low := by
  obtain ⟨_, _, -, hbegins, -⟩ := h
  exact hbegins

theorem not_lastAt_nil : ¬ LastAt [] low u := by
  intro h
  exact List.not_mem_nil h.mem

theorem lastAt_concat {last : CompileUnit} :
    LastAt (units ++ [last]) low u ↔
      (last.BeginsAt low ∧ u = last) ∨ (¬ last.BeginsAt low ∧ LastAt units low u) := by
  constructor
  · rintro ⟨front, behind, hsplit, hbegins, hbehind⟩
    rcases List.eq_nil_or_concat behind with rfl | ⟨before, final, rfl⟩
    · obtain rfl := List.singleton_inj.1 (List.append_inj' hsplit rfl).2
      exact .inl ⟨hbegins, rfl⟩
    · rw [List.concat_eq_append] at hsplit hbehind
      rw [← List.cons_append, ← List.append_assoc] at hsplit
      obtain ⟨hbefore, hlast⟩ := List.append_inj' hsplit rfl
      obtain rfl := List.singleton_inj.1 hlast
      refine .inr ⟨hbehind last (by simp), front, before, hbefore, hbegins, fun v hv => ?_⟩
      exact hbehind v (List.mem_append_left _ hv)
  · rintro (⟨hbegins, rfl⟩ | ⟨hlast, front, behind, rfl, hbegins, hbehind⟩)
    · exact ⟨units, [], rfl, hbegins, by simp⟩
    · refine ⟨front, behind ++ [last], by simp, hbegins, fun v hv => ?_⟩
      rcases List.mem_append.1 hv with hv | hv
      · exact hbehind v hv
      · obtain rfl := List.mem_singleton.1 hv
        exact hlast

theorem exists_lastAt (hu : u ∈ units) (hbegins : u.BeginsAt low) : ∃ v, LastAt units low v := by
  induction units using List.reverseRecOn with
  | nil => contradiction
  | append_singleton units last ih =>
    by_cases hlast : last.BeginsAt low
    · exact ⟨last, lastAt_concat.2 (.inl ⟨hlast, rfl⟩)⟩
    · rcases List.mem_append.1 hu with hu | hu
      · obtain ⟨v, hv⟩ := ih hu
        exact ⟨v, lastAt_concat.2 (.inr ⟨hlast, hv⟩)⟩
      · obtain rfl := List.mem_singleton.1 hu
        contradiction

end LastAt

/-! ## The index -/

namespace LowAddresses

variable {index : LowAddresses} {low k : UInt64} {u v : CompileUnit}

/-- The highest address first, and each once. -/
def Descending (index : LowAddresses) : Prop := index.Pairwise fun e f => f.1 < e.1

theorem mem_insert (hindex : Descending index) :
    (k, v) ∈ insert low u index ↔ (k = low ∧ v = u) ∨ (k ≠ low ∧ (k, v) ∈ index) := by
  induction index with
  | nil => simp [insert]
  | cons first rest ih =>
    obtain ⟨key, other⟩ := first
    obtain ⟨hfirst, hrest⟩ := List.pairwise_cons.1 hindex
    have hbelow : (k, v) ∈ rest → k < key := hfirst (k, v)
    rw [insert]
    split
    · rename_i hlt
      have hne : (k, v) ∈ (key, other) :: rest → k ≠ low := by
        intro hmem
        rcases List.mem_cons.1 hmem with heq | hmem
        · exact (Prod.mk.inj heq).1 ▸ UInt64.ne_of_lt hlt
        · exact UInt64.ne_of_lt (UInt64.lt_trans (hbelow hmem) hlt)
      rw [List.mem_cons, Prod.mk.injEq, and_iff_right_of_imp hne]
    · split
      · rename_i hkey
        subst hkey
        have hne : (k, v) ∈ rest → k ≠ key := fun hmem => UInt64.ne_of_lt (hbelow hmem)
        simp only [List.mem_cons, Prod.mk.injEq]
        grind
      · rename_i hkey
        have hne : k = key → k ≠ low := fun heq => heq ▸ hkey
        simp only [List.mem_cons, Prod.mk.injEq, ih hrest]
        grind

theorem Descending.insert (hindex : Descending index) :
    Descending (index.insert low u) := by
  induction index with
  | nil => exact List.pairwise_singleton _ _
  | cons first rest ih =>
    obtain ⟨key, other⟩ := first
    obtain ⟨hfirst, hrest⟩ := List.pairwise_cons.1 hindex
    rw [LowAddresses.insert]
    split
    · rename_i hlt
      refine List.pairwise_cons.2 ⟨fun e he => ?_, hindex⟩
      rcases List.mem_cons.1 he with rfl | he
      · exact hlt
      · exact UInt64.lt_trans (hfirst e he) hlt
    · rename_i hle
      split
      · rename_i hkey
        exact List.pairwise_cons.2 ⟨hkey ▸ hfirst, hrest⟩
      · rename_i hkey
        refine List.pairwise_cons.2 ⟨fun e he => ?_, ih hrest⟩
        rcases (mem_insert hrest).1 he with ⟨hlow, -⟩ | ⟨-, he⟩
        · rw [hlow]
          exact UInt64.lt_of_le_of_ne (UInt64.not_lt.1 hle) (Ne.symm hkey)
        · exact hfirst e he

/-- A unit takes the place of what was at its lowest address and leaves the rest. -/
theorem mem_add (hindex : Descending index) :
    (k, v) ∈ index.add u ↔ (u.BeginsAt k ∧ v = u) ∨ (¬ u.BeginsAt k ∧ (k, v) ∈ index) := by
  rw [CompileUnit.beginsAt_iff, add]
  by_cases htag : u.tag = .compileUnit
  · rw [if_pos htag]
    cases hlow : u.lowAddress? with
    | none => simp
    | some low =>
      have hkey : some low = some k ↔ k = low := by rw [Option.some.injEq, eq_comm]
      simp only [mem_insert hindex, htag, hkey, true_and, ne_eq]
  · simp [htag]

theorem Descending.add (hindex : Descending index) (u : CompileUnit) :
    Descending (index.add u) := by
  rw [LowAddresses.add]
  split
  · split
    · exact hindex.insert
    · exact hindex
  · exact hindex

/-- The index holds the last unit of every address at which one begins. -/
theorem mem_ofUnits (units : List CompileUnit) :
    Descending (units.foldl add []) ∧
      ∀ low u, (low, u) ∈ units.foldl add [] ↔ LastAt units low u := by
  -- The unit added last is the one that replaces others, so the induction is on the front.
  induction units using List.reverseRecOn with
  | nil => exact ⟨List.Pairwise.nil, fun low u => by simp [not_lastAt_nil]⟩
  | append_singleton units last ih =>
    obtain ⟨hindex, hmem⟩ := ih
    rw [List.foldl_append]
    refine ⟨hindex.add last, fun low u => ?_⟩
    rw [List.foldl_cons, List.foldl_nil, mem_add hindex, lastAt_concat, hmem]

/-- The first entry that is not above an address is the greatest of these. -/
theorem Descending.find?_eq_some_iff (hindex : Descending index) {address : UInt64}
    {entry : UInt64 × CompileUnit} :
    index.find? (·.1 ≤ address) = some entry ↔
      entry ∈ index ∧ entry.1 ≤ address ∧ ∀ e ∈ index, e.1 ≤ address → e.1 ≤ entry.1 := by
  induction index with
  | nil => simp
  | cons first rest ih =>
    obtain ⟨hfirst, hrest⟩ := List.pairwise_cons.1 hindex
    by_cases hle : first.1 ≤ address
    · rw [List.find?_cons_of_pos (by simpa using hle)]
      constructor
      · intro heq
        obtain rfl := Option.some.inj heq
        refine ⟨List.mem_cons_self, hle, fun e he _ => ?_⟩
        rcases List.mem_cons.1 he with rfl | he
        · exact UInt64.le_refl _
        · exact UInt64.le_of_lt (hfirst e he)
      · rintro ⟨hmem, -, hgreatest⟩
        rcases List.mem_cons.1 hmem with rfl | hmem
        · rfl
        · -- An entry further back is lower than the first one, which is low enough already.
          have hfirst' := hgreatest first List.mem_cons_self hle
          exact absurd (hfirst entry hmem) (UInt64.not_lt.2 hfirst')
    · rw [List.find?_cons_of_neg (by simpa using hle), ih hrest]
      have hne : entry.1 ≤ address → entry ≠ first := by
        rintro hentry rfl
        exact hle hentry
      simp only [List.mem_cons, forall_eq_or_imp, hle, false_imp_iff, true_and]
      grind

end LowAddresses

/-! ## The search -/

namespace UnitIndex

open LowAddresses

variable {units : List CompileUnit} {address : UInt64} {u : CompileUnit}

theorem covering?_eq_some_iff :
    (ofUnits units).covering? address = some u ↔
      ∃ low, LastAt units low u ∧ low ≤ address ∧
        ∀ v ∈ units, ∀ other, v.BeginsAt other → other ≤ address → other ≤ low := by
  obtain ⟨hindex, hmem⟩ := mem_ofUnits units
  show ((units.foldl add []).find? (·.1 ≤ address)).map (·.2) = some u ↔ _
  simp only [Option.map_eq_some_iff, hindex.find?_eq_some_iff]
  constructor
  · rintro ⟨⟨low, v⟩, ⟨hentry, hle, hgreatest⟩, rfl⟩
    refine ⟨low, (hmem low v).1 hentry, hle, fun w hw other hother => ?_⟩
    obtain ⟨x, hx⟩ := exists_lastAt hw hother
    exact hgreatest (other, x) ((hmem other x).2 hx)
  · rintro ⟨low, hlast, hle, hgreatest⟩
    refine ⟨(low, u), ⟨(hmem low u).2 hlast, hle, fun e he => ?_⟩, rfl⟩
    have hlast' := (hmem e.1 e.2).1 he
    exact hgreatest e.2 hlast'.mem e.1 hlast'.beginsAt

theorem covering?_eq_none_iff :
    (ofUnits units).covering? address = none ↔
      ∀ v ∈ units, ∀ low, v.BeginsAt low → address < low := by
  obtain ⟨-, hmem⟩ := mem_ofUnits units
  show ((units.foldl add []).find? (·.1 ≤ address)).map (·.2) = none ↔ _
  rw [Option.map_eq_none_iff, List.find?_eq_none]
  simp only [decide_eq_true_eq, UInt64.not_le]
  constructor
  · intro habove v hv low hlow
    obtain ⟨x, hx⟩ := exists_lastAt hv hlow
    exact habove (low, x) ((hmem low x).2 hx)
  · intro habove e he
    have hlast := (hmem e.1 e.2).1 he
    exact habove e.2 hlast.mem e.1 hlast.beginsAt

theorem indexedCount_eq (units : List CompileUnit) :
    (ofUnits units).indexedCount = {low | ∃ u ∈ units, u.BeginsAt low}.ncard := by
  obtain ⟨hindex, hmem⟩ := mem_ofUnits units
  have hkeys : {low | ∃ u ∈ units, u.BeginsAt low} =
      ↑((units.foldl add []).map (·.1)).toFinset := by
    ext low
    simp only [Set.mem_ofPred_eq, List.coe_toFinset, List.mem_map, Prod.exists, exists_and_right,
      exists_eq_right, hmem]
    constructor
    · rintro ⟨u, hu, hbegins⟩
      exact exists_lastAt hu hbegins
    · rintro ⟨u, hlast⟩
      exact ⟨u, hlast.mem, hlast.beginsAt⟩
  have hnodup : ((units.foldl add []).map (·.1)).Nodup :=
    List.pairwise_map.2 (hindex.imp fun hlt => Ne.symm (UInt64.ne_of_lt hlt))
  rw [hkeys, Set.ncard_coe_finset, List.toFinset_card_of_nodup hnodup, List.length_map]
  rfl

/-- An address is covered by the last of the units that begin highest among those that do not
begin above it, and by none if all begin above it.  Units count once for each address at
which they begin.  A higher address is covered by a unit that begins no lower. -/
theorem covering?_floor (units : List CompileUnit) :
    (∀ address, (ofUnits units).covering? address = none ↔
      ∀ u ∈ units, ∀ low, u.BeginsAt low → address < low) ∧
    (∀ address u, (ofUnits units).covering? address = some u ↔
      ∃ front behind low, units = front ++ u :: behind ∧ u.BeginsAt low ∧ low ≤ address ∧
        (∀ v ∈ units, ∀ other, v.BeginsAt other → other ≤ address → other ≤ low) ∧
        ∀ v ∈ behind, ¬ v.BeginsAt low) ∧
    (ofUnits units).indexedCount = {low | ∃ u ∈ units, u.BeginsAt low}.ncard ∧
    ∀ a b u, a ≤ b → (ofUnits units).covering? a = some u →
      ∃ v low high, (ofUnits units).covering? b = some v ∧ u.BeginsAt low ∧ v.BeginsAt high ∧
        low ≤ high := by
  refine ⟨fun address => covering?_eq_none_iff, fun address u => ?_, indexedCount_eq units,
    fun a b u hab hu => ?_⟩
  · rw [covering?_eq_some_iff]
    constructor
    · rintro ⟨low, ⟨front, behind, hsplit, hbegins, hbehind⟩, hle, hgreatest⟩
      exact ⟨front, behind, low, hsplit, hbegins, hle, hgreatest, hbehind⟩
    · rintro ⟨front, behind, low, hsplit, hbegins, hle, hgreatest, hbehind⟩
      exact ⟨low, ⟨front, behind, hsplit, hbegins, hbehind⟩, hle, hgreatest⟩
  · obtain ⟨low, hlast, hle, -⟩ := covering?_eq_some_iff.1 hu
    have hbelow : low ≤ b := UInt64.le_trans hle hab
    cases hv : (ofUnits units).covering? b with
    | none =>
      have habove := covering?_eq_none_iff.1 hv u hlast.mem low hlast.beginsAt
      exact absurd habove (UInt64.not_lt.2 hbelow)
    | some v =>
      obtain ⟨high, hlast', -, hgreatest⟩ := covering?_eq_some_iff.1 hv
      exact ⟨v, low, high, rfl, hlast.beginsAt, hlast'.beginsAt,
        hgreatest u hlast.mem low hlast.beginsAt hbelow⟩

/-- The second unit at address 32. -/
def secondUnit : CompileUnit := ⟨20, .compileUnit, [⟨.lowPc, .unsigned 32⟩, ⟨.lowPc, .address 8⟩]⟩

/-- Two units at address 32, one at address 64 and one at address 1, between units that are
not indexed: for their tag, for a text before the number, and for a negative number. -/
def crowdedUnits : List CompileUnit :=
  [⟨0, .compileUnit, [⟨.lowPc, .address 32⟩]⟩, ⟨10, 0x3C, [⟨.lowPc, .address 36⟩]⟩,
    ⟨15, .compileUnit, [⟨.lowPc, .signed 64⟩]⟩, secondUnit,
    ⟨30, .compileUnit, [⟨.lowPc, .text "low"⟩, ⟨.lowPc, .address 40⟩]⟩,
    ⟨40, .compileUnit, [⟨.lowPc, .signed (-1)⟩]⟩, ⟨50, .compileUnit, [⟨.lowPc, .flag true⟩]⟩]

theorem covering?_floor_sample :
    (ofUnits crowdedUnits).covering? 40 = some secondUnit ∧
      (∃ front behind low, crowdedUnits = front ++ secondUnit :: behind ∧
        secondUnit.BeginsAt low ∧ low ≤ 40 ∧ ∀ v ∈ behind, ¬ v.BeginsAt low) ∧
      (ofUnits crowdedUnits).covering? 0 = none ∧
      (∀ u ∈ crowdedUnits, ∀ low, u.BeginsAt low → 0 < low) ∧
      {low | ∃ u ∈ crowdedUnits, u.BeginsAt low}.ncard = 3 ∧
      ∃ v low high, (ofUnits crowdedUnits).covering? 70 = some v ∧ secondUnit.BeginsAt low ∧
        v.BeginsAt high ∧ low ≤ high := by
  obtain ⟨hnone, hsome, hcount, hmonotone⟩ := covering?_floor crowdedUnits
  have hsecond : (ofUnits crowdedUnits).covering? 40 = some secondUnit := rfl
  have hbelow : (ofUnits crowdedUnits).covering? 0 = none := rfl
  obtain ⟨front, behind, low, hsplit, hbegins, hle, -, hbehind⟩ := (hsome 40 secondUnit).1 hsecond
  refine ⟨hsecond, ⟨front, behind, low, hsplit, hbegins, hle, hbehind⟩, hbelow, (hnone 0).1 hbelow,
    hcount.symm, hmonotone 40 70 secondUnit (by decide) hsecond⟩

end UnitIndex
end LineTable
