/-
Numerals: numbers as they are written and read back.

A number is read one digit at a time, and each digit is tested against the limit.  The value
never decreases on the way, so it is enough that the last one keeps the limit
(`Number.digits_eq_ok_iff`).  So a word is read from digits whose value it can hold, behind at
most one sign, and from no other text (`Number.parseUnsigned_eq_ok_iff`,
`Number.parseSigned_eq_ok_iff`).  A numeral is the digits of a number behind any zeros, its
letters in either case; these are digits with that number as their value
(`Number.IsNumeral.isDigits`).
-/
import LineTable.Text.Number
import Mathlib

namespace LineTable

theorem map_eq_ok_iff {ε α β : Type} {f : α → β} {x : Except ε α} {b : β} :
    f <$> x = .ok b ↔ ∃ a, x = .ok a ∧ f a = b := by
  cases x <;> simp [Functor.map, Except.map]

theorem mapError_eq_ok_iff {ε ε' α : Type} {f : ε → ε'} {x : Except ε α} {a : α} :
    x.mapError f = .ok a ↔ x = .ok a := by
  cases x <;> simp [Except.mapError]

namespace Number

variable {base limit value n : Nat} {overflow : NumberError} {text : List Char}

/-! ## Reading -/

/-- Appends digits to a value without a limit. -/
def append? (base value : Nat) : List Char → Option Nat
  | [] => some value
  | c :: rest => do append? base (value * base + (← digit? base c)) rest

theorem le_of_append? (hbase : 0 < base) (h : append? base value text = some n) : value ≤ n := by
  induction text generalizing value with
  | nil => exact Nat.le_of_eq (Option.some.inj h)
  | cons c rest ih =>
    obtain ⟨d, -, hrest⟩ := Option.bind_eq_some_iff.1 h
    calc value
      _ ≤ value * base := Nat.le_mul_of_pos_right value hbase
      _ ≤ value * base + d := Nat.le_add_right _ d
      _ ≤ n := ih hrest

/-- Digits within a limit are digits whose value keeps it. -/
theorem digits_eq_ok_iff (hbase : 0 < base) (hvalue : value ≤ limit) :
    digits base limit overflow value text = .ok n ↔
      append? base value text = some n ∧ n ≤ limit := by
  induction text generalizing value with
  | nil =>
    simp only [digits, append?, Except.ok.injEq, Option.some.injEq]
    constructor
    · rintro rfl
      exact ⟨rfl, hvalue⟩
    · exact fun h => h.1
  | cons c rest ih =>
    rw [digits, append?]
    cases digit? base c with
    | none => simp
    | some d =>
      show (if value * base + d ≤ limit then _ else _) = _ ↔
        append? base (value * base + d) rest = some n ∧ n ≤ limit
      by_cases hnext : value * base + d ≤ limit
      · rw [if_pos hnext]
        exact ih hnext
      · rw [if_neg hnext]
        constructor
        · intro h
          contradiction
        · rintro ⟨hrest, hlimit⟩
          exact absurd (Nat.le_trans (le_of_append? hbase hrest) hlimit) hnext

theorem append?_concat {front : List Char} {c : Char} :
    append? base value (front ++ [c]) = do
      let before ← append? base value front
      let d ← digit? base c
      return before * base + d := by
  induction front generalizing value with
  | nil => rfl
  | cons first rest ih =>
    rw [List.cons_append, append?, append?]
    cases digit? base first with
    | none => rfl
    | some d => exact ih

/-! ## Letter case

A letter in upper case has the code of the one in lower case less 32, and the same value. -/

theorem isUpper_iff {c : Char} : c.isUpper ↔ 65 ≤ c.toNat ∧ c.toNat ≤ 90 := by
  simp [Char.isUpper, UInt32.le_iff_toNat_le]

theorem toNat_toLower {c : Char} (hupper : c.isUpper) : c.toLower.toNat = c.toNat + 32 := by
  have hcode := isUpper_iff.1 hupper
  have hvalid : (c.toNat + 32).isValidChar := .inl (by omega)
  rw [Char.toLower_eq_of_isUpper hupper, Char.toNat_ofNat, if_pos hvalid]

/-- The value of a character with this code as a digit, and the base when it is none. -/
def digitValue (base code : Nat) : Nat :=
  if 48 ≤ code ∧ code ≤ 57 then code - 48
  else if 97 ≤ code ∧ code ≤ 122 then code - 97 + 10
  else if 65 ≤ code ∧ code ≤ 90 then code - 65 + 10
  else base

theorem digit?_eq (c : Char) :
    digit? base c =
      if digitValue base c.toNat < base then some (digitValue base c.toNat) else none := by
  simp only [digit?, Char.le_def, UInt32.le_iff_toNat_le]
  rfl

theorem digit?_toLower (c : Char) : digit? base c.toLower = digit? base c := by
  by_cases hupper : c.isUpper
  · have hcode := isUpper_iff.1 hupper
    have hvalue : digitValue base c.toLower.toNat = digitValue base c.toNat := by
      rw [toNat_toLower hupper]
      unfold digitValue
      split_ifs <;> omega
    rw [digit?_eq, digit?_eq, hvalue]
  · rw [Char.toLower_eq_of_not_isUpper hupper]

theorem append?_map_toLower :
    append? base value (text.map Char.toLower) = append? base value text := by
  induction text generalizing value with
  | nil => rfl
  | cons c rest ih =>
    rw [List.map_cons, append?, append?, digit?_toLower]
    cases digit? base c with
    | none => rfl
    | some d => exact ih

/-! ## Writing -/

/-- The text writes a number with the digits of a base behind any zeros, letters in either case. -/
def IsNumeral (base n : Nat) (text : List Char) : Prop :=
  ∃ zeros, text.map Char.toLower = List.replicate zeros '0' ++ Nat.toDigits base n

theorem digit?_digitChar {d : Nat} (hd : d < base) (hbase : base ≤ 16) :
    digit? base d.digitChar = some d := by
  have hd16 : d < 16 := Nat.lt_of_lt_of_le hd hbase
  interval_cases d <;> simp [digit?, Nat.digitChar, hd]

theorem append?_zeros (hbase : 0 < base) (zeros : Nat) :
    append? base 0 (List.replicate zeros '0' ++ text) = append? base 0 text := by
  have hzero : digit? base '0' = some 0 := if_pos hbase
  induction zeros with
  | zero => rfl
  | succ zeros ih =>
    rw [List.replicate_succ, List.cons_append, append?, hzero]
    show append? base (0 * base + 0) _ = _
    rw [Nat.zero_mul]
    exact ih

theorem append?_toDigits (hbase : 1 < base) (hbase16 : base ≤ 16) (n : Nat) :
    append? base 0 (Nat.toDigits base n) = some n := by
  induction n using Nat.strongRecOn with
  | _ n ih =>
    rw [Nat.toDigits_eq_if hbase]
    by_cases hn : n < base
    · rw [if_pos hn, append?, digit?_digitChar hn hbase16]
      simp [append?]
    · have hshorter : n / base < n := Nat.div_lt_self (by omega) hbase
      have hlast : n % base < base := Nat.mod_lt _ (by omega)
      rw [if_neg hn, append?_concat, ih _ hshorter, digit?_digitChar hlast hbase16]
      show some (n / base * base + n % base) = some n
      rw [Nat.div_add_mod']

theorem append?_of_numeral (hbase : 1 < base) (hbase16 : base ≤ 16) (h : IsNumeral base n text) :
    append? base 0 text = some n := by
  obtain ⟨zeros, htext⟩ := h
  rw [← append?_map_toLower, htext, append?_zeros (by omega), append?_toDigits hbase hbase16]

theorem isSome_digit?_of_append? {c : Char} (h : append? base value text = some n)
    (hc : c ∈ text) : (digit? base c).isSome := by
  induction text generalizing value with
  | nil => exact absurd hc List.not_mem_nil
  | cons first rest ih =>
    obtain ⟨d, hd, hrest⟩ := Option.bind_eq_some_iff.1 h
    cases hc with
    | head => exact Option.isSome_of_eq_some hd
    | tail _ hc => exact ih hrest hc

theorem IsNumeral.exists_cons (h : IsNumeral base n text) : ∃ c rest, text = c :: rest := by
  obtain ⟨zeros, htext⟩ := h
  refine List.exists_cons_of_ne_nil fun hnil => ?_
  rw [hnil, List.map_nil] at htext
  exact Nat.toDigits_ne_nil (List.append_eq_nil_iff.1 htext.symm).2

theorem IsNumeral.isSome_digit? (hbase : 1 < base) (hbase16 : base ≤ 16)
    (h : IsNumeral base n text) {c : Char} (hc : c ∈ text) : (digit? base c).isSome :=
  isSome_digit?_of_append? (append?_of_numeral hbase hbase16 h) hc

/-- A numeral begins with a digit. -/
theorem IsNumeral.exists_digit (hbase : 1 < base) (hbase16 : base ≤ 16)
    (h : IsNumeral base n text) : ∃ c rest, text = c :: rest ∧ (digit? base c).isSome := by
  obtain ⟨c, rest, rfl⟩ := h.exists_cons
  exact ⟨c, rest, rfl, h.isSome_digit? hbase hbase16 List.mem_cons_self⟩

theorem toLower_digitChar {d : Nat} (hd : d < 16) : d.digitChar.toLower = d.digitChar := by
  interval_cases d <;> rfl

theorem map_toLower_toDigits (hbase : 1 < base) (hbase16 : base ≤ 16) (n : Nat) :
    (Nat.toDigits base n).map Char.toLower = Nat.toDigits base n := by
  induction n using Nat.strongRecOn with
  | _ n ih =>
    rw [Nat.toDigits_eq_if hbase]
    by_cases hn : n < base
    · rw [if_pos hn, List.map_singleton, toLower_digitChar (by omega)]
    · have hshorter : n / base < n := Nat.div_lt_self (by omega) hbase
      have hlast : n % base < base := Nat.mod_lt _ (by omega)
      rw [if_neg hn, List.map_append, ih _ hshorter, List.map_singleton,
        toLower_digitChar (by omega)]

theorem isNumeral_toDigits (hbase : 1 < base) (hbase16 : base ≤ 16) (zeros n : Nat) :
    IsNumeral base n (List.replicate zeros '0' ++ Nat.toDigits base n) := by
  refine ⟨zeros, ?_⟩
  rw [List.map_append, List.map_replicate, map_toLower_toDigits hbase hbase16]
  rfl

theorem isNumeral_repr (n : Nat) : IsNumeral 10 n (Nat.repr n).toList := by
  rw [Nat.toList_repr]
  exact isNumeral_toDigits (by omega) (by omega) 0 n

/-! ## Digits and their value -/

/-- One or more digits of a base, the highest first and letters in either case, with the value
that they have together. -/
def IsDigits (base n : Nat) (text : List Char) : Prop :=
  ∃ ds : List Nat, ds ≠ [] ∧ (∀ d ∈ ds, d < base) ∧
    text.map Char.toLower = ds.map Nat.digitChar ∧ Nat.ofDigits base ds.reverse = n

theorem toNat_digitChar {d : Nat} (hd : d < 16) :
    d.digitChar.toNat = if d < 10 then d + 48 else d + 87 := by
  interval_cases d <;> rfl

theorem digit?_eq_some_iff (hbase16 : base ≤ 16) {c : Char} {d : Nat} :
    digit? base c = some d ↔ d < base ∧ c.toLower = d.digitChar := by
  constructor
  · intro h
    have hvalue : digitValue base c.toNat < base ∧ digitValue base c.toNat = d := by
      rwa [digit?_eq, Option.ite_none_right_eq_some, Option.some.injEq] at h
    obtain ⟨hd, rfl⟩ := hvalue
    refine ⟨hd, Char.toNat_inj.1 ?_⟩
    rw [toNat_digitChar (by omega)]
    unfold digitValue at hd ⊢
    by_cases hupper : c.isUpper
    · have hcode := isUpper_iff.1 hupper
      rw [toNat_toLower hupper]
      split_ifs at hd ⊢ <;> omega
    · rw [isUpper_iff] at hupper
      rw [Char.toLower_eq_of_not_isUpper (by rwa [isUpper_iff])]
      split_ifs at hd ⊢ <;> omega
  · intro ⟨hd, hlower⟩
    rw [← digit?_toLower, hlower, digit?_digitChar hd hbase16]

theorem append?_eq_some_iff (hbase16 : base ≤ 16) :
    append? base value text = some n ↔
      ∃ ds : List Nat, (∀ d ∈ ds, d < base) ∧ text.map Char.toLower = ds.map Nat.digitChar ∧
        ds.foldl (fun before d => before * base + d) value = n := by
  induction text generalizing value with
  | nil =>
    constructor
    · intro h
      exact ⟨[], by simp, rfl, Option.some.inj h⟩
    · rintro ⟨ds, -, htext, hvalue⟩
      obtain rfl : ds = [] := List.map_eq_nil_iff.1 htext.symm
      exact congrArg some hvalue
  | cons c rest ih =>
    rw [append?, Option.bind_eq_bind, Option.bind_eq_some_iff]
    constructor
    · intro ⟨d, hdigit, hrest⟩
      obtain ⟨hd, hlower⟩ := (digit?_eq_some_iff hbase16).1 hdigit
      obtain ⟨ds, hds, htext, hvalue⟩ := ih.1 hrest
      refine ⟨d :: ds, List.forall_mem_cons.2 ⟨hd, hds⟩, ?_, hvalue⟩
      rw [List.map_cons, List.map_cons, hlower, htext]
    · intro ⟨ds, hds, htext, hvalue⟩
      obtain ⟨d, others, rfl, hlower, hothers⟩ := List.map_eq_cons_iff.1 htext.symm
      obtain ⟨hd, hothersLt⟩ := List.forall_mem_cons.1 hds
      exact ⟨d, (digit?_eq_some_iff hbase16).2 ⟨hd, hlower.symm⟩,
        ih.2 ⟨others, hothersLt, hothers.symm, hvalue⟩⟩

theorem foldl_eq_ofDigits (base : Nat) (ds : List Nat) :
    ds.foldl (fun before d => before * base + d) 0 = Nat.ofDigits base ds.reverse := by
  rw [Nat.ofDigits_eq_foldr, List.foldr_reverse]
  simp only [Nat.cast_id, Nat.mul_comm base, Nat.add_comm]

theorem not_isDigits_nil : ¬IsDigits base n [] := by
  intro ⟨ds, hne, _, htext, _⟩
  exact hne (List.map_eq_nil_iff.1 htext.symm)

theorem isDigits_iff (hbase16 : base ≤ 16) :
    IsDigits base n text ↔ text ≠ [] ∧ append? base 0 text = some n := by
  simp only [append?_eq_some_iff hbase16, foldl_eq_ofDigits]
  constructor
  · intro h
    have hne : text ≠ [] := by
      rintro rfl
      exact not_isDigits_nil h
    obtain ⟨ds, -, hds, htext, hvalue⟩ := h
    exact ⟨hne, ds, hds, htext, hvalue⟩
  · intro ⟨hne, ds, hds, htext, hvalue⟩
    refine ⟨ds, ?_, hds, htext, hvalue⟩
    rintro rfl
    exact hne (List.map_eq_nil_iff.1 htext)

theorem IsNumeral.isDigits (hbase : 1 < base) (hbase16 : base ≤ 16) (h : IsNumeral base n text) :
    IsDigits base n text := by
  obtain ⟨c, rest, htext⟩ := h.exists_cons
  exact (isDigits_iff hbase16).2
    ⟨htext ▸ List.cons_ne_nil c rest, append?_of_numeral hbase hbase16 h⟩

/-- A magnitude is read from digits whose value keeps the limit, and from nothing else. -/
theorem magnitude_eq_ok_iff (hbase : 0 < base) (hbase16 : base ≤ 16) :
    magnitude base limit overflow text = .ok n ↔ IsDigits base n text ∧ n ≤ limit := by
  rw [isDigits_iff hbase16]
  cases text with
  | nil => simp [magnitude]
  | cons c rest =>
    show digits base limit overflow 0 (c :: rest) = .ok n ↔ _
    rw [digits_eq_ok_iff hbase (Nat.zero_le _)]
    simp

/-- A sign is no digit of any base. -/
theorem ne_sign_of_digit {c : Char} (hc : (digit? base c).isSome) : c ≠ '+' ∧ c ≠ '-' := by
  constructor <;> rintro rfl <;> simp [digit?] at hc

theorem IsDigits.isSome_digit? (hbase16 : base ≤ 16) (h : IsDigits base n text) {c : Char}
    (hc : c ∈ text) : (digit? base c).isSome :=
  isSome_digit?_of_append? ((isDigits_iff hbase16).1 h).2 hc

theorem not_isDigits_sign {c : Char} (hbase16 : base ≤ 16) (hc : c = '+' ∨ c = '-') :
    ¬IsDigits base n (c :: text) := by
  intro h
  obtain ⟨hplus, hminus⟩ := ne_sign_of_digit (h.isSome_digit? hbase16 List.mem_cons_self)
  exact hc.elim hplus hminus

theorem not_isAlpha_of_digit {c : Char} (hc : (digit? 10 c).isSome) : ¬c.isAlpha := by
  have hvalue : digitValue 10 c.toNat < 10 := by
    by_contra hnot
    rw [digit?_eq, if_neg hnot] at hc
    contradiction
  have hcode : c.toNat ≤ 57 := by
    unfold digitValue at hvalue
    split_ifs at hvalue <;> omega
  have hval : c.val.toNat ≤ 57 := hcode
  simp only [Char.isAlpha, Char.isUpper, Char.isLower, Bool.or_eq_true, Bool.and_eq_true,
    decide_eq_true_eq, ge_iff_le, UInt32.le_iff_toNat_le, UInt32.reduceToNat, Char.reduceVal]
  omega

/-! ## Words of 64 bits -/

/-- Digits behind at most one plus sign. -/
inductive IsUnsigned (base n : Nat) : List Char → Prop
  | bare {text : List Char} (h : IsDigits base n text) : IsUnsigned base n text
  | plus {text : List Char} (h : IsDigits base n text) : IsUnsigned base n ('+' :: text)

/-- Decimal digits behind at most one sign. -/
inductive IsSigned (z : Int) : List Char → Prop
  | bare {n : Nat} {text : List Char} (hz : z = n) (h : IsDigits 10 n text) : IsSigned z text
  | plus {n : Nat} {text : List Char} (hz : z = n) (h : IsDigits 10 n text) :
      IsSigned z ('+' :: text)
  | minus {n : Nat} {text : List Char} (hz : z = -n) (h : IsDigits 10 n text) :
      IsSigned z ('-' :: text)

theorem isUnsigned_plus_iff (hbase16 : base ≤ 16) :
    IsUnsigned base n ('+' :: text) ↔ IsDigits base n text := by
  constructor
  · intro h
    cases h with
    | bare h => exact absurd h (not_isDigits_sign hbase16 (.inl rfl))
    | plus h => exact h
  · exact .plus

theorem isUnsigned_iff (hplus : ∀ rest, text ≠ '+' :: rest) :
    IsUnsigned base n text ↔ IsDigits base n text := by
  constructor
  · intro h
    cases h with
    | bare h => exact h
    | plus h => exact absurd rfl (hplus _)
  · exact .bare

theorem isSigned_plus_iff {z : Int} :
    IsSigned z ('+' :: text) ↔ ∃ n : Nat, z = n ∧ IsDigits 10 n text := by
  constructor
  · intro h
    cases h with
    | bare _ h => exact absurd h (not_isDigits_sign (by omega) (.inl rfl))
    | plus hz h => exact ⟨_, hz, h⟩
  · intro ⟨n, hz, h⟩
    exact .plus hz h

theorem isSigned_minus_iff {z : Int} :
    IsSigned z ('-' :: text) ↔ ∃ n : Nat, z = -n ∧ IsDigits 10 n text := by
  constructor
  · intro h
    cases h with
    | bare _ h => exact absurd h (not_isDigits_sign (by omega) (.inr rfl))
    | minus hz h => exact ⟨_, hz, h⟩
  · intro ⟨n, hz, h⟩
    exact .minus hz h

theorem isSigned_iff {z : Int} (hplus : ∀ rest, text ≠ '+' :: rest)
    (hminus : ∀ rest, text ≠ '-' :: rest) :
    IsSigned z text ↔ ∃ n : Nat, z = n ∧ IsDigits 10 n text := by
  constructor
  · intro h
    cases h with
    | bare hz h => exact ⟨_, hz, h⟩
    | plus _ h => exact absurd rfl (hplus _)
    | minus _ h => exact absurd rfl (hminus _)
  · intro ⟨n, hz, h⟩
    exact .bare hz h

theorem unsigned_magnitude_eq_ok_iff (hbase : 0 < base) (hbase16 : base ≤ 16) {a : UInt64} :
    UInt64.ofNat <$> magnitude base (UInt64.size - 1) overflow text = .ok a ↔
      IsDigits base a.toNat text := by
  simp only [map_eq_ok_iff, magnitude_eq_ok_iff hbase hbase16]
  constructor
  · rintro ⟨n, ⟨h, hn⟩, rfl⟩
    have hsize : n < UInt64.size := Nat.lt_of_le_pred (by decide) hn
    rwa [UInt64.toNat_ofNat_of_lt' hsize]
  · intro h
    exact ⟨a.toNat, ⟨h, Nat.le_pred_of_lt a.toNat_lt_size⟩, UInt64.ofNat_toNat⟩

theorem parseUnsigned_eq_ok_iff (hbase : 0 < base) (hbase16 : base ≤ 16) {a : UInt64} :
    parseUnsigned base text = .ok a ↔ IsUnsigned base a.toNat text := by
  unfold parseUnsigned
  split
  · rw [isUnsigned_iff (by simp)]
    exact iff_of_false nofun not_isDigits_nil
  · rw [unsigned_magnitude_eq_ok_iff hbase hbase16, isUnsigned_plus_iff hbase16]
  · next hnil hplus =>
    rw [unsigned_magnitude_eq_ok_iff hbase hbase16, isUnsigned_iff hplus]

/-- A magnitude read up to a limit makes up a word, if exactly the magnitudes up to the limit do
so with their sign. -/
theorem signed_magnitude_eq_ok_iff {sign : Nat → Int} {l : Int64}
    (hlimit : ∀ n, n ≤ limit ↔ -2 ^ 63 ≤ sign n ∧ sign n < 2 ^ 63) :
    Int64.ofInt <$> (sign <$> magnitude 10 limit overflow text) = .ok l ↔
      ∃ n, l.toInt = sign n ∧ IsDigits 10 n text := by
  simp only [map_eq_ok_iff, magnitude_eq_ok_iff (by omega : 0 < 10) (by omega)]
  constructor
  · rintro ⟨_, ⟨n, ⟨h, hn⟩, rfl⟩, rfl⟩
    obtain ⟨hlow, hhigh⟩ := (hlimit n).1 hn
    exact ⟨n, Int64.toInt_ofInt_of_le hlow hhigh, h⟩
  · intro ⟨n, hz, h⟩
    have hn : n ≤ limit := by
      rw [hlimit, ← hz]
      exact ⟨l.le_toInt, l.toInt_lt⟩
    exact ⟨sign n, ⟨n, ⟨h, hn⟩, rfl⟩, by rw [← hz, Int64.ofInt_toInt]⟩

theorem parseSigned_eq_ok_iff {l : Int64} :
    parseSigned text = .ok l ↔ IsSigned l.toInt text := by
  -- There is one more negative word than there are positive ones, so the limits differ.
  have hhigh (n : Nat) :
      n ≤ UInt64.size / 2 - 1 ↔ -2 ^ 63 ≤ Int.ofNat n ∧ Int.ofNat n < 2 ^ 63 := by
    simp only [UInt64.size, Int.ofNat_eq_natCast]
    omega
  have hlow (n : Nat) :
      n ≤ UInt64.size / 2 ↔ -2 ^ 63 ≤ -Int.ofNat n ∧ -Int.ofNat n < 2 ^ 63 := by
    simp only [UInt64.size, Int.ofNat_eq_natCast]
    omega
  unfold parseSigned
  split
  · rw [isSigned_iff (by simp) (by simp)]
    exact iff_of_false nofun fun ⟨_, _, h⟩ => not_isDigits_nil h
  · rw [signed_magnitude_eq_ok_iff hhigh, isSigned_plus_iff]
    rfl
  · rw [signed_magnitude_eq_ok_iff hlow, isSigned_minus_iff]
    rfl
  · next hnil hplus hminus =>
    rw [signed_magnitude_eq_ok_iff hhigh, isSigned_iff hplus hminus]
    rfl

/-- The text writes a whole number in decimal, behind a minus sign when it is negative. -/
inductive IsDecimal : Int → List Char → Prop
  | unsigned {n : Nat} {text : List Char} (h : IsNumeral 10 n text) : IsDecimal n text
  | negative {n : Nat} {text : List Char} (h : IsNumeral 10 n text) : IsDecimal (-n) ('-' :: text)

theorem IsDecimal.isSigned {z : Int} (h : IsDecimal z text) : IsSigned z text := by
  cases h with
  | unsigned h => exact .bare rfl (h.isDigits (by omega) (by omega))
  | negative h => exact .minus rfl (h.isDigits (by omega) (by omega))

theorem isDecimal_toString (z : Int) : IsDecimal z (toString z).toList := by
  rw [Int.toString_eq_repr]
  cases z with
  | ofNat n => exact .unsigned (isNumeral_repr n)
  | negSucc n =>
    have hminus : (Int.repr (.negSucc n)).toList = '-' :: (Nat.repr (n + 1)).toList := by
      simp [Int.repr]
    rw [hminus]
    exact .negative (isNumeral_repr (n + 1))

end Number
end LineTable
