/-
Addresses as texts, and what commands print read back.

An address is read from digits behind at most one plus sign, hexadecimal ones behind `0x` or
`0X` and decimal ones otherwise, as long as a word can hold their value; no other text is read
(`parseAddress_eq_ok_iff`).  What is printed in hexadecimal is a text of that kind, and it
holds no dash.  So the two bounds of a printed range can be told apart, and both read back as
themselves (`addresses_read_exactly`).
-/
import LineTable.Proofs.CommandLines
import LineTable.Proofs.Printing

namespace LineTable
namespace CommandLine

variable {a : UInt64}

theorem parseAddress_hex (a : UInt64) : parseAddress (Number.hex a.toNat) = .ok a :=
  parseAddress_of_addressText (addressText_hex a)

theorem parseAddress_renderAddress (h : a ≠ 0) : parseAddress (renderAddress a) = .ok a := by
  rw [renderAddress, noAddress, if_neg h]
  exact parseAddress_hex a

theorem toList_hex (n : Nat) : (Number.hex n).toList = '0' :: 'x' :: Nat.toDigits 16 n := by
  simp [Number.hex]

theorem dash_notMem_hex (n : Nat) : '-' ∉ (Number.hex n).toList := by
  have hdigits : Number.IsNumeral 16 n (Nat.toDigits 16 n) :=
    Number.isNumeral_toDigits (by omega) (by omega) 0 n
  rw [toList_hex]
  intro h
  rcases List.mem_cons.1 h with h | h
  · exact absurd h (by decide)
  rcases List.mem_cons.1 h with h | h
  · exact absurd h (by decide)
  · exact (Number.ne_sign_of_digit (hdigits.isSome_digit? (by omega) (by omega) h)).2 rfl

/-- The line has two parts with a dash between them, which are read as the bounds of the
interval. -/
def ReadsBack (i : Interval UInt64) (line : String) : Prop :=
  ∃ first last : String, line.toList.splitOn '-' = [first.toList, last.toList] ∧
    parseAddress first = .ok i.first ∧ parseAddress last = .ok i.last

theorem readsBack_renderAddresses (i : Interval UInt64) : ReadsBack i (renderAddresses i) := by
  refine ⟨Number.hex i.first.toNat, Number.hex i.last.toNat, ?_, parseAddress_hex i.first,
    parseAddress_hex i.last⟩
  have hline : (renderAddresses i).toList =
      (Number.hex i.first.toNat).toList ++ '-' :: (Number.hex i.last.toNat).toList := by
    simp only [renderAddresses, String.toList_append, List.append_assoc]
    rfl
  rw [hline, List.splitOn_append_cons_self_of_not_mem (dash_notMem_hex _),
    List.splitOn_eq_singleton (dash_notMem_hex _)]

/-- Exactly the texts that state an address are read, as that address.  Both ways in which an
address is written read back as it, and so do what the statement commands print, unless it
stands for no address, and the bounds that the line command prints. -/
theorem addresses_read_exactly :
    (∀ text a, parseAddress text = .ok a ↔ StatesAddress a text.toList) ∧
      (∀ a : UInt64, parseAddress (toString a) = .ok a ∧
        parseAddress (Number.hex a.toNat) = .ok a) ∧
      (∀ a, a ≠ 0 → parseAddress (renderAddress a) = .ok a) ∧
      ∀ (m : AddressMap) unit number u, m.units.named? unit = some u →
        ∃ printed, ((Command.line unit number).run m).value = .ok printed ∧
          List.Forall₂ ReadsBack (m.addressesForLine ⟨.described u, number⟩).value printed := by
  refine ⟨fun _ _ => parseAddress_eq_ok_iff, fun a => ⟨?_, parseAddress_hex a⟩,
    fun _ => parseAddress_renderAddress, fun m unit number u hu => ?_⟩
  · exact parseAddress_of_addressText (addressText_toString a)
  · refine ⟨(m.addressesForLine ⟨.described u, number⟩).value.map renderAddresses, ?_, ?_⟩
    · simp only [Command.run, hu]
      rfl
    · rw [List.forall₂_map_right_iff, List.forall₂_same]
      exact fun i _ => readsBack_renderAddresses i

/-- A named unit with the program of `Command.lowestMap`. -/
def rangeUnit : CompileUnit :=
  ⟨0, .compileUnit, [⟨.name, .text "a.c"⟩, ⟨.stmtList, .sectionOffset 0⟩]⟩

def rangeMap : AddressMap := .ofParts [rangeUnit] Command.lowestMap.programs.lines

theorem addresses_read_exactly_sample :
    parseAddress (renderAddress 18446744073709551615) = .ok 18446744073709551615 ∧
      rangeMap.units.named? "a.c" = some rangeUnit ∧
      ((Command.line "a.c" 1).run rangeMap).value = .ok ["0x0-0x0", "0x10-0x10"] ∧
      List.Forall₂ ReadsBack [⟨0, 0⟩, ⟨16, 16⟩] ["0x0-0x0", "0x10-0x10"] := by
  have hunit : rangeMap.units.named? "a.c" = some rangeUnit := by cbv
  have hranges : (rangeMap.addressesForLine ⟨.described rangeUnit, 1⟩).value =
      [⟨0, 0⟩, ⟨16, 16⟩] := by cbv
  have hlines : ((Command.line "a.c" 1).run rangeMap).value = .ok ["0x0-0x0", "0x10-0x10"] := by
    cbv
  obtain ⟨-, -, hrendered, hprinted⟩ := addresses_read_exactly
  obtain ⟨printed, hrun, hback⟩ := hprinted rangeMap "a.c" 1 rangeUnit hunit
  obtain rfl : ["0x0-0x0", "0x10-0x10"] = printed := Except.ok.inj (hlines.symm.trans hrun)
  rw [hranges] at hback
  exact ⟨hrendered _ (by decide), hunit, hlines, hback⟩

end CommandLine
end LineTable
