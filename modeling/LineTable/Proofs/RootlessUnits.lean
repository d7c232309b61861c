/-
Units without a root entry.

The walk over whole units goes on behind them as a walk of its own would, so what stands in
front of a unit only decides whether the walk reaches it (`Loader.readUnits_append`).  A unit
without entries has no root to be described by, and this ends the walk.  So one such unit
keeps the whole file from loading, wherever it stands, unless a unit in front of it already
does (`Loader.loadWith_rootless`).
-/
import LineTable.Proofs.LineContents

namespace LineTable

namespace Info.UnitHeader

variable {e : Endian} {h : UnitHeader}

/-- A unit ends where its length says, whatever follows it. -/
theorem read_append {unit : Bytes} (hread : read e unit = .ok (h, [])) (more : Bytes) :
    read e (unit ++ more) = .ok (h, more) := by
  unfold read at hread ⊢
  obtain ⟨⟨⟨format, body⟩, rest⟩, hbody, hread⟩ := exists_ok_of_bind hread
  obtain ⟨⟨⟨encoding, abbreviations⟩, entries⟩, hcontents, hread⟩ := exists_ok_of_bind hread
  cases hread
  obtain ⟨taken, htaken, hrun⟩ := (Reader.unitBytes e).run_append hbody
  obtain rfl : unit = taken := htaken.trans (List.append_nil taken)
  rw [hrun]
  show ((readContents e format).run body >>= _) = _
  rw [hcontents]
  rfl

theorem ne_nil_of_read {unit rest : Bytes} (hread : read e unit = .ok (h, rest)) : unit ≠ [] := by
  rintro rfl
  exact absurd (read_shortens hread) (Nat.not_lt_zero _)

end Info.UnitHeader

open Info

/-- Units one behind the other, each with all the bytes that its length counts. -/
inductive WholeUnits (e : Endian) : Bytes → Prop
  | nil : WholeUnits e []
  | cons {unit rest : Bytes} {h : UnitHeader} (hread : UnitHeader.read e unit = .ok (h, []))
      (hrest : WholeUnits e rest) : WholeUnits e (unit ++ rest)

/-- The same sections with other units. -/
def Info.Sections.withUnits (s : Sections) (units : Bytes) : Sections := { s with units }

/-- The unit has a header and abbreviations that can be read, and no entries. -/
def Info.Sections.Rootless (s : Sections) (unit : Bytes) : Prop :=
  ∃ h abbreviations, UnitHeader.read s.endian unit = .ok (h, []) ∧ h.entries = [] ∧
    readAt s.abbreviations h.abbreviations Abbreviation.readAll = .ok abbreviations

namespace Loader

variable {s : Sections} {front unit behind : Bytes}

theorem readUnits_cons {h : UnitHeader} (hread : UnitHeader.read s.endian unit = .ok (h, []))
    (offset : Nat) (rest : Bytes) :
    readUnits s offset (unit ++ rest) = do
      let first ← readUnit s offset h
      let others ← readUnits s (offset + unit.length) rest
      return first :: others := by
  have hnil : ¬ (unit ++ rest).isEmpty := by
    simp [UnitHeader.ne_nil_of_read hread]
  rw [readUnits_eq, if_neg hnil, UnitHeader.read_append hread]
  simp only [List.length_append, Nat.add_sub_cancel]

/-- Behind whole units the walk goes on at their end. -/
theorem readUnits_append (hfront : WholeUnits s.endian front) (offset : Nat) :
    readUnits s offset (front ++ behind) = do
      let units ← readUnits s offset front
      let others ← readUnits s (offset + front.length) behind
      return units ++ others := by
  induction hfront generalizing offset with
  | nil =>
    have hempty : readUnits s offset [] = .ok [] := by
      rw [readUnits_eq]
      rfl
    rw [hempty]
    exact (bind_pure _).symm
  | @cons unit rest h hread _ ih =>
    rw [List.append_assoc, readUnits_cons hread, readUnits_cons hread, ih, List.length_append,
      Nat.add_assoc]
    simp only [bind_assoc, pure_bind, List.cons_append]

/-- A unit without entries ends the walk. -/
theorem readUnits_rootless (hunit : s.Rootless unit) (offset : Nat) :
    readUnits s offset (unit ++ behind) = .error (.unit offset .missingRoot) := by
  obtain ⟨h, abbreviations, hread, hentries, habbreviations⟩ := hunit
  have hroot : RootEntry.read h abbreviations = .error .missingRoot := by
    rw [RootEntry.read, hentries, RootEntry.firstCode]
    rfl
  have hunit : readUnit s offset h = .error (.unit offset .missingRoot) := by
    rw [readUnit, readRoot, habbreviations]
    show ((RootEntry.read h abbreviations >>= _).mapError _ >>= _) = _
    rw [hroot]
    rfl
  rw [readUnits_cons hread, hunit]
  rfl

/-- Units are read without the section that they stand in. -/
theorem readUnits_withUnits (units : Bytes) (offset : Nat) (input : Bytes) :
    readUnits (s.withUnits units) offset input = readUnits s offset input := by
  have hresolve : resolve (s.withUnits units) = resolve s := by
    funext c root value
    cases value <;> rfl
  have hunit (offset : Nat) (h : UnitHeader) :
      readUnit (s.withUnits units) offset h = readUnit s offset h := by
    refine congrArg (Except.bind _) (funext fun root => ?_)
    rw [attributes_congr hresolve]
  fun_induction readUnits s offset input with
  | case1 offset input hnil => rw [readUnits_eq, if_pos hnil]
  | case2 offset input hnil cause hheader =>
    have hother : UnitHeader.read (s.withUnits units).endian input = .error cause := hheader
    rw [readUnits_eq, if_neg hnil, hother]
  | case3 offset input hnil h rest hheader ih =>
    have hother : UnitHeader.read (s.withUnits units).endian input = .ok (h, rest) := hheader
    rw [readUnits_eq, if_neg hnil, hother]
    simp only [hunit, ih]

/-! ## Files -/

section

variable {ε : Type} {read : Bytes → Except ε (Binary ε)} {file : Bytes} {b : Binary ε}

theorem loadWith_of_rootless (hfile : read file = .ok b) (hsections : sections b = .ok s)
    (hunits : s.units = front ++ (unit ++ behind)) (hfront : WholeUnits s.endian front)
    (hunit : s.Rootless unit) :
    loadWith read file = (do
      let _ ← (readUnits s 0 front).mapError .units
      throw (.units (.unit front.length .missingRoot))) := by
  rw [loadWith_eq hfile hsections, hunits, readUnits_append hfront, Nat.zero_add,
    readUnits_rootless hunit]
  cases readUnits s 0 front <;> rfl

theorem map_loadWith_of_wholeUnits (hfile : read file = .ok b)
    (hsections : sections b = .ok (s.withUnits (front ++ behind)))
    (hfront : WholeUnits s.endian front) :
    (loadWith read file).map (·.units.units) = Except.mapError .units (do
      let units ← readUnits s 0 front
      let others ← readUnits s front.length behind
      return units ++ others) := by
  have hunits : (s.withUnits (front ++ behind)).units = front ++ behind := rfl
  rw [map_loadWith hfile hsections, readUnits_withUnits, hunits, readUnits_append hfront,
    Nat.zero_add]

/-- A file with a unit without entries does not load, for want of this unit's root or for what
is wrong with a unit in front of it.  A file without the unit, whose sections are the same
otherwise, goes on behind it: it gives the units in front of it and those behind it, or fails
for the first of these that cannot be read. -/
theorem loadWith_rootless (hfile : read file = .ok b) (hsections : sections b = .ok s)
    (hunits : s.units = front ++ (unit ++ behind)) (hfront : WholeUnits s.endian front)
    (hunit : s.Rootless unit) :
    loadWith read file = (do
      let _ ← (readUnits s 0 front).mapError .units
      throw (.units (.unit front.length .missingRoot))) ∧
    ∀ file' b', read file' = .ok b' →
      sections b' = .ok (s.withUnits (front ++ behind)) →
        (loadWith read file').map (·.units.units) = Except.mapError .units (do
          let units ← readUnits s 0 front
          let others ← readUnits s front.length behind
          return units ++ others) := by
  refine ⟨loadWith_of_rootless hfile hsections hunits hfront hunit, ?_⟩
  intro file' b' hfile' hsections'
  exact map_loadWith_of_wholeUnits hfile' hsections' hfront

end

/-- A unit of version four without entries. -/
def rootlessUnit : Bytes := [7, 0, 0, 0, 4, 0, 0, 0, 0, 0, 8]

/-- A unit of version four with a name of one letter. -/
def letterUnit (letter : UInt8) : Bytes := [10, 0, 0, 0, 4, 0, 0, 0, 0, 0, 8, 1, letter, 0]

/-- Abbreviations for entries of one kind, with a name. -/
def nameAbbreviations : Bytes := [1, 0x11, 0, 3, 8, 0, 0, 0]

/-- A unit named `a`, and behind it one named `b`. -/
def letterUnits : Bytes := letterUnit 0x61 ++ letterUnit 0x62

/-- A unit without entries stands between the two. -/
def partedUnits : Bytes := letterUnit 0x61 ++ (rootlessUnit ++ letterUnit 0x62)

def unitsFile (units : Bytes) : Bytes := coffFile nameAbbreviations units []

/-- The sections of such a file. -/
def unitsSections (units : Bytes) : Sections :=
  ⟨.little, nameAbbreviations, [], units, [], [], [], []⟩

theorem exists_binary {units : Bytes} (hunits : units = letterUnits ∨ units = partedUnits) :
    ∃ b, Binary.ofFile memory (unitsFile units) = .ok b ∧
      sections b = .ok (unitsSections units) := by
  let found := (Binary.ofFile memory (unitsFile units)).mapError LoadError.object >>= sections
  have hshown : found.toOption.map (fun s => (s.endian, s.abbreviations, s.units,
      [s.addresses, s.lines, s.lineTexts, s.texts, s.textOffsets])) =
        some (.little, nameAbbreviations, units, [[], [], [], [], []]) := by
    rcases hunits with rfl | rfl
    · decide +kernel
    · decide +kernel
  obtain ⟨s, hboth, hs⟩ := exists_ok_of_toOption hshown
  obtain ⟨b, hfile, hsections⟩ := exists_ok_of_bind hboth
  refine ⟨b, exists_ok_of_mapError hfile, hsections.trans (congrArg _ ?_)⟩
  cases s
  simp_all [unitsSections]

theorem rootless_rootlessUnit : (unitsSections partedUnits).Rootless rootlessUnit := by
  have habbreviations : (Abbreviation.readAll.run nameAbbreviations).toOption.map (·.1.length) =
      some 1 := by
    decide +kernel
  obtain ⟨abbreviations, hread, -⟩ := exists_ok_of_toOption habbreviations
  refine ⟨⟨⟨.little, .dwarf32, 4, 8⟩, 0, []⟩, abbreviations.1, by rfl, rfl, ?_⟩
  show Except.map _ (Abbreviation.readAll.run nameAbbreviations) = _
  rw [hread]
  rfl

theorem wholeUnits_letterUnit (letter : UInt8) : WholeUnits .little (letterUnit letter) := by
  have hread : UnitHeader.read .little (letterUnit letter) =
      .ok (⟨⟨.little, .dwarf32, 4, 8⟩, 0, [1, letter, 0]⟩, []) := by
    rfl
  simpa using WholeUnits.cons hread .nil

theorem exists_readUnits_letterUnit :
    ∃ units, readUnits (unitsSections partedUnits) 0 (letterUnit 0x61) = .ok units := by
  have hcount : (readUnits (unitsSections partedUnits) 0 (letterUnit 0x61)).toOption.map
      (·.length) = some 1 := by
    decide +kernel
  obtain ⟨units, hunits, -⟩ := exists_ok_of_toOption hcount
  exact ⟨units, hunits⟩

theorem loads_letterUnits : (load (unitsFile letterUnits)).toOption.map (fun m =>
    m.units.units.map fun u => (u.offset, u.name?)) = some [(0, some "a"), (14, some "b")] := by
  decide +kernel

theorem loadWith_rootless_sample :
    ∃ b b', Binary.ofFile memory (unitsFile partedUnits) = .ok b ∧
      sections b = .ok (unitsSections partedUnits) ∧ WholeUnits .little (letterUnit 0x61) ∧
      (unitsSections partedUnits).Rootless rootlessUnit ∧
      load (unitsFile partedUnits) = .error (.units (.unit 14 .missingRoot)) ∧
      Binary.ofFile memory (unitsFile letterUnits) = .ok b' ∧
      sections b' = .ok (unitsSections letterUnits) ∧
      (load (unitsFile letterUnits)).map (·.units.units) = Except.mapError .units (do
        let units ← readUnits (unitsSections partedUnits) 0 (letterUnit 0x61)
        let others ← readUnits (unitsSections partedUnits) 14 (letterUnit 0x62)
        return units ++ others) := by
  obtain ⟨b, hfile, hsections⟩ := exists_binary (.inr rfl)
  obtain ⟨b', hfile', hsections'⟩ := exists_binary (.inl rfl)
  have hfront := wholeUnits_letterUnit 0x61
  obtain ⟨hload, hwithout⟩ := loadWith_rootless hfile hsections rfl hfront rootless_rootlessUnit
  obtain ⟨units, hunits⟩ := exists_readUnits_letterUnit
  rw [hunits] at hload
  exact ⟨b, b', hfile, hsections, hfront, rootless_rootlessUnit, hload, hfile', hsections',
    hwithout _ _ hfile' hsections'⟩

/-- Two units load, and do not when a unit without entries stands between them. -/
theorem load_parted :
    ∃ b b', Binary.ofFile memory (unitsFile partedUnits) = .ok b ∧
      sections b = .ok (unitsSections partedUnits) ∧
      (unitsSections partedUnits).Rootless rootlessUnit ∧
      Binary.ofFile memory (unitsFile letterUnits) = .ok b' ∧
      sections b' = .ok ((unitsSections partedUnits).withUnits letterUnits) ∧
      (load (unitsFile letterUnits)).toOption.map (fun m =>
        m.units.units.map fun u => (u.offset, u.name?)) = some [(0, some "a"), (14, some "b")] ∧
      load (unitsFile partedUnits) = .error (.units (.unit 14 .missingRoot)) := by
  obtain ⟨b, hfile, hsections⟩ := exists_binary (.inr rfl)
  obtain ⟨b', hfile', hsections'⟩ := exists_binary (.inl rfl)
  have hload := loadWith_of_rootless hfile hsections rfl (wholeUnits_letterUnit 0x61)
    rootless_rootlessUnit
  obtain ⟨units, hunits⟩ := exists_readUnits_letterUnit
  rw [hunits] at hload
  exact ⟨b, b', hfile, hsections, rootless_rootlessUnit, hfile', hsections', loads_letterUnits,
    hload⟩

end Loader
end LineTable
