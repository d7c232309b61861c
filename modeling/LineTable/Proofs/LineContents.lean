/-
What the line programs have to do with loading.

The units of a file are read from other sections than the line programs, and no program is
decoded to read them.  But a unit is refused if the header of the program that its root
entry refers to cannot be read.  So two files that differ in their line programs alone give
the same units, unless one of them fails for such a header (`loadWith_agree`).  This holds
whatever reader finds the sections in the files.  One byte of a header can decide whether a
file loads at all.
-/
import LineTable.Proofs.Run
import LineTable.Proofs.Units

namespace LineTable

/-! ## Two computations -/

/-- Both computations give the same, unless one of them fails for a reason of its own. -/
def AgreeUnless {ε α : Type} (bad bad' : ε → Prop) (x x' : Except ε α) : Prop :=
  x = x' ∨ (∃ cause, x = .error cause ∧ bad cause) ∨ ∃ cause, x' = .error cause ∧ bad' cause

namespace AgreeUnless

variable {ε α β : Type} {bad bad' : ε → Prop} {x x' : Except ε α}

theorem refl (x : Except ε α) : AgreeUnless bad bad' x x := .inl rfl

theorem bind {next next' : α → Except ε β} (hx : AgreeUnless bad bad' x x')
    (hnext : ∀ a, x = .ok a → AgreeUnless bad bad' (next a) (next' a)) :
    AgreeUnless bad bad' (x >>= next) (x' >>= next') := by
  rcases hx with rfl | ⟨cause, rfl, hbad⟩ | ⟨cause, rfl, hbad⟩
  · cases x with
    | error cause => exact refl _
    | ok a => exact hnext a rfl
  · exact .inr (.inl ⟨cause, rfl, hbad⟩)
  · exact .inr (.inr ⟨cause, rfl, hbad⟩)

theorem mapError {ε' : Type} {worse worse' : ε' → Prop} {f : ε → ε'}
    (hx : AgreeUnless bad bad' x x') (hbad : ∀ cause, bad cause → worse (f cause))
    (hbad' : ∀ cause, bad' cause → worse' (f cause)) :
    AgreeUnless worse worse' (x.mapError f) (x'.mapError f) := by
  rcases hx with rfl | ⟨cause, rfl, hcause⟩ | ⟨cause, rfl, hcause⟩
  · exact refl _
  · exact .inr (.inl ⟨f cause, rfl, hbad cause hcause⟩)
  · exact .inr (.inr ⟨f cause, rfl, hbad' cause hcause⟩)

end AgreeUnless

/-! ## One unit -/

namespace Info

namespace Sections

/-- The same sections with other line programs. -/
def withLines (s : Sections) (lines : Bytes) : Sections := { s with lines }

end Sections

/-- The unit's root entry refers to a line program whose header cannot be read. -/
def LineHeaderFails (s : Sections) (h : UnitHeader) (cause : ReadError) : Prop :=
  ∃ abbreviations root place,
    readAt s.abbreviations h.abbreviations Abbreviation.readAll = .ok abbreviations ∧
    RootEntry.read h abbreviations = .ok root ∧
    root.lastOffset? [AttributeName.stmtList] = some place ∧
    readAt s.lines place (LineHeader.read s.endian h.encoding.addressSize) = .error cause

variable (s : Sections) (lines : Bytes)

theorem readRoot_agree (h : UnitHeader) :
    AgreeUnless (LineHeaderFails s h) (LineHeaderFails (s.withLines lines) h) (readRoot s h)
      (readRoot (s.withLines lines) h) := by
  unfold readRoot
  refine .bind (.refl _) fun abbreviations habbreviations => ?_
  refine .bind (.refl _) fun root hroot => ?_
  cases hplace : root.lastOffset? [AttributeName.stmtList] with
  | none => exact .refl _
  | some place =>
    refine .bind ?_ fun _ _ => .refl _
    let check (bytes : Bytes) :=
      readAt bytes place (LineHeader.read s.endian h.encoding.addressSize)
    change AgreeUnless _ _ (check s.lines) (check lines)
    cases hfirst : check s.lines with
    | error cause =>
      exact .inr (.inl ⟨cause, rfl, abbreviations, root, place, habbreviations, hroot, hplace,
        hfirst⟩)
    | ok done =>
      cases hsecond : check lines with
      | error cause =>
        exact .inr (.inr ⟨cause, rfl, abbreviations, root, place, habbreviations, hroot, hplace,
          hsecond⟩)
      | ok done' => exact .refl _

theorem resolve_withLines : resolve (s.withLines lines) = resolve s := by
  funext c root value
  cases value <;> rfl

theorem attributes_withLines (c : Encoding) (root : RootEntry)
    (values : List (AttributeName × FormValue)) :
    attributes (s.withLines lines) c root values = attributes s c root values :=
  attributes_congr (resolve_withLines s lines) c root values

end Info

/-! ## All units -/

namespace Loader

open Info

/-- The error is that of a unit with such a line program. -/
def UnitFails (s : Sections) (e : UnitError) : Prop :=
  ∃ offset cause h rest, e = .unit offset cause ∧
    UnitHeader.read s.endian (s.units.drop offset) = .ok (h, rest) ∧ LineHeaderFails s h cause

variable {s : Sections} (lines : Bytes)

theorem readUnit_agree {offset : Nat} {h : UnitHeader} {rest : Bytes}
    (hread : UnitHeader.read s.endian (s.units.drop offset) = .ok (h, rest)) :
    AgreeUnless (UnitFails s) (UnitFails (s.withLines lines)) (readUnit s offset h)
      (readUnit (s.withLines lines) offset h) := by
  refine .bind ?_ fun root _ => ?_
  · refine (readRoot_agree s lines h).mapError ?_ ?_
    · exact fun cause hfails => ⟨offset, cause, h, rest, rfl, hread, hfails⟩
    · exact fun cause hfails => ⟨offset, cause, h, rest, rfl, hread, hfails⟩
  · rw [attributes_withLines]
    exact .refl _

theorem readUnits_agree (offset : Nat) (input : Bytes) (hinput : s.units.drop offset = input) :
    AgreeUnless (UnitFails s) (UnitFails (s.withLines lines)) (readUnits s offset input)
      (readUnits (s.withLines lines) offset input) := by
  -- Both walks read the same headers at the same places, so one follows the other.
  fun_induction readUnits s offset input with
  | case1 offset input hnil =>
    rw [readUnits_eq, if_pos hnil]
    exact .refl _
  | case2 offset input hnil cause hheader =>
    have hother : UnitHeader.read (s.withLines lines).endian input = .error cause := hheader
    rw [readUnits_eq offset input, if_neg hnil, hother]
    exact .refl _
  | case3 offset input hnil h rest hheader ih =>
    have hother : UnitHeader.read (s.withLines lines).endian input = .ok (h, rest) := hheader
    rw [readUnits_eq offset input, if_neg hnil, hother]
    subst hinput
    refine .bind (readUnit_agree lines hheader) fun unit _ => ?_
    exact .bind (ih (UnitHeader.drop_of_read hheader)) fun others _ => .refl _

/-! ## All sections -/

/-- The names of the sections that are read apart from the line programs. -/
def otherSections : List String :=
  [".debug_abbrev", ".debug_addr", ".debug_aranges", ".debug_info", ".debug_line_str", ".debug_str",
    ".debug_str_offsets", ".debug_types", ".debug_loc", ".debug_loclists", ".debug_ranges",
    ".debug_rnglists"]

section

variable {ε : Type} {b b' : Binary ε}

/-- The objects differ in the contents of their line programs at most. -/
structure SameButLines (b b' : Binary ε) : Prop where
  endian : b'.endian = b.endian
  others : ∀ name ∈ otherSections, b'.contents name = b.contents name
  lines : ∃ lines lines', b.contents ".debug_line" = .ok lines ∧
    b'.contents ".debug_line" = .ok lines'

theorem SameButLines.sections_eq (hsame : SameButLines b b') :
    ∃ lines', sections b' = (sections b).map (·.withLines lines') := by
  obtain ⟨lines, lines', hlines, hlines'⟩ := hsame.lines
  refine ⟨lines', ?_⟩
  have hother (name : String) (hname : name ∈ otherSections) :
      contents b' name = contents b name := by
    rw [contents, contents, hsame.others name hname]
  have hline : contents b ".debug_line" = .ok lines := by
    rw [contents, hlines]
    rfl
  have hline' : contents b' ".debug_line" = .ok lines' := by
    rw [contents, hlines']
    rfl
  simp only [otherSections, List.mem_cons, List.not_mem_nil, or_false, forall_eq_or_imp,
    forall_eq] at hother
  unfold sections
  simp only [hother, hline, hline', hsame.endian]
  refine bind_eq_map_bind _ fun abbreviations => ?_
  refine bind_eq_map_bind _ fun addresses => ?_
  refine bind_eq_map_bind _ fun _ => ?_
  refine bind_eq_map_bind _ fun units => ?_
  refine bind_eq_map_bind (contents b ".debug_line_str") fun lineTexts => ?_
  refine bind_eq_map_bind _ fun texts => ?_
  refine bind_eq_map_bind _ fun textOffsets => ?_
  refine bind_eq_map_bind _ fun _ => ?_
  refine bind_eq_map_bind _ fun _ => ?_
  refine bind_eq_map_bind _ fun _ => ?_
  refine bind_eq_map_bind _ fun _ => ?_
  exact bind_eq_map_bind _ fun _ => rfl

/-! ## Files -/

variable {read : Bytes → Except ε (Binary ε)} {file file' : Bytes}

/-- The file does not load, since one of its units refers to a line program whose header
cannot be read. -/
def RefusedForLines (read : Bytes → Except ε (Binary ε)) (file : Bytes) : Prop :=
  ∃ b s cause, read file = .ok b ∧ sections b = .ok s ∧
    loadWith read file = .error (.units cause) ∧ UnitFails s cause

theorem refusedForLines_of_readUnits {s : Sections} {cause : UnitError}
    (hfile : read file = .ok b) (hsections : sections b = .ok s)
    (hunits : readUnits s 0 s.units = .error cause) (hcause : UnitFails s cause) :
    RefusedForLines read file := by
  refine ⟨b, s, cause, hfile, hsections, ?_, hcause⟩
  rw [loadWith_eq hfile hsections, hunits]
  rfl

/-- Files that differ in the contents of their line programs at most give the same units,
each with its offset, tag and attributes, or fail alike, unless one of them is refused for
the header of a line program. -/
theorem loadWith_agree (hfile : read file = .ok b) (hfile' : read file' = .ok b')
    (hsame : SameButLines b b') :
    (loadWith read file).map (·.units.units) = (loadWith read file').map (·.units.units) ∨
      RefusedForLines read file ∨ RefusedForLines read file' := by
  obtain ⟨lines', hsections'⟩ := hsame.sections_eq
  cases hsections : sections b with
  | error cause =>
    rw [hsections] at hsections'
    rw [loadWith_of_sections_error hfile hsections, loadWith_of_sections_error hfile' hsections']
    exact .inl rfl
  | ok s =>
    rw [hsections] at hsections'
    have hunits := readUnits_agree (s := s) lines' 0 s.units (List.drop_zero)
    rw [map_loadWith hfile hsections, map_loadWith hfile' hsections']
    rcases hunits with heq | ⟨cause, hfails, hcause⟩ | ⟨cause, hfails, hcause⟩
    · exact .inl (congrArg _ heq)
    · exact .inr (.inl (refusedForLines_of_readUnits hfile hsections hfails hcause))
    · exact .inr (.inr (refusedForLines_of_readUnits hfile' hsections' hfails hcause))

end

/-- A line program of a version, without opcodes. -/
def linedProgram (version : UInt8) : Bytes :=
  [13, 0, 0, 0, version, 0, 7, 0, 0, 0, 1, 1, 0, 1, 1, 0, 0]

/-- A file with one unit, which refers to such a program. -/
def linedFile (version : UInt8) : Bytes :=
  coffFile
    -- entries of one kind, with the offset of a line program
    [1, 0x11, 0, 0x10, 0x17, 0, 0, 0]
    -- a unit of version four with such an entry
    [12, 0, 0, 0, 4, 0, 0, 0, 0, 0, 8, 1, 0, 0, 0, 0]
    (linedProgram version)

/-- What the other sections of such a file hold. -/
def linedContents : List Bytes :=
  [[1, 0x11, 0, 0x10, 0x17, 0, 0, 0], [], [], [12, 0, 0, 0, 4, 0, 0, 0, 0, 0, 8, 1, 0, 0, 0, 0],
    [], [], [], [], [], [], [], []]

/-- The object in such a file, as far as the contents of its sections go. -/
structure IsLined (version : UInt8) (b : Binary ObjectError) : Prop where
  endian : b.endian = .little
  others : otherSections.map (fun name => (b.contents name).toOption) = linedContents.map some
  lines : b.contents ".debug_line" = .ok (linedProgram version)

theorem IsLined.sameButLines {version version' : UInt8} {b b' : Binary ObjectError}
    (hb : IsLined version b) (hb' : IsLined version' b') : SameButLines b b' := by
  refine ⟨hb'.endian.trans hb.endian.symm, fun name hname => ?_, _, _, hb.lines, hb'.lines⟩
  have hsame := List.map_inj_left.1 (hb'.others.trans hb.others.symm) name hname
  have hsome : (b.contents name).toOption ∈ linedContents.map some :=
    hb.others ▸ List.mem_map_of_mem hname
  obtain ⟨bytes, -, hbytes⟩ := List.mem_map.1 hsome
  rw [eq_ok_of_toOption hbytes.symm, eq_ok_of_toOption (hsame.trans hbytes.symm)]

theorem exists_isLined {version : UInt8} (hversion : version = 2 ∨ version = 6) :
    ∃ b, Binary.ofFile memory (linedFile version) = .ok b ∧ IsLined version b := by
  have hshown : (Binary.ofFile memory (linedFile version)).toOption.map (fun b => (b.endian,
      otherSections.map (fun name => (b.contents name).toOption),
      (b.contents ".debug_line").toOption)) =
        some (.little, linedContents.map some, some (linedProgram version)) := by
    rcases hversion with rfl | rfl
    · decide +kernel
    · decide +kernel
  obtain ⟨b, hfile, hb⟩ := exists_ok_of_toOption hshown
  simp only [Prod.mk.injEq] at hb
  exact ⟨b, hfile, hb.1, hb.2.1, eq_ok_of_toOption hb.2.2⟩

theorem loads_lined : (load (linedFile 2)).toOption.map (fun m =>
    m.units.units.map fun u => (u.offset, u.tag, u.attributes)) =
      some [(0, .compileUnit, [⟨.stmtList, .sectionOffset 0⟩])] := by
  decide +kernel

theorem refuses_lined : load (linedFile 6) = .error (.units (.unit 0 .unknownVersion)) := by
  have hcause : (match load (linedFile 6) with
      | .ok _ => none
      | .error cause => some cause) = some (.units (.unit 0 .unknownVersion)) := by
    decide +kernel
  cases hload : load (linedFile 6) with
  | ok m =>
    rw [hload] at hcause
    contradiction
  | error cause =>
    rw [hload] at hcause
    exact congrArg Except.error (Option.some.inj hcause)

theorem loadWith_agree_sample :
    ∃ b b', Binary.ofFile memory (linedFile 2) = .ok b ∧
      Binary.ofFile memory (linedFile 6) = .ok b' ∧ SameButLines b b' ∧
      RefusedForLines (Binary.ofFile memory) (linedFile 6) := by
  obtain ⟨b, hfile, hb⟩ := exists_isLined (.inl rfl)
  obtain ⟨b', hfile', hb'⟩ := exists_isLined (.inr rfl)
  have hsame := hb.sameButLines hb'
  obtain ⟨m, hloads, -⟩ := exists_ok_of_toOption loads_lined
  have hloads : loadWith (Binary.ofFile memory) (linedFile 2) = .ok m := hloads
  have hfails : loadWith (Binary.ofFile memory) (linedFile 6) =
      .error (.units (.unit 0 .unknownVersion)) := refuses_lined
  refine ⟨b, b', hfile, hfile', hsame, ?_⟩
  rcases loadWith_agree hfile hfile' hsame with heq | hrefused | hrefused
  · rw [hloads, hfails] at heq
    cases heq
  · obtain ⟨_, _, cause, -, -, hcause, -⟩ := hrefused
    rw [hloads] at hcause
    cases hcause
  · exact hrefused

/-- One byte of a line program decides whether the file loads. -/
theorem load_lined :
    ∃ b b', Binary.ofFile memory (linedFile 2) = .ok b ∧
      Binary.ofFile memory (linedFile 6) = .ok b' ∧ SameButLines b b' ∧
      b.contents ".debug_line" = .ok (linedProgram 2) ∧
      b'.contents ".debug_line" = .ok (linedProgram 6) ∧
      (load (linedFile 2)).toOption.map (fun m =>
        m.units.units.map fun u => (u.offset, u.tag, u.attributes)) =
          some [(0, .compileUnit, [⟨.stmtList, .sectionOffset 0⟩])] ∧
      load (linedFile 6) = .error (.units (.unit 0 .unknownVersion)) := by
  obtain ⟨b, hfile, hb⟩ := exists_isLined (.inl rfl)
  obtain ⟨b', hfile', hb'⟩ := exists_isLined (.inr rfl)
  exact ⟨b, b', hfile, hfile', hb.sameButLines hb', hb.lines, hb'.lines, loads_lined,
    refuses_lined⟩

end Loader
end LineTable
