/-
Units as their lengths divide them.

A unit states its own length and, behind its version, the length of its header.  A `Frame`
is a unit cut at these two places.  Numbers of a fixed width can be written in one way only,
so a reader of such a number accepts exactly what is written, and a header is read exactly
where a frame stands at the front of the bytes (`Header.exists_frame_of_read`).

The theorem this file exists for is `Header.read_delimited`.  The fields are read from the
bytes that the header's length counts and from nothing else, so every frame with these bytes
and this version has the same header, whatever its opcode stream is and whatever follows it.
-/
import LineTable.Proofs.Neighbours

namespace LineTable
namespace Reader

variable {α β : Type} {input rest : Bytes}

/-! ## What readers accept -/

theorem run_bind_eq_ok_iff {first : Reader α} {next : α → Reader β} {b : β} :
    (first >>= next).run input = .ok (b, rest) ↔
      ∃ a middle, first.run input = .ok (a, middle) ∧ (next a).run middle = .ok (b, rest) := by
  rw [run_bind]
  cases first.run input with
  | error cause => simp
  | ok found =>
    obtain ⟨a, middle⟩ := found
    constructor
    · exact fun hnext => ⟨a, middle, rfl, hnext⟩
    · rintro ⟨_, _, hfirst, hnext⟩
      cases hfirst
      exact hnext

theorem runLine_eq_ok_iff {r : Reader α} {a : α} :
    r.runLine input = .ok (a, rest) ↔ r.run input = .ok (a, rest) := by
  refine ⟨exists_ok_of_mapError, fun hrun => ?_⟩
  rw [runLine, hrun]
  rfl

theorem run_take_eq_ok_iff {count : Nat} {taken : Bytes} :
    (take count).run input = .ok (taken, rest) ↔ taken.length = count ∧ input = taken ++ rest := by
  constructor
  · intro hrun
    simp only [take] at hrun
    split at hrun
    · rename_i hlength
      cases hrun
      exact ⟨hlength, (List.take_append_drop count input).symm⟩
    · contradiction
  · rintro ⟨rfl, rfl⟩
    exact run_take_append taken rest

theorem run_number_eq_ok_iff {e : Endian} {width n : Nat} :
    (number e width).run input = .ok (n, rest) ↔
      n < 256 ^ width ∧ input = e.encode width n ++ rest := by
  constructor
  · intro hrun
    obtain ⟨bytes, middle, htake, hdone⟩ := run_bind_eq_ok_iff.1 hrun
    cases hdone
    obtain ⟨rfl, rfl⟩ := run_take_eq_ok_iff.1 htake
    exact ⟨e.decode_lt bytes, by rw [e.encode_decode]⟩
  · rintro ⟨hfits, rfl⟩
    exact reads_number e hfits rest

theorem run_u16_eq_ok_iff {e : Endian} {n : UInt16} :
    (u16 e).run input = .ok (n, rest) ↔ input = e.encode 2 n.toNat ++ rest := by
  constructor
  · intro hrun
    obtain ⟨n', middle, hnumber, hdone⟩ := run_bind_eq_ok_iff.1 hrun
    cases hdone
    obtain ⟨hfits, rfl⟩ := run_number_eq_ok_iff.1 hnumber
    rw [UInt16.toNat_ofNat_of_lt' hfits]
  · rintro rfl
    exact reads_u16 e n rest

theorem run_initialLength_eq_ok_iff {e : Endian} {format : Format} {length : Nat} :
    (initialLength e).run input = .ok ((format, length), rest) ↔
      length < format.lengthLimit ∧ input = Layout.initialLength format e length ++ rest := by
  constructor
  · intro hrun
    obtain ⟨short, middle, hshort, hnext⟩ := run_bind_eq_ok_iff.1 hrun
    obtain ⟨-, rfl⟩ := run_number_eq_ok_iff.1 hshort
    -- Below the reserved values the length is stated in the short form.
    split at hnext
    · rename_i hlimit
      cases hnext
      exact ⟨hlimit, rfl⟩
    · split at hnext
      · rename_i hlong
        subst hlong
        obtain ⟨long, behind, hnumber, hdone⟩ := run_bind_eq_ok_iff.1 hnext
        cases hdone
        obtain ⟨hfits, rfl⟩ := run_number_eq_ok_iff.1 hnumber
        exact ⟨hfits, (List.append_assoc _ _ _).symm⟩
      · contradiction
  · rintro ⟨hlimit, rfl⟩
    exact reads_initialLength e format hlimit rest

theorem run_unitBytes_eq_ok_iff {e : Endian} {format : Format} {unit : Bytes} :
    (unitBytes e).run input = .ok ((format, unit), rest) ↔
      unit.length < format.lengthLimit ∧
        input = Layout.initialLength format e unit.length ++ unit ++ rest := by
  constructor
  · intro hrun
    obtain ⟨⟨_, length⟩, middle, hlength, hnext⟩ := run_bind_eq_ok_iff.1 hrun
    obtain ⟨taken, behind, htake, hdone⟩ := run_bind_eq_ok_iff.1 hnext
    cases hdone
    obtain ⟨rfl, rfl⟩ := run_take_eq_ok_iff.1 htake
    obtain ⟨hlimit, rfl⟩ := run_initialLength_eq_ok_iff.1 hlength
    exact ⟨hlimit, (List.append_assoc _ _ _).symm⟩
  · rintro ⟨hlimit, rfl⟩
    exact reads_unitBytes e format hlimit rest

end Reader

/-! ## Frames -/

/-- A unit of a version that is interpreted, as its lengths divide it. -/
structure Frame where
  format : Format
  version : UInt16
  /-- The bytes that the length of the header counts. -/
  fields : Bytes
  /-- The opcode stream, which is the rest of the unit. -/
  code : Bytes
  version_supported : 2 ≤ version ∧ version ≤ 4
  fits : 2 + format.wordSize + fields.length + code.length < format.lengthLimit

namespace Frame

variable (f : Frame) (e : Endian)

/-- What the length of the unit counts: the version, the length of the header, the fields and
the opcode stream. -/
def length : Nat := 2 + f.format.wordSize + f.fields.length + f.code.length

/-- The unit without its length. -/
def body : Bytes :=
  e.encode 2 f.version.toNat ++
    (e.encode f.format.wordSize f.fields.length ++ (f.fields ++ f.code))

def bytes : Bytes := Layout.initialLength f.format e f.length ++ f.body e

theorem length_body : (f.body e).length = f.length := by
  simp only [body, length, List.length_append, Endian.encode_length]
  omega

theorem fields_length_lt : f.fields.length < 256 ^ f.format.wordSize := by
  have hlimit : f.format.lengthLimit ≤ 256 ^ f.format.wordSize := by
    cases f.format <;> decide
  have hfits := f.fits
  omega

theorem read_bytes (offset : UInt64) (trailing : Bytes) :
    Header.read e offset (f.bytes e ++ trailing) =
      ((Header.readFields offset f.format f.version).runLine f.fields).map
        fun found => (found.1, f.code) := by
  have hlimit : (f.body e).length < f.format.lengthLimit := by
    rw [f.length_body e]
    exact f.fits
  have hunit := (reads_unitBytes e f.format hlimit).runLine trailing
  rw [f.length_body e] at hunit
  have hversion := (Reader.reads_u16 e f.version).runLine
    (e.encode f.format.wordSize f.fields.length ++ (f.fields ++ f.code))
  have hsupported : ¬ (f.version < 2 ∨ 4 < f.version) := by
    rw [not_or, UInt16.not_lt, UInt16.not_lt]
    exact f.version_supported
  have hlength := (Reader.reads_number e f.fields_length_lt).runLine (f.fields ++ f.code)
  have hfields := (Reader.reads_take f.fields).runLine f.code
  rw [Header.read, bytes, hunit]
  simp only [bind, Except.bind]
  rw [body, hversion]
  simp only [if_neg hsupported, pure, Except.pure]
  rw [Reader.word, hlength]
  simp only
  rw [hfields]
  simp only
  cases (Header.readFields offset f.format f.version).runLine f.fields <;> rfl

end Frame

namespace Header

variable {e : Endian} {offset : UInt64} {input code : Bytes} {h : Header}

theorem readFields_yields (offset : UInt64) (format : Format) (version : UInt16) :
    (readFields offset format version).Yields
      fun h => h.offset = offset ∧ h.format = format ∧ h.version = version := by
  unfold readFields
  apply Reader.Yields.bind
  intro minimumInstructionLength
  dsimp only
  split
  all_goals
    apply Reader.Yields.bind
    intro maximumOperations
    apply Reader.Yields.bind
    intro defaultIsStatement
    apply Reader.Yields.bind
    intro lineBase
    apply Reader.Yields.bind
    intro lineRange
    apply Reader.Yields.bind
    intro opcodeBase
    apply Reader.Yields.bind
    intro operandCounts
    apply Reader.Yields.bind
    intro directories
    apply Reader.Yields.bind
    intro files
    apply Reader.yields_pure
    exact ⟨rfl, rfl, rfl⟩

/-- Where a header is read there is a frame, and its fields hold the header. -/
theorem exists_frame_of_read (hread : Header.read e offset input = .ok (h, code)) :
    ∃ (f : Frame) (trailing left : Bytes), input = f.bytes e ++ trailing ∧ f.code = code ∧
      (readFields offset f.format f.version).run f.fields = .ok (h, left) := by
  unfold Header.read at hread
  obtain ⟨⟨⟨format, unit⟩, trailing⟩, hunit, hread⟩ := exists_ok_of_bind hread
  obtain ⟨⟨version, versioned⟩, hversion, hread⟩ := exists_ok_of_bind hread
  dsimp only at hread hversion
  split at hread
  · contradiction
  rename_i hsupported
  obtain ⟨⟨length, sized⟩, hlength, hread⟩ := exists_ok_of_bind hread
  obtain ⟨⟨fields, code⟩, htake, hread⟩ := exists_ok_of_bind hread
  obtain ⟨⟨header, left⟩, hfields, hread⟩ := exists_ok_of_bind hread
  cases hread
  obtain ⟨hlimit, rfl⟩ := Reader.run_unitBytes_eq_ok_iff.1 (Reader.runLine_eq_ok_iff.1 hunit)
  obtain rfl := Reader.run_u16_eq_ok_iff.1 (Reader.runLine_eq_ok_iff.1 hversion)
  obtain ⟨-, rfl⟩ := Reader.run_number_eq_ok_iff.1 (Reader.runLine_eq_ok_iff.1 hlength)
  obtain ⟨rfl, rfl⟩ := Reader.run_take_eq_ok_iff.1 (Reader.runLine_eq_ok_iff.1 htake)
  rw [not_or, UInt16.not_lt, UInt16.not_lt] at hsupported
  have hbody : (e.encode 2 version.toNat ++
      (e.encode format.wordSize fields.length ++ (fields ++ code))).length =
        2 + format.wordSize + fields.length + code.length := by
    simp only [List.length_append, Endian.encode_length]
    omega
  rw [hbody] at hlimit
  refine ⟨⟨format, version, fields, code, hsupported, hlimit⟩, trailing, left, ?_, rfl,
    Reader.runLine_eq_ok_iff.1 hfields⟩
  rw [hbody]
  rfl

/-- Frames with the same version and the same fields have the same header, but for its place
and the format. -/
theorem read_of_fields {f g : Frame} {left : Bytes}
    (hfields : (readFields offset f.format f.version).run f.fields = .ok (h, left))
    (hversion : g.version = f.version) (hsame : g.fields = f.fields) (e' : Endian)
    (place : UInt64) (behind : Bytes) :
    Header.read e' place (g.bytes e' ++ behind) = .ok (h.placed place g.format, g.code) := by
  have hplaced := readFields_placed place offset g.format f.format f.version f.fields
  rw [hfields] at hplaced
  have hrun := Reader.runLine_eq_ok_iff.2 hplaced
  rw [g.read_bytes, hversion, hsame, hrun]
  rfl

/-- A whole unit stands at the front of the bytes, and this is the version it states. -/
def BeginsUnit (e : Endian) (input : Bytes) (version : UInt16) : Prop :=
  ∃ (format : Format) (unit trailing : Bytes), unit.length < format.lengthLimit ∧
    e.encode 2 version.toNat <+: unit ∧
    input = Layout.initialLength format e unit.length ++ unit ++ trailing

/-- A version is refused only when its unit is there as a whole. -/
theorem read_unsupported_iff {version : UInt16} :
    Header.read e offset input = .error (.unsupportedVersion version) ↔
      BeginsUnit e input version ∧ (version < 2 ∨ 4 < version) := by
  constructor
  · intro hread
    have hcause : ¬ ∃ c, LineError.unsupportedVersion version = .malformed c := nofun
    unfold Header.read at hread
    obtain ⟨⟨⟨format, unit⟩, trailing⟩, hunit, hread⟩ :=
      Reader.exists_ok_of_bind_error hcause hread
    obtain ⟨⟨stated, versioned⟩, hversion, hread⟩ := Reader.exists_ok_of_bind_error hcause hread
    dsimp only at hread hversion
    split at hread
    · rename_i hrefused
      cases hread
      obtain ⟨hlimit, rfl⟩ := Reader.run_unitBytes_eq_ok_iff.1 (Reader.runLine_eq_ok_iff.1 hunit)
      obtain rfl := Reader.run_u16_eq_ok_iff.1 (Reader.runLine_eq_ok_iff.1 hversion)
      exact ⟨⟨format, _, trailing, hlimit, List.prefix_append _ _, rfl⟩, hrefused⟩
    -- Behind the version only reading can fail.
    obtain ⟨⟨length, sized⟩, -, hread⟩ := Reader.exists_ok_of_bind_error hcause hread
    obtain ⟨⟨fields, code⟩, -, hread⟩ := Reader.exists_ok_of_bind_error hcause hread
    obtain ⟨⟨header, left⟩, -, hread⟩ := Reader.exists_ok_of_bind_error hcause hread
    contradiction
  · rintro ⟨⟨format, unit, trailing, hlimit, ⟨versioned, rfl⟩, rfl⟩, hrefused⟩
    have hunit := (reads_unitBytes e format hlimit).runLine trailing
    have hversion := (Reader.reads_u16 e version).runLine versioned
    rw [Header.read, hunit]
    simp only [bind, Except.bind]
    rw [hversion]
    simp only [if_pos hrefused]
    rfl

/-- A header that is read stands in a frame at the front of the bytes.  Every frame with its
version and its fields has this header, but for the place and the format, whatever byte order
the lengths are in and whatever the opcode stream and the bytes behind the frame are.  A
header that is not read is malformed, unless a whole unit states a version that is not
interpreted. -/
theorem read_delimited (e : Endian) (offset : UInt64) (input : Bytes) :
    (∀ h code, Header.read e offset input = .ok (h, code) →
      ∃ (f : Frame) (trailing : Bytes), input = f.bytes e ++ trailing ∧
        f.format = h.format ∧ f.version = h.version ∧ f.code = code ∧ h.offset = offset ∧
        ∀ g : Frame, g.version = f.version → g.fields = f.fields →
          ∀ (e' : Endian) (place : UInt64) (behind : Bytes),
            Header.read e' place (g.bytes e' ++ behind) =
              .ok ({ h with offset := place, format := g.format }, g.code)) ∧
    (∀ version, Header.read e offset input = .error (.unsupportedVersion version) ↔
      BeginsUnit e input version ∧ (version < 2 ∨ 4 < version)) ∧
    ∀ cause, Header.read e offset input = .error cause →
      (∃ version, cause = .unsupportedVersion version) ∨ ∃ c, cause = .malformed c := by
  refine ⟨fun h code hread => ?_, fun version => read_unsupported_iff,
    fun cause hread => cause_of_read hread⟩
  obtain ⟨f, trailing, left, hinput, hcode, hfields⟩ := exists_frame_of_read hread
  obtain ⟨hoffset, hformat, hversion⟩ := readFields_yields offset f.format f.version hfields
  refine ⟨f, trailing, hinput, hformat.symm, hversion.symm, hcode, hoffset, ?_⟩
  intro g hg hsame e' place behind
  exact read_of_fields hfields hg hsame e' place behind

/-- The header of a short unit is that of a long one in the other byte order and without
opcodes.  A unit of version five is refused, and one that is cut short is malformed. -/
theorem read_delimited_sample :
    Header.read .little 3 (LineSection.rowsUnit 14 ++ [0xFF]) =
        .ok ({ ofFields 2 10 (-5) 14 1 with offset := 3 }, [1, 0x20]) ∧
      (∃ g : Frame, g.format = .dwarf64 ∧ g.code = [] ∧
        Header.read .big 8 (g.bytes .big ++ [7]) =
          .ok ({ ofFields 2 10 (-5) 14 1 with offset := 8, format := .dwarf64 }, [])) ∧
      (BeginsUnit .little [2, 0, 0, 0, 5, 0, 9] 5 ∧
        Header.read .little 0 [2, 0, 0, 0, 5, 0, 9] = .error (.unsupportedVersion 5)) ∧
      ∃ c, Header.read .little 0 [3, 0, 0, 0, 5, 0] = .error (.malformed c) := by
  have hread : Header.read .little 3 (LineSection.rowsUnit 14 ++ [0xFF]) =
      .ok ({ ofFields 2 10 (-5) 14 1 with offset := 3 }, [1, 0x20]) := by cbv
  have hunit : BeginsUnit .little [2, 0, 0, 0, 5, 0, 9] 5 :=
    ⟨.dwarf32, [5, 0], [9], by decide, by decide, by decide⟩
  have hcut : Header.read .little 0 [3, 0, 0, 0, 5, 0] = .error (.malformed .endOfInput) := by cbv
  obtain ⟨f, trailing, -, hformat, hversion, -, -, hframes⟩ :=
    (read_delimited .little 3 _).1 _ _ hread
  have hshort := f.fits
  rw [hformat] at hshort
  have hlong : 2 + Format.dwarf64.wordSize + f.fields.length + ([] : Bytes).length <
      Format.dwarf64.lengthLimit := by
    simp only [ofFields, Format.wordSize, Format.lengthLimit, List.length_nil] at hshort ⊢
    omega
  let g : Frame := ⟨.dwarf64, f.version, f.fields, [], f.version_supported, hlong⟩
  refine ⟨hread, ⟨g, rfl, rfl, hframes g rfl rfl .big 8 [7]⟩, ⟨hunit, ?_⟩, ?_⟩
  · exact ((read_delimited .little 0 _).2.1 5).2 ⟨hunit, .inr (by decide)⟩
  · obtain ⟨version, hcause⟩ | ⟨c, hcause⟩ := (read_delimited .little 0 _).2.2 _ hcut
    · contradiction
    · exact ⟨c, hcause ▸ hcut⟩

end Header
end LineTable
