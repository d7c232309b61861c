/-
Files by their numbers.

The files that a program names are those that its instructions define, in the order of the
stream.  They stand behind the files of the header, and one numbering from one on leads
through both.  Directories are numbered from one too, through those of the header alone.  The
theorem this file exists for is `files_numbered`: a number stands for the file at its place in
the table, if there is one, and every such file has a path.
-/
import LineTable.Proofs.Outcomes
import Mathlib

namespace LineTable

variable {h : Header} {e : Endian} {code : Bytes} {p : Program}

/-! ## Tables numbered from one -/

/-- The entry that a number stands for. -/
def numbered? {α : Type} (table : List α) (number : UInt64) : Option α :=
  if number = 0 then none else table[number.toNat - 1]?

theorem numbered?_eq_some_iff {α : Type} {table : List α} {number : UInt64} {a : α} :
    numbered? table number = some a ↔
      ∃ index, number.toNat = index + 1 ∧ table[index]? = some a := by
  by_cases hzero : number = 0
  · rw [numbered?, if_pos hzero, hzero]
    simp
  · have hpos : number.toNat ≠ 0 := fun h0 => hzero (UInt64.toNat_inj.1 h0)
    rw [numbered?, if_neg hzero]
    constructor
    · intro hentry
      exact ⟨number.toNat - 1, by omega, hentry⟩
    · intro ⟨index, hindex, hentry⟩
      rw [hindex]
      exact hentry

theorem numbered?_eq_none_iff {α : Type} {table : List α} {number : UInt64} :
    numbered? table number = none ↔ number = 0 ∨ table.length < number.toNat := by
  by_cases hzero : number = 0
  · rw [numbered?, if_pos hzero]
    simp [hzero]
  · have hpos : number.toNat ≠ 0 := fun h0 => hzero (UInt64.toNat_inj.1 h0)
    rw [numbered?, if_neg hzero, List.getElem?_eq_none_iff, or_iff_right hzero]
    omega

/-! ## The files of a program -/

theorem Instruction.files_outcome (i : Instruction) (m : Machine) :
    (i.outcome h m).files.toList = m.files.toList ++ i.definedFile?.toList := by
  show (m.files ++ i.definedFile?.toArray).toList = _
  rw [Array.toList_append, Option.toList_toArray]

theorem Machine.files_after (code : List Instruction) (m : Machine) :
    (m.after h code).files.toList =
      m.files.toList ++ code.filterMap Instruction.definedFile? := by
  induction code generalizing m with
  | nil => exact (List.append_nil _).symm
  | cons i rest ih =>
    rw [after_cons, ih, Instruction.files_outcome, List.append_assoc, List.filterMap_cons]
    cases i.definedFile? <;> rfl

/-- The files of a header, and behind them those that its opcode stream defines. -/
def fileTable (h : Header) (e : Endian) (code : Bytes) : List FileEntry :=
  h.files ++ (Instruction.readAll h e code).filterMap Instruction.definedFile?

namespace Program

theorem header_of_build (hbuild : build h e code = .ok p) : p.header = h := by
  obtain ⟨m, -, hp⟩ := build_eq_ok_iff.1 hbuild
  rw [← hp]
  rfl

theorem fileTable_of_build (hbuild : build h e code = .ok p) :
    p.header.files ++ p.definedFiles = fileTable h e code := by
  obtain ⟨m, hrun, hp⟩ := build_eq_ok_iff.1 hbuild
  rw [header_of_build hbuild, fileTable, ← hp, Machine.eq_after_of_run hrun]
  exact congrArg (h.files ++ ·) (Machine.files_after _ _)

/-- What is not found among the files of the header is looked for behind them. -/
theorem fileOf?_eq_numbered? (p : Program) (file : UInt64) :
    p.fileOf? file = numbered? (p.header.files ++ p.definedFiles) file := by
  by_cases hzero : file = 0
  · rw [fileOf?, numbered?, if_pos hzero, if_pos hzero]
  · rw [fileOf?, numbered?, if_neg hzero, if_neg hzero]
    dsimp only
    by_cases hlt : file.toNat - 1 < p.header.files.length
    · rw [List.getElem?_append_left hlt, List.getElem?_eq_getElem hlt]
    · have hle := Nat.le_of_not_lt hlt
      rw [List.getElem?_append_right hle, List.getElem?_eq_none hle]

theorem directory?_eq_numbered? (p : Program) (entry : FileEntry) :
    p.directory? entry = numbered? p.header.directories entry.directoryIndex := rfl

end Program

/-! ## Paths -/

/-- The path begins with a slash. -/
def FileEntry.IsAbsolute (entry : FileEntry) : Prop := ∃ rest, entry.path = "/" ++ rest

theorem FileEntry.isAbsolute_iff {entry : FileEntry} :
    entry.IsAbsolute ↔ entry.path.toList.head? = some '/' := by
  constructor
  · intro ⟨rest, hpath⟩
    rw [hpath, String.toList_append]
    rfl
  · intro hhead
    obtain ⟨rest, hlist⟩ := List.head?_eq_some_iff.1 hhead
    refine ⟨String.ofList rest, String.toList_inj.1 ?_⟩
    rw [hlist, String.toList_append]
    exact congrArg (List.cons '/') String.toList_ofList.symm

namespace Program

variable {file : UInt64} {entry : FileEntry}

theorem filePath?_of_directory {directory : String} (hentry : p.fileOf? file = some entry)
    (hdirectory : p.directory? entry = some directory) (habsolute : ¬ entry.IsAbsolute) :
    p.filePath? file = some (directory ++ "/" ++ entry.path) := by
  rw [FileEntry.isAbsolute_iff] at habsolute
  simp [filePath?, hentry, hdirectory, habsolute]

theorem filePath?_alone (hentry : p.fileOf? file = some entry)
    (halone : p.directory? entry = none ∨ entry.IsAbsolute) :
    p.filePath? file = some entry.path := by
  rw [FileEntry.isAbsolute_iff] at halone
  cases hdirectory : p.directory? entry with
  | none => simp [filePath?, hentry, hdirectory]
  | some directory =>
    rw [hdirectory] at halone
    have habsolute := halone.resolve_left (Option.some_ne_none directory)
    simp [filePath?, hentry, hdirectory, habsolute]

theorem filePath?_eq_none_iff : p.filePath? file = none ↔ p.fileOf? file = none := by
  cases hentry : p.fileOf? file with
  | none => simp [filePath?, hentry]
  | some entry =>
    by_cases halone : p.directory? entry = none ∨ entry.IsAbsolute
    · simp [filePath?_alone hentry halone]
    · rw [not_or, ← ne_eq, Option.ne_none_iff_exists'] at halone
      obtain ⟨⟨directory, hdirectory⟩, habsolute⟩ := halone
      simp [filePath?_of_directory hentry hdirectory habsolute]

end Program

/-- A number stands for the file at its place in the table.  The path of a file leads through
its directory, unless it begins with a slash or no directory has that number. -/
theorem files_numbered (hbuild : Program.build h e code = .ok p) :
    (∀ file entry, p.fileOf? file = some entry ↔
      ∃ index, file.toNat = index + 1 ∧ (fileTable h e code)[index]? = some entry) ∧
    (∀ file, p.fileOf? file = none ↔ file = 0 ∨ (fileTable h e code).length < file.toNat) ∧
    (∀ file, p.filePath? file = none ↔ p.fileOf? file = none) ∧
    ∀ file entry, p.fileOf? file = some entry →
      (∀ index directory, entry.directoryIndex.toNat = index + 1 →
        h.directories[index]? = some directory → ¬ entry.IsAbsolute →
          p.filePath? file = some (directory ++ "/" ++ entry.path)) ∧
      (entry.directoryIndex = 0 ∨ h.directories.length < entry.directoryIndex.toNat ∨
        entry.IsAbsolute → p.filePath? file = some entry.path) := by
  have hheader := Program.header_of_build hbuild
  have hfile : ∀ file, p.fileOf? file = numbered? (fileTable h e code) file := by
    intro file
    rw [Program.fileOf?_eq_numbered?, Program.fileTable_of_build hbuild]
  refine ⟨?_, ?_, fun file => Program.filePath?_eq_none_iff, ?_⟩
  · intro file entry
    rw [hfile]
    exact numbered?_eq_some_iff
  · intro file
    rw [hfile]
    exact numbered?_eq_none_iff
  · intro file entry hentry
    have hdirectory := Program.directory?_eq_numbered? p entry
    rw [hheader] at hdirectory
    constructor
    · intro index directory hindex hfound habsolute
      have hnumbered := numbered?_eq_some_iff.2 ⟨index, hindex, hfound⟩
      exact Program.filePath?_of_directory hentry (hdirectory.trans hnumbered) habsolute
    · intro halone
      rw [← or_assoc, ← numbered?_eq_none_iff, ← hdirectory] at halone
      exact Program.filePath?_alone hentry halone

/-- A header with a directory and a file. -/
def filedHeader : Header :=
  { Header.ofFields 2 10 (-5) 14 1 with directories := ["inc"], files := [⟨"a.c", 0, 0, 0⟩] }

/-- Two files in directory one, of which the second begins with a slash. -/
def filingStream : Bytes := [0, 8, 3, 98, 46, 104, 0, 1, 0, 0, 1, 0, 7, 3, 47, 99, 0, 1, 0, 0]

theorem files_numbered_sample :
    ∃ p, Program.build filedHeader .little filingStream = .ok p ∧
      p.fileOf? 2 = some ⟨"b.h", 1, 0, 0⟩ ∧ p.filePath? 2 = some "inc/b.h" ∧
      p.filePath? 1 = some "a.c" ∧ p.filePath? 3 = some "/c" ∧ p.fileOf? 0 = none ∧
      p.filePath? 4 = none := by
  have hbuilds : (Program.build filedHeader .little filingStream).toOption.map (·.rows.length) =
      some 1 := by cbv
  have htable : fileTable filedHeader .little filingStream =
      [⟨"a.c", 0, 0, 0⟩, ⟨"b.h", 1, 0, 0⟩, ⟨"/c", 1, 0, 0⟩] := by cbv
  obtain ⟨p, hbuild, -⟩ := exists_ok_of_toOption hbuilds
  obtain ⟨hsome, hnone, hpath, hpaths⟩ := files_numbered hbuild
  rw [htable] at hsome hnone
  have hfirst := (hsome 1 ⟨"a.c", 0, 0, 0⟩).2 ⟨0, rfl, rfl⟩
  have hsecond := (hsome 2 ⟨"b.h", 1, 0, 0⟩).2 ⟨1, rfl, rfl⟩
  have hthird := (hsome 3 ⟨"/c", 1, 0, 0⟩).2 ⟨2, rfl, rfl⟩
  refine ⟨p, hbuild, hsecond, ?_, ?_, ?_, ?_, ?_⟩
  · refine (hpaths 2 _ hsecond).1 0 "inc" rfl rfl ?_
    rw [FileEntry.isAbsolute_iff]
    decide
  · exact (hpaths 1 _ hfirst).2 (.inl rfl)
  · exact (hpaths 3 _ hthird).2 (.inr (.inr ⟨"c", rfl⟩))
  · exact (hnone 0).2 (.inl rfl)
  · exact (hpath 4).2 ((hnone 4).2 (.inr (by decide)))

end LineTable
