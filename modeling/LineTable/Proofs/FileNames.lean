/-
Writing the names of files.

`Utf8.encode` writes a text so that `Utf8.decode` reads it back.  A text without
the zero character has no zero byte, so it can stand in front of one, and a file
entry is such a text with three numbers behind it.
-/
import LineTable.Proofs.VariableLength

namespace LineTable
namespace Utf8

/-- The bytes of a text. -/
def encode (text : String) : Bytes := text.toList.flatMap String.utf8EncodeChar

/-- The decoder looks at four bytes, and no character has more. -/
theorem character?_append (c : Char) (more : Bytes) :
    character? (String.utf8EncodeChar c ++ more) = some c := by
  have hsize : (String.utf8EncodeChar c).length ≤ 4 := by
    rw [String.length_utf8EncodeChar]
    exact c.utf8Size_le_four
  rw [character?, List.take_append, List.take_of_length_le hsize, List.toByteArray_append]
  exact ByteArray.utf8DecodeChar?_utf8EncodeChar_append

theorem characters_append (c : Char) (more : Bytes) :
    characters (String.utf8EncodeChar c ++ more) = c :: characters more := by
  have hfront := character?_append c more
  have hlength := String.length_utf8EncodeChar c
  cases hbytes : String.utf8EncodeChar c with
  | nil =>
    rw [hbytes, List.length_nil] at hlength
    exact absurd hlength.symm (Nat.ne_of_gt c.utf8Size_pos)
  | cons b rest =>
    rw [hbytes] at hfront hlength
    rw [List.cons_append] at hfront ⊢
    rw [characters, hfront]
    show c :: characters (((b :: rest) ++ more).drop c.utf8Size) = _
    rw [List.drop_left' hlength]

theorem characters_encode (text : List Char) :
    characters (text.flatMap String.utf8EncodeChar) = text := by
  induction text with
  | nil => rw [List.flatMap_nil, characters]
  | cons c rest ih => rw [List.flatMap_cons, characters_append, ih]

theorem decode_encode (text : String) : decode (encode text) = text := by
  rw [decode, encode, characters_encode, String.ofList_toList]

theorem ofNat_ne_zero {n : Nat} (hpos : 0 < n) (hlt : n < 256) : UInt8.ofNat n ≠ 0 := by
  intro h
  have hn : n % 256 = 0 := by simpa using congrArg UInt8.toNat h
  omega

/-- The bytes of a longer character all have their top bit set. -/
theorem zero_notMem_utf8EncodeChar {c : Char} (hc : c ≠ '\x00') :
    0 ∉ String.utf8EncodeChar c := by
  have hval : c.val.toNat ≠ 0 := fun h => hc (Char.ext (UInt32.toNat_inj.mp h))
  intro hzero
  simp only [String.utf8EncodeChar] at hzero
  split at hzero
  · rcases List.mem_singleton.mp hzero with h
    exact ofNat_ne_zero (by omega) (by omega) h.symm
  · split at hzero
    · simp only [List.mem_cons, List.not_mem_nil, or_false] at hzero
      rcases hzero with h | h <;> exact ofNat_ne_zero (by omega) (by omega) h.symm
    · split at hzero
      · simp only [List.mem_cons, List.not_mem_nil, or_false] at hzero
        rcases hzero with h | h | h <;> exact ofNat_ne_zero (by omega) (by omega) h.symm
      · simp only [List.mem_cons, List.not_mem_nil, or_false] at hzero
        rcases hzero with h | h | h | h <;> exact ofNat_ne_zero (by omega) (by omega) h.symm

theorem zero_notMem_encode {text : String} (h : '\x00' ∉ text.toList) : 0 ∉ encode text := by
  intro hzero
  obtain ⟨c, hc, hzero⟩ := List.mem_flatMap.mp hzero
  exact zero_notMem_utf8EncodeChar (fun h0 => h (h0 ▸ hc)) hzero

theorem encode_ne_nil {text : String} (h : text ≠ "") : encode text ≠ [] := by
  intro hnil
  have hdecode := decode_encode text
  rw [hnil, decode, characters] at hdecode
  exact h hdecode.symm

end Utf8

/-- A name that a table can hold.  An empty one would end the table. -/
def IsName (text : String) : Prop := text ≠ "" ∧ '\x00' ∉ text.toList

namespace FileEntry

def encodeNumbers (entry : FileEntry) : Bytes :=
  Leb128.encodeUnsigned entry.directoryIndex.toNat ++
    (Leb128.encodeUnsigned entry.modificationTime.toNat ++
      Leb128.encodeUnsigned entry.length.toNat)

def encode (entry : FileEntry) : Bytes := Utf8.encode entry.path ++ [0] ++ entry.encodeNumbers

theorem reads_readAfter (entry : FileEntry) :
    (readAfter (Utf8.encode entry.path)).Reads entry.encodeNumbers entry := by
  rw [readAfter, Utf8.decode_encode]
  refine (Leb128.reads_unsigned entry.directoryIndex).bind ?_
  refine (Leb128.reads_unsigned entry.modificationTime).bind ?_
  exact (Leb128.reads_unsigned entry.length).bind_pure
    (FileEntry.mk entry.path entry.directoryIndex entry.modificationTime)

theorem reads_read {entry : FileEntry} (h : '\x00' ∉ entry.path.toList) :
    read.Reads entry.encode entry :=
  (Reader.reads_zeroTerminated (Utf8.zero_notMem_encode h)).bind (reads_readAfter entry)

end FileEntry

theorem IsName.readsEntry {α : Type} {text : String} (h : IsName text)
    {entry : Bytes → Reader α} {write : α → Bytes} {a : α} {body : Bytes}
    (hwrite : write a = Utf8.encode text ++ [0] ++ body)
    (hbody : (entry (Utf8.encode text)).Reads body a) : Reader.ReadsEntry entry write a :=
  ⟨Utf8.encode text, body, hwrite, Utf8.encode_ne_nil h.1, Utf8.zero_notMem_encode h.2, hbody⟩

/-- The directories of a header. -/
theorem reads_directories (directories : List String) (h : ∀ d ∈ directories, IsName d) :
    (Reader.table fun path => pure (Utf8.decode path)).Reads
      (directories.flatMap (fun d => Utf8.encode d ++ [0]) ++ [0]) directories := by
  refine Reader.reads_table directories fun d hd => ?_
  have hwrite : Utf8.encode d ++ [0] = Utf8.encode d ++ [0] ++ [] := (List.append_nil _).symm
  refine (h d hd).readsEntry hwrite ?_
  rw [Utf8.decode_encode]
  exact Reader.Reads.pure d

/-- The files of a header. -/
theorem reads_files (files : List FileEntry) (h : ∀ f ∈ files, IsName f.path) :
    (Reader.table FileEntry.readAfter).Reads (files.flatMap FileEntry.encode ++ [0]) files :=
  Reader.reads_table files fun f hf => (h f hf).readsEntry rfl (FileEntry.reads_readAfter f)

end LineTable
