/-
Source files that a line program names.
-/
import LineTable.Leb128
import LineTable.Text.Utf8

namespace LineTable

/-- A source file.  The directory index counts from one, and zero in any of the
numbers means that nothing is known. -/
structure FileEntry where
  path : String
  directoryIndex : UInt64
  modificationTime : UInt64
  length : UInt64
deriving DecidableEq, Repr

namespace FileEntry

def readAfter (path : Bytes) : Reader FileEntry := do
  let directoryIndex ← Leb128.unsigned
  let modificationTime ← Leb128.unsigned
  let length ← Leb128.unsigned
  return ⟨Utf8.decode path, directoryIndex, modificationTime, length⟩

def read : Reader FileEntry := do
  readAfter (← Reader.zeroTerminated)

end FileEntry
end LineTable
