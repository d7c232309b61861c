/-
The section that holds the line programs of a binary.
-/
import LineTable.Program

namespace LineTable

structure LineSection where
  bytes : Bytes
  endian : Endian
deriving DecidableEq, Repr

namespace LineSection

def size (s : LineSection) : Nat := s.bytes.length

def contains (s : LineSection) (offset : UInt64) : Bool := offset.toNat < s.size

/-- The bytes from an offset to the end of the section, unless none are left. -/
def bytesFrom? (s : LineSection) (offset : UInt64) : Option Bytes :=
  (s.bytes.from? offset.toNat).filter (!·.isEmpty)

/-- The program at an offset.  Its unit states where it ends, so nothing else in
the section takes part. -/
def decode (s : LineSection) (offset : UInt64) : Except LineError Program := do
  match s.bytesFrom? offset with
  | some bytes =>
    let (header, code) ← Header.read s.endian offset bytes
    Program.build header s.endian code
  | none => throw (.offsetOutOfRange offset s.size)

/-- Bytes are left from an offset on exactly when the offset lies in the section. -/
theorem bytesFrom?_eq (s : LineSection) (offset : UInt64) :
    s.bytesFrom? offset =
      if s.contains offset then some (s.bytes.drop offset.toNat) else none := by
  unfold bytesFrom? Bytes.from? contains size
  by_cases hin : offset.toNat < s.bytes.length
  · simp [hin, Nat.le_of_lt hin]
  · have hend : s.bytes.length ≤ offset.toNat := Nat.le_of_not_lt hin
    by_cases hlast : offset.toNat ≤ s.bytes.length <;> simp [hin, hend, hlast]

theorem contains_iff {s : LineSection} {offset : UInt64} :
    s.contains offset ↔ offset.toNat < s.size :=
  decide_eq_true_iff

theorem not_contains_iff {s : LineSection} {offset : UInt64} :
    ¬ s.contains offset ↔ s.size ≤ offset.toNat := by
  rw [contains_iff, Nat.not_lt]

theorem decode_outside {s : LineSection} {offset : UInt64} (h : ¬ s.contains offset) :
    s.decode offset = .error (.offsetOutOfRange offset s.size) := by
  rw [decode, bytesFrom?_eq, if_neg h]
  rfl

end LineSection
end LineTable
