/-
Text from bytes that need not be well formed.

Every character that is encoded correctly stands for itself.  Of the remaining
bytes, each longest run that a correct encoding could begin with becomes one
replacement character.
-/
import LineTable.Bytes

namespace LineTable
namespace Utf8

/-- How many bytes follow a leading byte. -/
def following (lead : UInt8) : Nat :=
  if lead < 0xC2 then 0
  else if lead < 0xE0 then 1
  else if lead < 0xF0 then 2
  else if lead < 0xF5 then 3
  else 0

def isContinuation (b : UInt8) : Bool := 0x80 ≤ b && b < 0xC0

/-- The second byte of a character excludes overlong forms, surrogates and code
points past the last plane. -/
def secondFits (lead second : UInt8) : Bool :=
  isContinuation second &&
    if lead = 0xE0 then 0xA0 ≤ second
    else if lead = 0xED then second < 0xA0
    else if lead = 0xF0 then 0x90 ≤ second
    else if lead = 0xF4 then second < 0x90
    else true

/-- The length of the run that one replacement character stands for. -/
def illFormedRun : Bytes → Nat
  | lead :: second :: rest =>
    if 2 ≤ following lead ∧ secondFits lead second then
      match rest with
      | third :: _ => if following lead = 3 ∧ isContinuation third then 3 else 2
      | [] => 2
    else 1
  | _ => 1

theorem illFormedRun_pos (bytes : Bytes) : 0 < illFormedRun bytes := by
  unfold illFormedRun
  split
  · split
    · split
      · split <;> omega
      · omega
    · omega
  · omega

/-- The character at the front of a byte string, if one is encoded there. -/
def character? (bytes : Bytes) : Option Char := (bytes.take 4).toByteArray.utf8DecodeChar? 0

def characters : Bytes → List Char
  | [] => []
  | b :: rest =>
    match character? (b :: rest) with
    | some c => c :: characters ((b :: rest).drop c.utf8Size)
    | none => '\uFFFD' :: characters ((b :: rest).drop (illFormedRun (b :: rest)))
termination_by bytes => bytes.length
decreasing_by
  · have := c.utf8Size_pos
    simp only [List.length_drop, List.length_cons]
    omega
  · have := illFormedRun_pos (b :: rest)
    simp only [List.length_drop, List.length_cons]
    omega

def decode (bytes : Bytes) : String := String.ofList (characters bytes)

end Utf8
end LineTable
