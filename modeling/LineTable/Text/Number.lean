/-
Numbers as text.

A number is read digit by digit, and the first digit that is not one, or that
takes the number out of its range, decides the error.
-/

namespace LineTable

inductive NumberError where
  | empty
  | invalidDigit
  | tooLarge
  | tooSmall
deriving DecidableEq, Repr

namespace NumberError

def message : NumberError → String
  | empty => "cannot parse integer from empty string"
  | invalidDigit => "invalid digit found in string"
  | tooLarge => "number too large to fit in target type"
  | tooSmall => "number too small to fit in target type"

end NumberError

namespace Number

/-- Hexadecimal digits, lower case, behind `0x`. -/
def hex (n : Nat) : String := "0x" ++ String.ofList (Nat.toDigits 16 n)

/-- Hexadecimal digits, at least eight of them, behind `0x`. -/
def hexEight (n : Nat) : String :=
  let digits := Nat.toDigits 16 n
  "0x" ++ String.ofList (List.replicate (8 - digits.length) '0' ++ digits)

/-- The value of a digit, either letter case. -/
def digit? (base : Nat) (c : Char) : Option Nat :=
  let value :=
    if '0' ≤ c ∧ c ≤ '9' then c.toNat - '0'.toNat
    else if 'a' ≤ c ∧ c ≤ 'z' then c.toNat - 'a'.toNat + 10
    else if 'A' ≤ c ∧ c ≤ 'Z' then c.toNat - 'A'.toNat + 10
    else base
  if value < base then some value else none

/-- Appends digits to `value`, which may not pass `limit`. -/
def digits (base limit : Nat) (overflow : NumberError) : Nat → List Char → Except NumberError Nat
  | value, [] => .ok value
  | value, c :: rest =>
    match digit? base c with
    | none => .error .invalidDigit
    | some d =>
      let next := value * base + d
      if next ≤ limit then digits base limit overflow next rest else .error overflow

def magnitude (base limit : Nat) (overflow : NumberError) (text : List Char) :
    Except NumberError Nat :=
  if text.isEmpty then .error .invalidDigit else digits base limit overflow 0 text

/-- An unsigned number of 64 bits: digits, behind at most one plus sign. -/
def parseUnsigned (base : Nat) (text : List Char) : Except NumberError UInt64 :=
  UInt64.ofNat <$>
    match text with
    | [] => .error .empty
    | '+' :: rest => magnitude base (UInt64.size - 1) .tooLarge rest
    | _ => magnitude base (UInt64.size - 1) .tooLarge text

/-- A signed decimal number of 64 bits: digits, behind at most one sign. -/
def parseSigned (text : List Char) : Except NumberError Int64 :=
  Int64.ofInt <$>
    match text with
    | [] => .error .empty
    | '+' :: rest => Int.ofNat <$> magnitude 10 (UInt64.size / 2 - 1) .tooLarge rest
    | '-' :: rest => (fun n => -Int.ofNat n) <$> magnitude 10 (UInt64.size / 2) .tooSmall rest
    | _ => Int.ofNat <$> magnitude 10 (UInt64.size / 2 - 1) .tooLarge text

end Number
end LineTable
