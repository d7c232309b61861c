/-
Runs of neighbouring keys.

A list of keys is cut into inclusive intervals.  A key extends the open interval
if it equals the interval's last key or is one past it, both read as integers
without bound, so no successor wraps around.  Every other key opens an interval
of its own.
-/

namespace LineTable

structure Interval (α : Type) where
  first : α
  last : α
deriving DecidableEq, Repr

namespace Interval

variable {α : Type}

/-- Whether `next` continues an interval that ends at `last`. -/
def continues (toInt : α → Int) (last next : α) : Bool :=
  toInt next = toInt last || toInt next = toInt last + 1

/-- The intervals of `keys`, the open one first. -/
def extend (toInt : α → Int) (first last : α) : List α → List (Interval α)
  | [] => [⟨first, last⟩]
  | next :: keys =>
    if continues toInt last next then extend toInt first next keys
    else ⟨first, last⟩ :: extend toInt next next keys

def coalesce (toInt : α → Int) : List α → List (Interval α)
  | [] => []
  | key :: keys => extend toInt key key keys

def ofAddresses (addresses : List UInt64) : List (Interval UInt64) :=
  coalesce (fun address => address.toNat) addresses

def ofLines (lines : List Int64) : List (Interval Int64) :=
  coalesce Int64.toInt lines

end Interval
end LineTable
