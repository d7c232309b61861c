/-
Source lines and the places a question can start from.
-/
import LineTable.CompileUnit
import LineTable.Interval
import LineTable.LineError

namespace LineTable

/-- What a source line belongs to. -/
inductive SourceUnit where
  /-- A unit that debugging information describes. -/
  | described (unit : CompileUnit)
  /-- A file that only symbols name. -/
  | symbolsOnly (file : String)
deriving BEq, Repr

namespace SourceUnit

/-- The compile unit, which a file that only symbols name does not have. -/
def compileUnit : SourceUnit → Except LineError CompileUnit
  | described unit => .ok unit
  | symbolsOnly file => .error (.symbolsOnly file)

def text : SourceUnit → String
  | described unit => unit.text
  | symbolsOnly file => file ++ " (symbols only)"

end SourceUnit

structure SourceLine where
  unit : SourceUnit
  line : Int64
deriving BEq, Repr

def SourceLine.text (l : SourceLine) : String := s!"{l.unit.text}:{l.line.toInt}"

structure SourceLines where
  unit : SourceUnit
  lines : Interval Int64
deriving BEq, Repr

/-- Where a question about statements starts from. -/
inductive Location where
  | address (address : UInt64)
  | line (line : SourceLine)
deriving BEq, Repr

end LineTable
