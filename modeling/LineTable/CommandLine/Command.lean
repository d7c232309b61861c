/-
Commands and the lines they print.
-/
import LineTable.AddressMap
import LineTable.CommandLine.Arguments

namespace LineTable
namespace CommandLine

def renderAddress (address : UInt64) : String :=
  if address = noAddress then "none" else Number.hex address.toNat

/-- A number that may be missing. -/
def renderOptional : Option UInt64 → String
  | some value => Number.hex value.toNat
  | none => "-"

def renderUnit (u : CompileUnit) : String :=
  let offset := Number.hexEight u.offset.toNat
  let low := renderOptional u.lowAddress?
  let program := renderOptional u.lineProgramOffset?
  let name := u.name?.getD "<unnamed>"
  s!"{offset} low_pc={low} stmt_list={program} {name}"

def renderLines (l : SourceLines) : String :=
  s!"{l.unit.text}:{l.lines.first.toInt}-{l.lines.last.toInt}"

def renderAddresses (i : Interval UInt64) : String :=
  s!"{Number.hex i.first.toNat}-{Number.hex i.last.toNat}"

inductive CommandError where
  | noUnitNamed (name : String)
deriving DecidableEq, Repr

def CommandError.message : CommandError → String
  | noUnitNamed name => s!"no compilation unit named '{name}'"

namespace Command

/-- The lines that a command prints about a binary. -/
def run (m : AddressMap) : Command → Answer (Except CommandError (List String))
  | units => ⟨.ok (m.units.units.map renderUnit), m, []⟩
  | addr address => (m.linesForAddress address).restate fun found => .ok (found.map renderLines)
  | line unit number =>
    match m.units.named? unit with
    | none => ⟨.error (.noUnitNamed unit), m, []⟩
    | some u =>
      (m.addressesForLine ⟨.described u, number⟩).restate fun found =>
        .ok (found.map renderAddresses)
  | next address => (m.nextStatement (.address address)).restate fun a => .ok [renderAddress a]
  | stmt address => (m.statement (.address address)).restate fun a => .ok [renderAddress a]

end Command
end CommandLine
end LineTable
