/-
From an object file to an address map.

To the loader an object file is a byte order and the contents of its sections.  A reader
finds them, and the loader works with every reader (`loadWith`); the one it is used with
knows the formats of `Object` (`load`).  Every unit of the information section is read
down to its root entry.  The first thing that cannot be read makes the whole file
unusable.
-/
import LineTable.AddressMap
import LineTable.Info.RootEntry
import LineTable.Object

namespace LineTable

/-- What a reader finds in an object file.  Its errors are of type `ε`. -/
structure Binary (ε : Type) where
  endian : Endian
  /-- What the section of a name holds.  Names are spelled as in ELF files, and a missing
  section is empty. -/
  contents : String → Except ε Bytes

/-- Object files of the known formats, read on a system on which `memory` bytes are to be
had at once. -/
def Binary.ofFile (memory : Nat) (file : Bytes) : Except ObjectError (Binary ObjectError) := do
  let o ← Object.ofFile file
  return ⟨o.endian, o.contents memory⟩

/-- Why the units of a section cannot be read. -/
inductive UnitError where
  | header (cause : ReadError)
  | unit (offset : Nat) (cause : ReadError)
  | value (cause : ReadError)
deriving DecidableEq, Repr

def UnitError.chain : UnitError → List String
  | header cause => ["Failed to read unit header", cause.message]
  | unit offset cause => [s!"Failed to parse unit at {Number.hex offset}", cause.message]
  | value cause => [cause.message]

/-- Why no map can be made of an object file. -/
inductive LoadError (ε : Type) where
  | object (cause : ε)
  | contents (name : String) (cause : ε)
  | units (cause : UnitError)
deriving DecidableEq, Repr

namespace LoadError

/-- The error and its causes, the outermost first. -/
def chain : LoadError ObjectError → List String
  | object cause => ["Failed to parse object file", cause.message]
  | contents name cause => [s!"Failed to read section {name}", cause.message]
  | units cause => cause.chain

def message (e : LoadError ObjectError) : String := ": ".intercalate e.chain

end LoadError

namespace Loader

open Info

variable {ε : Type}

def readUnit (s : Sections) (offset : Nat) (h : UnitHeader) : Except UnitError CompileUnit := do
  let root ← (readRoot s h).mapError (.unit offset)
  let kept ← (attributes s h.encoding root root.values).mapError .value
  return ⟨UInt64.ofNat offset, root.tag, kept⟩

def readUnits (s : Sections) (offset : Nat) (input : Bytes) : Except UnitError (List CompileUnit) :=
  if input.isEmpty then .ok []
  else
    match _hheader : UnitHeader.read s.endian input with
    | .error cause => .error (.header cause)
    | .ok (h, rest) => do
      let unit ← readUnit s offset h
      let others ← readUnits s (offset + (input.length - rest.length)) rest
      return unit :: others
termination_by input.length
decreasing_by exact UnitHeader.read_shortens _hheader

def contents (b : Binary ε) (name : String) : Except (LoadError ε) Bytes :=
  (b.contents name).mapError (.contents name)

/-- The sections of an object.  Those that no value is read from must be readable too. -/
def sections (b : Binary ε) : Except (LoadError ε) Sections := do
  let abbreviations ← contents b ".debug_abbrev"
  let addresses ← contents b ".debug_addr"
  let _ ← contents b ".debug_aranges"
  let units ← contents b ".debug_info"
  let lines ← contents b ".debug_line"
  let lineTexts ← contents b ".debug_line_str"
  let texts ← contents b ".debug_str"
  let textOffsets ← contents b ".debug_str_offsets"
  let _ ← contents b ".debug_types"
  let _ ← contents b ".debug_loc"
  let _ ← contents b ".debug_loclists"
  let _ ← contents b ".debug_ranges"
  let _ ← contents b ".debug_rnglists"
  return { endian := b.endian, abbreviations, addresses, units, lines, lineTexts, texts, textOffsets }

/-- Loads a file that `read` finds the sections of. -/
def loadWith (read : Bytes → Except ε (Binary ε)) (file : Bytes) :
    Except (LoadError ε) AddressMap := do
  let b ← (read file).mapError .object
  let s ← sections b
  let units ← (readUnits s 0 s.units).mapError .units
  return AddressMap.ofParts units ⟨s.lines, s.endian⟩

/-- How many bytes are to be had at once.  This is up to the system: where the program was
tried, a tebibyte was refused.  What is proved of loading holds for every such number. -/
def memory : Nat := 0xFFFFFFFFFF

def load (file : Bytes) : Except (LoadError ObjectError) AddressMap :=
  loadWith (Binary.ofFile memory) file

/-- What is noticed when a map is made. -/
def log (m : AddressMap) : Log :=
  ⟨.debug, s!".debug_line has {m.programs.lines.size} bytes"⟩ :: m.units.log

end Loader
end LineTable
