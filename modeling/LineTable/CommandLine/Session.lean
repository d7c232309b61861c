/-
A whole run of the command line.

A session reads its words, loads the binary, answers the command and says what it
prints and how it ends.  Files are read through a function, so that a session is
a value like any other.
-/
import LineTable.CommandLine.Command
import LineTable.CommandLine.FileTree
import LineTable.Loader
import LineTable.Text.Quoted

namespace LineTable
namespace CommandLine

/-- What a session printed and how it ended. -/
structure Outcome where
  exit : UInt8
  stdout : List String
  stderr : List String
deriving DecidableEq, Repr

def programName : String := "dwarfline"

def version : List String :=
  ["dwarfline v0.1.0",
    "Address to source line mapping for native binaries, decoded from DWARF line programs"]

def usage (program : String) : List String :=
  ["DWARFLINE - address to source line mapping for native binaries",
    s!"Usage: {program} [options] <binary> <command>",
    "",
    "Options:",
    "  -h, --help       Display this help message",
    "  -v, --version    Display version information",
    "  -d, --debug      Log debug output",
    "  -q, --quiet      Log warnings only",
    "",
    "Commands:",
    "  units                List compilation units",
    "  addr <address>       Source lines at an address",
    "  line <unit> <line>   Address ranges of a source line",
    "  next <address>       Next statement after an address",
    "  stmt <address>       Statement containing an address"]

def Command.text : Command → String
  | units => "Units"
  | addr address => s!"Addr({address.toNat})"
  | line unit number =>
    s!"Line \x7b unit: {Quoted.quote unit}, line: {number.toInt} \x7d"
  | next address => s!"Next({address.toNat})"
  | stmt address => s!"Stmt({address.toNat})"

/-- The lines of a cause: the first behind `lead`, the others behind as many blanks. -/
def indented (lead cause : String) : List String :=
  let blanks := String.ofList (List.replicate lead.length ' ')
  match cause.splitOn "\n" with
  | [] => [lead]
  | first :: others => (lead ++ first) :: others.map (blanks ++ ·)

/-- The number of a cause, in a field of five. -/
def numbered (n : Nat) : String :=
  let digits := toString n
  String.ofList (List.replicate (5 - digits.length) ' ') ++ digits ++ ": "

/-- The report of an error and its causes, the outermost first. -/
def report : List String → List String
  | [] => []
  | [error] => ("Error: " ++ error).splitOn "\n"
  | [error, cause] => ("Error: " ++ error).splitOn "\n" ++ ["", "Caused by:"] ++ indented "    " cause
  | error :: causes =>
    ("Error: " ++ error).splitOn "\n" ++ ["", "Caused by:"] ++
      causes.zipIdx.flatMap fun (cause, n) => indented (numbered n) cause

/-- What the log prints at a level.  A line break inside a record is followed by blanks. -/
def printedLog (level : Log.Level) (log : Log) : List String :=
  (log.lines level).map fun line => "\n    ".intercalate (line.splitOn "\n")

/-- Loads the binary of an invocation, or says what went wrong. -/
def loadBinary (readFile : String → Except FileError Bytes) (binary : String) :
    Except (List String) (AddressMap × Log) :=
  match readFile binary with
  | .error e => .error [s!"Failed to read {binary}", e.message]
  | .ok file =>
    match Loader.load file with
    | .error e => .error (s!"Failed to load debug info from {binary}" :: e.chain)
    | .ok m =>
      let count := m.units.units.length
      .ok (m, Loader.log m ++ [⟨.info, s!"Loaded {count} compilation units from {binary}"⟩])

/-- Answers the command of an invocation. -/
def runInvocation (readFile : String → Except FileError Bytes) (i : Invocation) : Outcome :=
  let start : Log := [⟨.debug, s!"Running {i.command.text} against {i.binary}"⟩]
  match loadBinary readFile i.binary with
  | .error causes => ⟨1, [], printedLog i.level start ++ report causes⟩
  | .ok (m, log) =>
    let answer := i.command.run m
    let log := printedLog i.level (start ++ log ++ answer.log)
    match answer.value with
    | .error e => ⟨1, [], log ++ report [e.message]⟩
    | .ok lines => ⟨0, lines, log⟩

/-- Runs a command line, under the name that the program was called by. -/
def run (readFile : String → Except FileError Bytes) (program : String) (words : List String) :
    Outcome :=
  match parse words with
  | .error e => ⟨1, usage program, ["error: " ++ e.headline]⟩
  | .ok .help => ⟨0, usage program, []⟩
  | .ok .version => ⟨0, version, []⟩
  | .ok (.run i) => runInvocation readFile i

end CommandLine
end LineTable
