/-
The words of the command line.

Options may stand anywhere among the words.  Help, version and unknown options
decide at once; of the options for the log the last one counts; the remaining
words are a binary and a command.  A dash before anything but a letter or another
dash does not make an option, so that a line can be negative.
-/
import LineTable.Log
import LineTable.Text.Number

namespace LineTable
namespace CommandLine

inductive Command where
  | units
  | addr (address : UInt64)
  | line (unit : String) (line : Int64)
  | next (address : UInt64)
  | stmt (address : UInt64)
deriving DecidableEq, Repr

structure Invocation where
  level : Log.Level
  binary : String
  command : Command
deriving DecidableEq, Repr

/-- What a command line asks for. -/
inductive Action where
  | help
  | version
  | run (invocation : Invocation)
deriving DecidableEq, Repr

inductive ArgumentError where
  | unknownOption (word : String)
  | incomplete
  | unknownCommand (word : String)
  | invalidAddress (text : String) (cause : NumberError)
  | invalidLine (text : String) (cause : NumberError)
deriving DecidableEq, Repr

namespace ArgumentError

/-- The error without the cause that a further line of the report would give. -/
def headline : ArgumentError → String
  | unknownOption word => "unknown option: " ++ word
  | incomplete => "expected a binary and a command"
  | unknownCommand word => "unknown command or wrong arguments: " ++ word
  | invalidAddress text cause => s!"invalid address '{text}': {cause.message}"
  | invalidLine text _ => s!"invalid line number '{text}'"

def message : ArgumentError → String
  | invalidLine text cause => (invalidLine text cause).headline ++ ": " ++ cause.message
  | error => error.headline

end ArgumentError

/-- Reads an address: hexadecimal behind `0x` or `0X`, and decimal otherwise. -/
def parseAddress (text : String) : Except ArgumentError UInt64 :=
  (match text.toList with
    | '0' :: 'x' :: digits => Number.parseUnsigned 16 digits
    | '0' :: 'X' :: digits => Number.parseUnsigned 16 digits
    | digits => Number.parseUnsigned 10 digits).mapError (.invalidAddress text)

def parseLine (text : String) : Except ArgumentError Int64 :=
  (Number.parseSigned text.toList).mapError (.invalidLine text)

inductive Word where
  | help
  | version
  | level (level : Log.Level)
  | unknownOption
  | positional
deriving DecidableEq, Repr

def isOption (word : String) : Bool :=
  match word.toList with
  | '-' :: c :: _ => c = '-' || c.isAlpha
  | _ => false

def Word.ofText (word : String) : Word :=
  if word = "-v" || word = "-V" || word = "--version" then version
  else if word = "-h" || word = "--help" then help
  else if word = "-d" || word = "--debug" then level .debug
  else if word = "-q" || word = "--quiet" then level .warn
  else if isOption word then unknownOption
  else positional

/-- The command that the words after the binary spell. -/
def parseCommand : String → List String → Except ArgumentError Command
  | "units", [] => .ok .units
  | "addr", [address] => .addr <$> parseAddress address
  | "next", [address] => .next <$> parseAddress address
  | "stmt", [address] => .stmt <$> parseAddress address
  | "line", [unit, line] => .line unit <$> parseLine line
  | command, _ => .error (.unknownCommand command)

def parseInvocation (level : Log.Level) : List String → Except ArgumentError Invocation
  | binary :: command :: operands => do
    return ⟨level, binary, ← parseCommand command operands⟩
  | _ => .error .incomplete

/-- Reads words behind a level and the positional words so far, the last one first. -/
def parseWords (level : Log.Level) (positional : List String) :
    List String → Except ArgumentError Action
  | [] => .run <$> parseInvocation level positional.reverse
  | word :: words =>
    match Word.ofText word with
    | .help => .ok .help
    | .version => .ok .version
    | .unknownOption => .error (.unknownOption word)
    | .level chosen => parseWords chosen positional words
    | .positional => parseWords level (word :: positional) words

/-- What the words of a command line ask for. -/
def parse (words : List String) : Except ArgumentError Action := parseWords .info [] words

end CommandLine
end LineTable
