/-
Files by their paths.

A path is a list of names between slashes.  It is walked one name at a time, and the
first name that cannot be followed decides the error: a file has nothing below it,
not even itself, a name can be too long, or a directory does not hold it.
-/
import LineTable.Bytes

namespace LineTable
namespace CommandLine

/-- Why a file cannot be read: the number that the system gives. -/
structure FileError where
  code : Nat
deriving DecidableEq, Repr

namespace FileError

def missing : FileError := ⟨2⟩
def notDirectory : FileError := ⟨20⟩
def isDirectory : FileError := ⟨21⟩
def nameTooLong : FileError := ⟨36⟩

def reason : Nat → String
  | 1 => "Operation not permitted"
  | 2 => "No such file or directory"
  | 5 => "Input/output error"
  | 6 => "No such device or address"
  | 12 => "Cannot allocate memory"
  | 13 => "Permission denied"
  | 20 => "Not a directory"
  | 21 => "Is a directory"
  | 22 => "Invalid argument"
  | 23 => "Too many open files in system"
  | 24 => "Too many open files"
  | 26 => "Text file busy"
  | 36 => "File name too long"
  | 40 => "Too many levels of symbolic links"
  | code => s!"Unknown error {code}"

def message (e : FileError) : String := s!"{reason e.code} (os error {e.code})"

end FileError

inductive Node where
  | file (contents : Bytes)
  | directory (entries : List (String × Node))

namespace Node

/-- The longest name that a directory can hold, in bytes. -/
def nameLimit : Nat := 255

/-- Follows names from a node that lies below the directories `above`, the nearest
first.  The directory at the top lies below itself. -/
def walk (above : List Node) (node : Node) : List String → Except FileError Node
  | [] => .ok node
  | name :: names =>
    match node with
    | file _ => .error .notDirectory
    | directory entries =>
      if name = "" || name = "." then walk above node names
      else if name = ".." then
        match above with
        | [] => walk [] node names
        | parent :: others => walk others parent names
      else if nameLimit < name.utf8ByteSize then .error .nameTooLong
      else
        match entries.lookup name with
        | some next => walk (node :: above) next names
        | none => .error .missing

end Node

/-- The files of a system, as a program in one of its directories sees them. -/
structure FileTree where
  root : Node
  /-- The directory that paths without a slash in front begin at. -/
  start : Node
  /-- The directories above it, the nearest first. -/
  above : List Node

namespace FileTree

/-- Paths have fewer bytes than this. -/
def pathLimit : Nat := 4096

def node (t : FileTree) (path : String) : Except FileError Node :=
  if path.isEmpty then .error .missing
  else if pathLimit ≤ path.utf8ByteSize then .error .nameTooLong
  else if path.toList.head? = some '/' then t.root.walk [] (path.splitOn "/")
  else t.start.walk t.above (path.splitOn "/")

def read (t : FileTree) (path : String) : Except FileError Bytes :=
  match t.node path with
  | .error e => .error e
  | .ok (.file contents) => .ok contents
  | .ok (.directory _) => .error .isDirectory

end FileTree
end CommandLine
end LineTable
