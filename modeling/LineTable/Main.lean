/-
The command line program.
-/
import LineTable.CommandLine.Session

open LineTable LineTable.CommandLine

/-- The number that the system gives for an error. -/
def fileErrorOf : IO.Error → FileError
  | .noFileOrDirectory _ code _ => ⟨code.toNat⟩
  | .permissionDenied _ code _ => ⟨code.toNat⟩
  | .inappropriateType _ code _ => ⟨code.toNat⟩
  | .invalidArgument _ code _ => ⟨code.toNat⟩
  | .resourceExhausted _ code _ => ⟨code.toNat⟩
  | .otherError code _ => ⟨code.toNat⟩
  | _ => ⟨5⟩

/-- Reads the one file that an invocation names, if the words are one. -/
def readBinary (words : List String) : IO (Except FileError Bytes) := do
  match parse words with
  | .ok (.run i) =>
    try
      let contents ← IO.FS.readBinFile i.binary
      return .ok contents.toList
    catch e => return .error (fileErrorOf e)
  | _ => return .error FileError.missing

def main (words : List String) : IO UInt32 := do
  let file ← readBinary words
  let outcome := CommandLine.run (fun _ => file) programName words
  for line in outcome.stderr do
    IO.eprintln line
  for line in outcome.stdout do
    IO.println line
  return outcome.exit.toUInt32
