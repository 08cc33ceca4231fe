import Lifecycle.CommandLine.Run

/-! The program: hands arguments and files to the command line and prints what comes back. -/
namespace Lifecycle

def helpText : String :=
  Text.lines
    ["Usage: jdostate [-v] <command>",
      "",
      "  states    list every lifecycle state with its flags",
      "  matrix    apply every operation to every state",
      "  simulate  drive a sample object through a session",
      "  version   show the version"]

/-- Why a file cannot be read: in the system's words, with the number of its error, or because it
holds no text. -/
def fileTrouble (e : IO.Error) : String :=
  let told (code : UInt32) (words : String) : String :=
    words.capitalize ++ " (os error " ++ toString (min code.toNat (0 - code).toNat) ++ ")"
  match e with
  | .noFileOrDirectory _ code words | .permissionDenied _ code words
  | .inappropriateType _ code words | .invalidArgument _ code words => told code words
  | .userError _ => "stream did not contain valid UTF-8"
  | e => toString e

/-- The file that the arguments name, read beforehand, so that running a command needs no files. -/
def readOptionsFile (args : List String) : IO CommandLine.FileReader := do
  let path? : Option String :=
    match CommandLine.Command.parse args with
    | .ok (.matrix tx _ _) | .ok (.simulate _ tx _ _) => tx.file
    | _ => none
  match path? with
  | none => return fun _ => .error "no such file"
  | some path =>
    let content ← (IO.FS.readFile path).toBaseIO
    match content with
    | .ok text => return fun _ => .ok text
    | .error e => return fun _ => .error (fileTrouble e)

end Lifecycle

def main (args : List String) : IO UInt32 := do
  let readFile ← Lifecycle.readOptionsFile args
  let result := Lifecycle.CommandLine.run readFile .counting args
  IO.print result.output
  match result.ending with
  | .success => pure ()
  | .help => IO.print Lifecycle.helpText
  | .usage => IO.eprint Lifecycle.helpText
  | .failure _ => (result.ending.errorLine?).forM IO.eprintln
  | .refused f => IO.eprintln ("Error: " ++ f.inspect)
  | .badOptions => IO.eprintln "Error: the options file holds no transaction options"
  return UInt32.ofNat result.ending.exitCode
