import Handshake.CommandLine.Run
set_option autoImplicit false

/-! The program: checks the trace in a file and replays it. -/

namespace Handshake.CommandLine

def usage : String :=
  "usage: --trace FILE [--bus-width BYTES] [--ace] [--ack]\n" ++
    "       [--write-start request|wvalid|wready] [--color auto|always|never] [-v...] [-q...]\n"

/-- A failure of the system with its number, which may come negated in 32 bits. -/
def withNumber (words : String) (code : UInt32) : String :=
  let number := if code < 0x80000000 then code else 0 - code
  let told :=
    match number with
    | 36 => "File name too long"
    | 40 => "Too many levels of symbolic links"
    | _ => words.capitalize
  told ++ " (os error " ++ toString number ++ ")"

def systemMessage (error : IO.Error) : String :=
  match error with
  | .noFileOrDirectory _ code words => withNumber words code
  | .permissionDenied _ code words => withNumber words code
  | .inappropriateType _ code words => withNumber words code
  | .invalidArgument _ code words => withNumber words code
  | .resourceExhausted _ code words => withNumber words code
  | .otherError code words => withNumber words code
  | unnumbered => toString unnumbered

def load (path : String) : IO (Except String ByteArray) := do
  try
    return .ok (← IO.FS.readBinFile path)
  catch error =>
    return .error (systemMessage error)

/-- Runs the program on its arguments; answers the exit code. -/
def runArguments (arguments : List String) : IO UInt32 := do
  match Options.parse? arguments with
  | none =>
      IO.eprint usage
      return 2
  | some options =>
      let output := run options (← load options.trace)
      IO.print output.stdout
      IO.eprint output.stderr
      return output.exitCode.toUInt32

end Handshake.CommandLine

def main (arguments : List String) : IO UInt32 :=
  Handshake.CommandLine.runArguments arguments
