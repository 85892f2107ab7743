import Handshake.CommandLine.Options
import Handshake.Diagnostic.Render
import Handshake.Replay
set_option autoImplicit false

/-! A run of the program: from its options and the content of the trace file to its
exit code and what it writes. -/

namespace Handshake.CommandLine

structure Output where
  exitCode : Nat
  stdout : String
  stderr : String

def indented (first further cause : String) : String :=
  first ++ ("\n" ++ further).intercalate (cause.splitOn "\n")

def numbered (number : Nat) : List String → String
  | [] => ""
  | cause :: rest =>
      let digits := toString number
      let mark := String.ofList (digits.toList.leftpad 5 ' ') ++ ": "
      indented mark "       " cause ++ "\n" ++ numbered (number + 1) rest

/-- An error with its causes, the outermost first. Causes are numbered if there is more
than one. -/
def errorReport (message : String) (causes : List String) : String :=
  "Error: " ++ message ++ "\n" ++
    match causes with
    | [] => ""
    | [cause] => "\nCaused by:\n" ++ indented "    " "    " cause ++ "\n"
    | causes => "\nCaused by:\n" ++ numbered 0 causes

def decode (bytes : ByteArray) : Except String String :=
  match String.fromUTF8? bytes with
  | some text => .ok text
  | none => .error "stream did not contain valid UTF-8"

def isPowerOfTwo (number : Nat) : Bool := Nat.pow 2 number.log2 = number

def failure (stdout log message : String) (causes : List String) : Output :=
  ⟨1, stdout, log ++ errorReport message causes⟩

def runTrace (options : Options) (trace : Trace) (report : Report) : Output :=
  let engine : EngineConfig := ⟨options.busWidth, options.ack, options.writeStart⟩
  let checker : CheckerConfig := { busWidth := options.busWidth, ace := options.ace }
  let result := trace.replay engine checker
  let shown := (report.addAll result.diagnostics).render (.ofChoice options.color)
  let stdout := shown ++ result.summary.text ++ "\n"
  let log := Log.render options.verbosity result.log
  match result.summary.stopped with
  | some stop => failure stdout log "replay stopped" [stop.message]
  | none =>
      if 0 < result.summary.violations then
        failure stdout log
          (toString result.summary.violations ++ " protocol violation(s) in " ++ options.trace) []
      else ⟨0, stdout, log⟩

/-- Runs the program. The content of the trace file is its bytes, or the words of the
system for why it cannot be read. -/
def run (options : Options) (content : Except String ByteArray) : Output :=
  if ¬ isPowerOfTwo options.busWidth then
    failure "" "" ("bus width must be a power of two, got " ++ toString options.busWidth) []
  else
    match content.bind decode with
    | .error reason =>
        failure "" "" ("failed to parse " ++ options.trace)
          ["failed to load " ++ options.trace, reason]
    | .ok text =>
        match Report.empty.readTrace options.trace text with
        | (.error fault, report) =>
            failure (report.render (.ofChoice options.color)) ""
              ("failed to parse " ++ options.trace) [fault.message]
        | (.ok trace, report) => runTrace options trace report

end Handshake.CommandLine
