set_option autoImplicit false

/-! Log lines, and which of them a verbosity lets through. -/

namespace Handshake.Log

inductive Level where
  | error
  | warn
  | info
  | debug
  | trace
  deriving DecidableEq

namespace Level

def rank : Level → Nat
  | error => 1
  | warn => 2
  | info => 3
  | debug => 4
  | trace => 5

def tag : Level → String
  | error => "ERROR"
  | warn => "WARN "
  | info => "INFO "
  | debug => "DEBUG"
  | trace => "TRACE"

end Level

inductive Origin where
  | checker
  | engine
  | machine
  | replay
  deriving DecidableEq

def Origin.name : Origin → String
  | checker => "amba_phases::checker"
  | engine => "amba_phases::engine"
  | machine => "amba_phases::fsm"
  | replay => "amba_phases::replay"

structure Line where
  level : Level
  origin : Origin
  message : String
  deriving DecidableEq

def Line.text (line : Line) : String :=
  "[" ++ line.level.tag ++ " " ++ line.origin.name ++ "] " ++ line.message ++ "\n"

/-- The text of the lines that a verbosity lets through. -/
def render (verbosity : Nat) (lines : List Line) : String :=
  String.join ((lines.filter (fun line => line.level.rank ≤ verbosity)).map Line.text)

end Handshake.Log
