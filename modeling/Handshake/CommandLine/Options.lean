import Handshake.Config
import Handshake.Diagnostic.Style
set_option autoImplicit false

/-! The options of the command line. Each option is given at most once, except for the
verbosity flags, which are counted and exclude each other. Values may be attached to
their option or follow as the next argument, which then must not look like an
option. -/

namespace Handshake.CommandLine

structure Options where
  trace : String
  busWidth : Nat
  ace : Bool
  ack : Bool
  writeStart : WriteStart
  color : ColorChoice
  verbose : Nat
  quiet : Nat
  deriving DecidableEq

/-- Warnings and errors are logged unless the flags say otherwise. -/
def Options.verbosity (options : Options) : Nat := 2 + options.verbose - options.quiet

structure Given where
  trace : Option String := none
  busWidth : Option Nat := none
  ace : Bool := false
  ack : Bool := false
  writeStart : Option WriteStart := none
  color : Option ColorChoice := none
  verbose : Nat := 0
  quiet : Nat := 0

inductive Valued where
  | trace
  | busWidth
  | writeStart
  | color
  deriving DecidableEq

def Valued.ofName? : String → Option Valued
  | "trace" => some trace
  | "bus-width" => some busWidth
  | "write-start" => some writeStart
  | "color" => some color
  | _ => none

/-! ### Values -/

def digitsValue? (digits : List Char) : Option Nat :=
  if digits ≠ [] ∧ digits.all Char.isDigit then
    some (digits.foldl (fun value digit => 10 * value + (digit.toNat - '0'.toNat)) 0)
  else none

def word32? (text : String) : Option Nat :=
  let value :=
    match text.toList with
    | '-' :: digits => (digitsValue? digits).filter (· = 0)
    | '+' :: digits => digitsValue? digits
    | digits => digitsValue? digits
  value.filter (· < 0x100000000)

def Given.set? (given : Given) (option : Valued) (value : String) : Option Given :=
  match option with
  | .trace => if given.trace.isSome then none else some { given with trace := some value }
  | .busWidth =>
      if given.busWidth.isSome then none
      else (word32? value).map (fun width => { given with busWidth := some width })
  | .writeStart =>
      if given.writeStart.isSome then none
      else (WriteStart.all.find? (fun start => start.name == value)).map (fun start =>
        { given with writeStart := some start })
  | .color =>
      if given.color.isSome then none
      else (ColorChoice.all.find? (fun choice => choice.name == value)).map (fun choice =>
        { given with color := some choice })

def Given.flag? (given : Given) : String → Option Given
  | "ace" => if given.ace then none else some { given with ace := true }
  | "ack" => if given.ack then none else some { given with ack := true }
  | "verbose" => some { given with verbose := given.verbose + 1 }
  | "quiet" => some { given with quiet := given.quiet + 1 }
  | _ => none

/-! ### Arguments -/

/-- What one argument amounts to. -/
inductive Reading where
  | refused
  | done (given : Given)
  /-- the value of an option is still to come -/
  | awaiting (given : Given) (option : Valued)
  | endOfOptions

def Reading.ofOption : Option Given → Reading
  | none => refused
  | some given => done given

def readLong (given : Given) (text : List Char) : Reading :=
  let name := String.ofList (text.takeWhile (· ≠ '='))
  match Valued.ofName? name, text.dropWhile (· ≠ '=') with
  | some option, _ :: value => .ofOption (given.set? option (String.ofList value))
  | some option, [] => .awaiting given option
  | none, _ :: _ => .refused
  | none, [] => .ofOption (given.flag? name)

/-- An argument behind one dash: any number of flags, and at last perhaps an option,
whose value may follow behind an equals sign. -/
def readShort (given : Given) : List Char → Reading
  | [] => .done given
  | 'v' :: rest => readShort { given with verbose := given.verbose + 1 } rest
  | 'q' :: rest => readShort { given with quiet := given.quiet + 1 } rest
  | ['t'] => .awaiting given .trace
  | 't' :: '=' :: value => .ofOption (given.set? .trace (String.ofList value))
  | 't' :: value => .ofOption (given.set? .trace (String.ofList value))
  | _ => .refused

def read (given : Given) (argument : String) : Reading :=
  match argument.toList with
  | ['-', '-'] => .endOfOptions
  | '-' :: '-' :: text => readLong given text
  | '-' :: char :: rest => readShort given (char :: rest)
  | _ => .refused

/-- Whether an argument cannot be the value of the option before it. A lone dash
can. -/
def looksLikeOption (argument : String) : Bool :=
  match argument.toList with
  | '-' :: _ :: _ => true
  | _ => false

def readAll : Given → List String → Option Given
  | given, [] => some given
  | given, argument :: rest =>
      match read given argument with
      | .refused => none
      | .done next => readAll next rest
      | .endOfOptions => if rest = [] then some given else none
      | .awaiting next option =>
          match rest with
          | [] => none
          | value :: rest =>
              if looksLikeOption value then none
              else
                match next.set? option value with
                | none => none
                | some set => readAll set rest

/-- The options that arguments give, or nothing if they are misused. The trace is
required; more and fewer log lines are not asked for at once. -/
def Options.parse? (arguments : List String) : Option Options := do
  let given ← readAll {} arguments
  let trace ← given.trace
  if given.verbose ≠ 0 ∧ given.quiet ≠ 0 then none
  else
    some
      { trace
        busWidth := given.busWidth.getD 8
        ace := given.ace
        ack := given.ack
        writeStart := given.writeStart.getD .request
        color := given.color.getD .auto
        verbose := given.verbose
        quiet := given.quiet }

end Handshake.CommandLine
