import Handshake.Trace.Statement
import Handshake.Transaction.Attributes
set_option autoImplicit false

/-! Why a text is not a trace. -/

namespace Handshake.Trace

inductive Vocabulary where
  | command
  | burst
  | domain
  | barrier
  deriving DecidableEq

def Vocabulary.name : Vocabulary → String
  | command => "command"
  | burst => "burst type"
  | domain => "domain"
  | barrier => "barrier"

inductive Fault where
  | mismatch (expected : Expected) (atStart : Bool)
  | integer (literal : List Char) (fault : Integer.Fault)
  | timeDecreases (time last : Nat)
  | unknownPhase (name : List Char)
  | redeclared (label : List Char)
  | undeclared (label : List Char)
  | duplicate (name : List Char)
  | notWord
  | notInteger
  | tooLarge (value maximum : Nat)
  | unknownWord (vocabulary : Vocabulary) (word : List Char)
  | unknownSnoop (word : List Char)
  | flagWithValue
  | unknownAttribute (name : List Char)
  | missingCommand (label : List Char)
  deriving DecidableEq

/-- How the absence of something expected is told. At the very beginning of a text
what is missing is a trace. -/
def Expected.name (atStart : Bool) : Expected → String
  | statement => if atStart then "file" else "EOI or time"
  | integer => "integer"
  | direction => "direction"
  | phase => "phase"
  | label => "label"
  | value => "value"
  | anotherAttribute => "EOI or ident"

def quoted (word : List Char) : String := "`" ++ String.ofList word ++ "`"

def Fault.message : Fault → String
  | mismatch expected atStart => "Lexing failed: expected " ++ expected.name atStart
  | integer literal fault =>
      "Invalid integer '" ++ String.ofList literal ++ "': " ++ fault.message
  | timeDecreases time last =>
      "time " ++ toString time ++ " is before the previous event at " ++ toString last
  | unknownPhase name => Phase.unknownMessage (String.ofList name)
  | redeclared label =>
      quoted label ++
        " was already declared, attributes may only be given on its first mention"
  | undeclared label =>
      "first mention of " ++ quoted label ++ " must declare its attributes (at least `cmd`)"
  | duplicate name => "duplicate attribute " ++ quoted name
  | notWord => "expected a name as attribute value"
  | notInteger => "expected an integer as attribute value"
  | tooLarge value maximum =>
      "value " ++ toString value ++ " exceeds the maximum of " ++ toString maximum
  | unknownWord vocabulary word => "unknown " ++ vocabulary.name ++ " " ++ quoted word
  | unknownSnoop word => Snoop.unknownMessage (String.ofList word)
  | flagWithValue => "`snoop_only` is a flag and takes no value"
  | unknownAttribute name => "unknown attribute " ++ quoted name
  | missingCommand label => "declaration of " ++ quoted label ++ " is missing `cmd`"

end Handshake.Trace
