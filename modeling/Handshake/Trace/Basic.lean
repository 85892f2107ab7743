import Handshake.Diagnostic.Basic
import Handshake.Text.Bytes
import Handshake.Trace.Declaration
set_option autoImplicit false

/-! Traces: the events of a bus, each of a declared transaction. The first event of a
transaction declares it; transactions are numbered in the order of their declaration.
`parse` reads a text, and `Report.readTrace` does so for a file and reports the fault
that it finds. -/

namespace Handshake

namespace Trace

structure Event where
  /-- one more than the number of line feeds before the event -/
  line : Nat
  time : Nat
  direction : Direction
  phase : Phase
  record : Transaction
  /-- whether this is the first mention of the transaction -/
  declares : Bool
  deriving DecidableEq

structure Declared where
  label : List Char
  record : Transaction
  deriving DecidableEq

end Trace

structure Trace where
  events : List Trace.Event
  /-- the transactions, each at the index that is its identity -/
  declared : List Trace.Declared
  deriving DecidableEq

namespace Trace

def label? (trace : Trace) (txn : TxnId) : Option String :=
  trace.declared[txn.number]?.map (fun declared => String.ofList declared.label)

def transactionCount (trace : Trace) : Nat := trace.declared.length

/-! ### From statements to events -/

structure Progress where
  events : List Event
  declared : List Declared
  lastTime : Nat

def Progress.empty : Progress := ⟨[], [], 0⟩

/-- The time of a statement, which may not lie before that of the statement before. -/
def timeOf (last : Nat) (literal : List Char) : Except (Part × Fault) Nat :=
  match Integer.parse literal with
  | .error fault => .error (.clock, .integer literal fault)
  | .ok time => if time < last then .error (.time, .timeDecreases time last) else .ok time

def phaseOf (name : List Char) : Except (Part × Fault) Phase :=
  match Phase.ofName? (String.ofList name) with
  | some phase => .ok phase
  | none => .error (.phase, .unknownPhase name)

/-- The transaction of a label, and whether this declares it. A label is declared by
the attributes of its first mention, and by those only. -/
def recordOf (declared : List Declared) (label : List Char) (given : List Attribute) :
    Except (Part × Fault) (Transaction × Bool) :=
  match declared.find? (fun known => known.label = label) with
  | some known =>
      if given = [] then .ok (known.record, false) else .error (.allAttributes, .redeclared label)
  | none =>
      if given = [] then .error (.label, .undeclared label)
      else (declare ⟨declared.length⟩ label given).map (·, true)

def Progress.add (progress : Progress) (line : Nat) (statement : Statement) :
    Except (Part × Fault) Progress := do
  let time ← timeOf progress.lastTime statement.time
  let phase ← phaseOf statement.phase
  let (record, declares) ← recordOf progress.declared statement.label statement.attributes
  .ok
    { events := progress.events ++
        [⟨line, time, statement.direction, phase, record, declares⟩]
      declared :=
        if declares then progress.declared ++ [⟨statement.label, record⟩] else progress.declared
      lastTime := time }

/-! ### Reading a text -/

structure Failure where
  fault : Fault
  start : Nat
  stop : Nat
  deriving DecidableEq

/-- How far into a text its given remainder begins. -/
def offsetOf (text rest : List Char) : Nat := byteCount text - byteCount rest

def Mismatch.failure (text : List Char) (mismatch : Mismatch) : Failure :=
  let offset := offsetOf text mismatch.rest
  ⟨.mismatch mismatch.expected (offset = 0), offset, offset⟩

def Layout.failure (text : List Char) (layout : Layout) (part : Part) (fault : Fault) : Failure :=
  let extent := layout.extent part
  ⟨fault, offsetOf text extent.start, offsetOf text extent.stop⟩

def addAll (text : List Char) : Progress → List Placed → Except Failure Progress
  | progress, [] => .ok progress
  | progress, placed :: rest =>
      match progress.add placed.line placed.statement with
      | .error (part, fault) => .error (placed.layout.failure text part fault)
      | .ok next => addAll text next rest

def parse (text : List Char) : Except Failure Trace :=
  match statements text with
  | .error mismatch => .error (mismatch.failure text)
  | .ok placed => (addAll text .empty placed).map (fun progress =>
      ⟨progress.events, progress.declared⟩)

end Trace

/-- Reads the trace in a file, which the report then knows, and reports what is wrong
with it. -/
def Report.readTrace (report : Report) (name text : String) :
    Except Trace.Fault Trace × Report :=
  let (file, known) := report.addFile name text
  match Trace.parse text.toList with
  | .ok trace => (.ok trace, known)
  | .error failure =>
      (.error failure.fault,
        known.add (.located .error failure.fault.message ⟨file, failure.start, failure.stop⟩))

end Handshake
