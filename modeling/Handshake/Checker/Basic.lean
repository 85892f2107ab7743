import Handshake.Checker.Tracker
set_option autoImplicit false

/-! The protocol legality checker, a passive observer of both directions. It
re-derives the open phases of every command from what it sees, keeps the order of
each identifier and the arithmetic of each burst, and on a coherent interface checks
attributes and acknowledgments. What it finds it collects; it never influences a
transaction. -/

namespace Handshake

structure Trackers where
  read : Tracker
  write : Tracker
  other : Tracker

namespace Trackers

def empty : Trackers := ⟨.empty, .empty, .empty⟩

def get (trackers : Trackers) : Command → Tracker
  | .read => trackers.read
  | .write => trackers.write
  | .other => trackers.other

def set (trackers : Trackers) (command : Command) (tracker : Tracker) : Trackers :=
  match command with
  | .read => { trackers with read := tracker }
  | .write => { trackers with write := tracker }
  | .other => { trackers with other := tracker }

theorem get_set_self (trackers : Trackers) (command : Command) (tracker : Tracker) :
    (trackers.set command tracker).get command = tracker := by
  cases command <;> rfl

theorem get_set_of_ne (trackers : Trackers) {command asked : Command} (tracker : Tracker)
    (different : asked ≠ command) :
    (trackers.set command tracker).get asked = trackers.get asked := by
  cases command <;> cases asked <;> first | rfl | exact absurd rfl different

end Trackers

structure Checker where
  config : CheckerConfig
  trackers : Trackers
  /-- transactions whose completed response is not yet acknowledged -/
  awaiting : List TxnId
  violations : List Violation
  events : Nat

/-- The answer of the other side to a phase. -/
inductive Answer where
  | accepted
  /-- the other side went on at once with this phase -/
  | updated (phase : Phase)
  /-- the other side completed the whole transaction -/
  | completed
  deriving DecidableEq

namespace Checker

def new (config : CheckerConfig) : Checker :=
  { config, trackers := .empty, awaiting := [], violations := [], events := 0 }

/-- Only writes have several request beats and only reads several response beats. -/
def commandBreaches (txn : Transaction) (phase : Phase) : List Breach :=
  if (phase = .beginPartialRequest ∧ ¬ txn.isWrite) ∨
      (phase = .beginPartialResponse ∧ ¬ txn.isRead) then
    [.wrongCommand phase txn.command]
  else []

/-- An acknowledgment must be owed. Any other phase of neither side is not part of
the handshake. -/
def bareBreaches (checker : Checker) (txn : Transaction) (phase : Phase) : List Breach :=
  if phase.isRequest || phase.isResponse then []
  else if phase = .acknowledge then
    if ¬ checker.config.ace then [.acknowledgeNotCoherent]
    else if txn.uid ∈ checker.awaiting then []
    else [.acknowledgeNotOwed]
  else [.notHandshake phase]

/-- The attributes of a transaction are checked once, when its burst opens. -/
def attributeBreaches (checker : Checker) (txn : Transaction) (milestone : Option Milestone) :
    List Breach :=
  if checker.config.ace ∧ milestone = some .burstOpened then
    (Coherence.attributeFaults checker.config txn).map .attributes
  else []

def awaitingAfter (checker : Checker) (txn : Transaction) (phase : Phase)
    (milestone : Option Milestone) : List TxnId :=
  if ¬ checker.config.ace then checker.awaiting
  else if phase = .acknowledge then checker.awaiting.erase txn.uid
  else if milestone = some .responseCompleted ∧ ¬ txn.snoopOnly then
    checker.awaiting.insert txn.uid
  else checker.awaiting

/-- The rules that a phase breaks, in the order in which they are reported. -/
def breaches (checker : Checker) (phase : Phase) (txn : Transaction) : List Breach :=
  let ruling := (checker.trackers.get txn.command).observe txn phase
  commandBreaches txn phase ++ ruling.breaches ++
    checker.attributeBreaches txn ruling.milestone ++ checker.bareBreaches txn phase

def observe (checker : Checker) (phase : Phase) (txn : Transaction) : Checker :=
  let ruling := (checker.trackers.get txn.command).observe txn phase
  { checker with
    trackers := checker.trackers.set txn.command ruling.tracker
    awaiting := checker.awaitingAfter txn phase ruling.milestone
    violations :=
      checker.violations ++ (checker.breaches phase txn).map (Violation.ofBreach txn)
    events := checker.events + 1 }

/-- Takes note of an answer; one that carries a phase is that phase observed. -/
def answered (checker : Checker) (answer : Answer) (txn : Transaction) : Checker :=
  match answer with
  | .updated phase => checker.observe phase txn
  | .accepted | .completed => checker

def awaitsAck (checker : Checker) (txn : TxnId) : Bool := checker.awaiting.contains txn

end Checker

end Handshake
