import Handshake.Checker.Violation
import Handshake.Table
set_option autoImplicit false

/-! What the checker keeps about the transactions of one command: the phase open on
either side, the request burst in flight, the beats counted so far, and the accepted
requests that still wait for their response. `observe` applies the rules of one
phase. -/

namespace Handshake

structure Burst where
  axiId : Nat
  owner : TxnId
  deriving DecidableEq

/-- A request that was accepted and not yet answered. -/
structure Acceptance where
  axiId : Nat
  txn : TxnId
  deriving DecidableEq

structure Tracker where
  requestPhase : Option Phase
  responsePhase : Option Phase
  openBurst : Option Burst
  /-- completed beats of each transaction with a request burst in progress, in the range of 32 bits:
  each is at most the number of phases observed, of which there are to be fewer than `2 ^ 32` -/
  requestBeats : Table TxnId Nat
  /-- completed beats of each transaction with a response in progress, in the same range -/
  responseBeats : Table TxnId Nat
  /-- accepted requests, oldest first -/
  accepted : List Acceptance

/-- What an observed phase was the beginning or the end of. -/
inductive Milestone where
  | burstOpened
  | responseCompleted
  deriving DecidableEq

/-- The tracker after a phase, the rules that the phase broke, and what it began or
completed. -/
structure Ruling where
  tracker : Tracker
  breaches : List Breach
  milestone : Option Milestone

/-! ### Burst arithmetic -/

def beatBreaches (side : Side) (beats : Nat) (txn : Transaction) : List Breach :=
  if beats = txn.beats then [] else [.beatCount side beats txn.length]

/-- A burst that starts at the beginning of a beat moves exactly its bytes; one that
starts inside a beat may move fewer, but not run past its end. -/
def byteBreaches (txn : Transaction) : List Breach :=
  if txn.startOffset = 0 then
    if txn.bytes = txn.burstBytes then []
    else [.byteCount txn.bytes txn.size txn.length txn.burstBytes]
  else if txn.dataEnd ≤ txn.burstBytes then []
  else [.byteOverrun txn.bytes txn.startOffset txn.burstBytes]

namespace Tracker

def empty : Tracker := ⟨none, none, none, .empty, .empty, []⟩

def queue (tracker : Tracker) (axiId : Nat) : List TxnId :=
  (tracker.accepted.filter (fun acceptance => acceptance.axiId = axiId)).map Acceptance.txn

/-! ### The request side -/

/-- The beginning of a request beat. The first beat of a transaction opens its burst,
which may not start inside the burst of another. -/
def openRequest (tracker : Tracker) (txn : Transaction) (phase : Phase) : Ruling :=
  let opened := { tracker with requestPhase := some phase }
  match tracker.requestPhase with
  | some earlier => ⟨opened, [.stillOpen phase earlier], none⟩
  | none =>
      if tracker.requestBeats.contains txn.uid then ⟨opened, [], none⟩
      else
        let counted := { opened with requestBeats := tracker.requestBeats.insert txn.uid 0 }
        match tracker.openBurst.filter (fun burst => burst.owner ≠ txn.uid) with
        | some burst =>
            ⟨counted, [.burstOverlap txn.axiId burst.owner burst.axiId], some .burstOpened⟩
        | none =>
            ⟨{ counted with openBurst := some ⟨txn.axiId, txn.uid⟩ }, [], some .burstOpened⟩

def endPartialRequest (tracker : Tracker) (txn : Transaction) : Ruling :=
  let closed := { tracker with requestPhase := none }
  if tracker.requestPhase = some .beginPartialRequest then
    let beats := (tracker.requestBeats.get? txn.uid).getD 0
    ⟨{ closed with requestBeats := tracker.requestBeats.insert txn.uid (beats + 1) }, [], none⟩
  else ⟨closed, [.unmatched .endPartialRequest .beginPartialRequest], none⟩

/-- The end of the last request beat: the request is accepted. -/
def endRequest (tracker : Tracker) (txn : Transaction) : Ruling :=
  let closed := { tracker with requestPhase := none }
  if tracker.requestPhase = some .beginRequest then
    let beats := (tracker.requestBeats.get? txn.uid).getD 0 + 1
    ⟨{ closed with
        requestBeats := tracker.requestBeats.erase txn.uid
        openBurst := tracker.openBurst.filter (fun burst => burst.owner ≠ txn.uid)
        accepted := tracker.accepted ++ [⟨txn.axiId, txn.uid⟩] },
      if txn.isWrite then beatBreaches .request beats txn ++ byteBreaches txn else [], none⟩
  else ⟨closed, [.unmatched .endRequest .beginRequest], none⟩

/-! ### The response side -/

/-- The first response beat of a transaction must belong to the oldest accepted
request of its identifier. -/
def orderBreaches (tracker : Tracker) (txn : Transaction) : List Breach :=
  let queue := tracker.queue txn.axiId
  if txn.uid ∉ queue then [.neverAccepted]
  else
    match queue.head? with
    | some head => if head = txn.uid then [] else [.overtakes head]
    | none => []

def openResponse (tracker : Tracker) (txn : Transaction) (phase : Phase) : Ruling :=
  let opened := { tracker with responsePhase := some phase }
  match tracker.responsePhase with
  | some earlier => ⟨opened, [.stillOpen phase earlier], none⟩
  | none =>
      if tracker.responseBeats.contains txn.uid then ⟨opened, [], none⟩
      else
        ⟨{ opened with responseBeats := tracker.responseBeats.insert txn.uid 0 },
          tracker.orderBreaches txn, none⟩

def endPartialResponse (tracker : Tracker) (txn : Transaction) : Ruling :=
  let closed := { tracker with responsePhase := none }
  if tracker.responsePhase = some .beginPartialResponse then
    let beats := (tracker.responseBeats.get? txn.uid).getD 0
    ⟨{ closed with responseBeats := tracker.responseBeats.insert txn.uid (beats + 1) }, [], none⟩
  else ⟨closed, [.unmatched .endPartialResponse .beginPartialResponse], none⟩

/-- The end of the last response beat: the request no longer waits. -/
def endResponse (tracker : Tracker) (txn : Transaction) : Ruling :=
  let closed := { tracker with responsePhase := none }
  if tracker.responsePhase = some .beginResponse then
    let beats := (tracker.responseBeats.get? txn.uid).getD 0 + 1
    ⟨{ closed with
        responseBeats := tracker.responseBeats.erase txn.uid
        accepted := tracker.accepted.filter (fun acceptance =>
          acceptance ≠ ⟨txn.axiId, txn.uid⟩) },
      if txn.isRead then beatBreaches .response beats txn ++ byteBreaches txn else [],
      some .responseCompleted⟩
  else ⟨closed, [.unmatched .endResponse .beginResponse], none⟩

/-- The rules of one phase; a phase of neither side is none of the tracker's
business. -/
def observe (tracker : Tracker) (txn : Transaction) : Phase → Ruling
  | .beginPartialRequest => tracker.openRequest txn .beginPartialRequest
  | .beginRequest => tracker.openRequest txn .beginRequest
  | .endPartialRequest => tracker.endPartialRequest txn
  | .endRequest => tracker.endRequest txn
  | .beginPartialResponse => tracker.openResponse txn .beginPartialResponse
  | .beginResponse => tracker.openResponse txn .beginResponse
  | .endPartialResponse => tracker.endPartialResponse txn
  | .endResponse => tracker.endResponse txn
  | .requestPhaseBegin | .writeValid | .writeReady | .responsePhaseBegin | .endResponseNoAck
  | .acknowledge => ⟨tracker, [], none⟩

end Tracker

end Handshake
