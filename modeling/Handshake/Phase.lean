set_option autoImplicit false

/-! The closed vocabulary of the handshake: the phases and time points of a bus
transaction, the two directions in which they travel, and the identity of a
transaction. A phase is both an event for the phase graph and the name of a
callback slot; only `endResponseNoAck` has no slot of its own. -/

namespace Handshake

/-- A handshake phase, or a time point of the protocol. -/
inductive Phase where
  | requestPhaseBegin
  | writeValid
  | writeReady
  | beginPartialRequest
  | endPartialRequest
  | beginRequest
  | endRequest
  | responsePhaseBegin
  | beginPartialResponse
  | endPartialResponse
  | beginResponse
  | endResponse
  | endResponseNoAck
  | acknowledge
  deriving DecidableEq

abbrev Slot := Fin 13

namespace Phase

def all : List Phase :=
  [requestPhaseBegin, writeValid, writeReady, beginPartialRequest, endPartialRequest,
    beginRequest, endRequest, responsePhaseBegin, beginPartialResponse, endPartialResponse,
    beginResponse, endResponse, endResponseNoAck, acknowledge]

def name : Phase → String
  | requestPhaseBegin => "RequestPhaseBegin"
  | writeValid => "WriteValid"
  | writeReady => "WriteReady"
  | beginPartialRequest => "BeginPartialRequest"
  | endPartialRequest => "EndPartialRequest"
  | beginRequest => "BeginRequest"
  | endRequest => "EndRequest"
  | responsePhaseBegin => "ResponsePhaseBegin"
  | beginPartialResponse => "BeginPartialResponse"
  | endPartialResponse => "EndPartialResponse"
  | beginResponse => "BeginResponse"
  | endResponse => "EndResponse"
  | endResponseNoAck => "EndResponseNoAck"
  | acknowledge => "Acknowledge"

def ofName? (text : String) : Option Phase :=
  all.find? (fun phase => phase.name == text)

def unknownMessage (text : String) : String :=
  "unknown phase `" ++ text ++ "`"

/-- The callback slot of a phase. The end of a response that still owes an
acknowledgment is an event only, so it has none. -/
def slot? : Phase → Option Slot
  | requestPhaseBegin => some 0
  | writeValid => some 1
  | writeReady => some 2
  | beginPartialRequest => some 3
  | endPartialRequest => some 4
  | beginRequest => some 5
  | endRequest => some 6
  | responsePhaseBegin => some 7
  | beginPartialResponse => some 8
  | endPartialResponse => some 9
  | beginResponse => some 10
  | endResponse => some 11
  | endResponseNoAck => none
  | acknowledge => some 12

def isRequest : Phase → Bool
  | beginPartialRequest | endPartialRequest | beginRequest | endRequest => true
  | _ => false

def isResponse : Phase → Bool
  | beginPartialResponse | endPartialResponse | beginResponse | endResponse => true
  | _ => false

/-- Phases that open a beat rather than close one. -/
def isBegin : Phase → Bool
  | beginPartialRequest | beginRequest | beginPartialResponse | beginResponse => true
  | _ => false

end Phase

inductive Direction where
  | forward
  | backward
  deriving DecidableEq

def Direction.name : Direction → String
  | .forward => "fw"
  | .backward => "bw"

/-- The identity of a transaction. It is not the identifier that the
transaction carries on the bus, which several transactions may share. -/
structure TxnId where
  number : Nat
  deriving DecidableEq

def TxnId.name (txn : TxnId) : String :=
  "txn" ++ toString txn.number

/-- Simulated time in nanoseconds. One cycle of a trace is one nanosecond. -/
abbrev Time := Nat

end Handshake
