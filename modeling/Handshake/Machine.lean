import Handshake.Phase
set_option autoImplicit false

/-! The phase graph of one transaction. `step` maps a state and an event to the
next state and to the callback slots that fire on the way, those of leaving the
old state first. An event that the graph does not allow has no step. -/

namespace Handshake

inductive State where
  | idle
  /-- a write burst announced by an early signal, before its first request beat -/
  | writeAnnounced
  | partialRequest
  /-- between two request beats of a write burst -/
  | writeIdle
  | request
  | waitForResponse
  | partialResponse
  /-- between two response beats of a read burst -/
  | readIdle
  | response
  | waitAck
  deriving DecidableEq

namespace State

def all : List State :=
  [idle, writeAnnounced, partialRequest, writeIdle, request, waitForResponse, partialResponse,
    readIdle, response, waitAck]

def name : State → String
  | idle => "Idle"
  | writeAnnounced => "WriteAddrTransHack"
  | partialRequest => "PartialRequest"
  | writeIdle => "WriteIdle"
  | request => "Request"
  | waitForResponse => "WaitForResponse"
  | partialResponse => "PartialResponse"
  | readIdle => "ReadIdle"
  | response => "Response"
  | waitAck => "WaitAck"

end State

/-- Where an event leads and which slots it fires, in order. -/
structure Move where
  next : State
  fired : List Phase
  deriving DecidableEq

def State.step : State → Phase → Option Move
  | .idle, .beginPartialRequest =>
      some ⟨.partialRequest, [.requestPhaseBegin, .beginPartialRequest]⟩
  | .idle, .beginRequest => some ⟨.request, [.requestPhaseBegin, .beginRequest]⟩
  | .idle, .writeValid => some ⟨.writeAnnounced, [.requestPhaseBegin, .writeValid]⟩
  | .idle, .writeReady => some ⟨.writeAnnounced, [.requestPhaseBegin, .writeReady]⟩
  | .writeAnnounced, .beginPartialRequest => some ⟨.partialRequest, [.beginPartialRequest]⟩
  | .writeAnnounced, .beginRequest => some ⟨.request, [.beginRequest]⟩
  | .writeIdle, .beginPartialRequest => some ⟨.partialRequest, [.beginPartialRequest]⟩
  | .writeIdle, .beginRequest => some ⟨.request, [.beginRequest]⟩
  | .partialRequest, .endPartialRequest => some ⟨.writeIdle, [.endPartialRequest]⟩
  | .request, .endRequest => some ⟨.waitForResponse, [.endRequest, .responsePhaseBegin]⟩
  | .request, .beginResponse => some ⟨.response, [.responsePhaseBegin, .beginResponse]⟩
  | .request, .beginPartialResponse =>
      some ⟨.partialResponse, [.responsePhaseBegin, .beginPartialResponse]⟩
  | .waitForResponse, .beginPartialResponse => some ⟨.partialResponse, [.beginPartialResponse]⟩
  | .waitForResponse, .beginResponse => some ⟨.response, [.beginResponse]⟩
  | .readIdle, .beginPartialResponse => some ⟨.partialResponse, [.beginPartialResponse]⟩
  | .readIdle, .beginResponse => some ⟨.response, [.beginResponse]⟩
  | .partialResponse, .endPartialResponse => some ⟨.readIdle, [.endPartialResponse]⟩
  | .response, .endResponse => some ⟨.idle, [.endResponse]⟩
  | .response, .endResponseNoAck => some ⟨.waitAck, [.endResponse]⟩
  | .waitAck, .acknowledge => some ⟨.idle, [.acknowledge]⟩
  | _, _ => none

end Handshake
