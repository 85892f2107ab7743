import Handshake.Engine.Dispatcher
set_option autoImplicit false

/-! Simulated time. The host moves a dispatcher forward with `advanceTo`, which
delivers the delay queue up to a point in time, and with `clockEdge`, which delivers
what is due on the cycle queue. `runUntil` drives both up to a given cycle and gives
the cycle queue the edges that it asks for.

Callbacks may schedule more while the delay queue is being delivered, and nothing
keeps them from doing so forever at one point in time. Delivery is therefore given
a budget of entries; running out of it is an outcome of its own. -/

namespace Handshake

inductive Stop where
  | failed (error : EngineError)
  /-- the budget ran out with an entry still due -/
  | unfinished
  deriving DecidableEq

def Stop.message : Stop → String
  | .failed error => error.message
  | .unfinished => "the delay queue did not run dry"

namespace Dispatcher

variable {σ : Type}

/-! ### The delay queue -/

/-- Delivers one entry taken from the delay queue: it moves on to the cycle queue if
it waits for a clock edge and is reacted to otherwise. Answers the number of phases
reacted to. -/
def deliver [Inhabited σ] (dispatcher : Dispatcher σ) (entry : Deferred) :
    Outcome σ (Except EngineError Nat) :=
  if entry.sync then
    ⟨{ dispatcher with clocked := dispatcher.clocked.push ⟨entry.phase, entry.txn, 0⟩ }, [], .ok 0⟩
  else
    let reaction := dispatcher.react entry.phase entry.txn
    ⟨reaction.dispatcher, reaction.journal, reaction.answer.map (fun _ => 1)⟩

def deliverNext? [Inhabited σ] (dispatcher : Dispatcher σ) (time : Time) :
    Option (Outcome σ (Except EngineError Nat)) :=
  (dispatcher.delayed.popDue? time).map (fun (entry, rest) =>
    { dispatcher with delayed := rest, now := max dispatcher.now entry.due }.deliver
      entry.toDeferred)

/-- Delivers every entry due by `time`, those scheduled on the way included, and then
sets the clock. Answers the number of phases reacted to. -/
def advanceTo [Inhabited σ] (time : Time) :
    Nat → Dispatcher σ → Outcome σ (Except Stop Nat)
  | 0, dispatcher =>
      match dispatcher.deliverNext? time with
      | none => ⟨{ dispatcher with now := max dispatcher.now time }, [], .ok 0⟩
      | some _ => ⟨dispatcher, [], .error .unfinished⟩
  | budget + 1, dispatcher =>
      match dispatcher.deliverNext? time with
      | none => ⟨{ dispatcher with now := max dispatcher.now time }, [], .ok 0⟩
      | some turn =>
          match turn.answer with
          | .error error => ⟨turn.dispatcher, turn.journal, .error (.failed error)⟩
          | .ok reacted =>
              let later := advanceTo time budget turn.dispatcher
              ⟨later.dispatcher, turn.journal ++ later.journal,
                later.answer.map (reacted + ·)⟩

def nextDue? (dispatcher : Dispatcher σ) : Option Time := dispatcher.delayed.nextDue?

/-! ### The cycle queue -/

def wantsClock (dispatcher : Dispatcher σ) : Bool := !dispatcher.clocked.isSuspended

/-- Reacts to entries in turn, up to the first failure. -/
def reactAll [Inhabited σ] :
    List Waiting → Dispatcher σ → Outcome σ (Except EngineError Unit)
  | [], dispatcher => ⟨dispatcher, [], .ok ()⟩
  | entry :: rest, dispatcher =>
      let reaction := dispatcher.react entry.phase entry.txn
      match reaction.answer with
      | .error error => ⟨reaction.dispatcher, reaction.journal, .error error⟩
      | .ok () =>
          let later := reactAll rest reaction.dispatcher
          { later with journal := reaction.journal ++ later.journal }

/-- One clock edge: everything due on it leaves the cycle queue at once and is then
reacted to in order. Answers the number of phases reacted to. -/
def clockEdge [Inhabited σ] (dispatcher : Dispatcher σ) : Outcome σ (Except EngineError Nat) :=
  let (due, rest) := dispatcher.clocked.tick
  let reaction := reactAll due { dispatcher with clocked := rest }
  ⟨reaction.dispatcher, reaction.journal, reaction.answer.map (fun _ => due.length)⟩

/-! ### Running up to a cycle -/

/-- One cycle towards `target`: time moves by one nanosecond, then the cycle queue
gets an edge if it wants one. If it wants none and nothing is due before the target,
there is nothing to do in between and time moves on to the target. -/
def runCycle [Inhabited σ] (budget : Nat) (target : Time) (dispatcher : Dispatcher σ) :
    Outcome σ (Except Stop Unit) :=
  let ticked := advanceTo (dispatcher.now + 1) budget dispatcher
  match ticked.answer with
  | .error stop => ⟨ticked.dispatcher, ticked.journal, .error stop⟩
  | .ok _ =>
      if ticked.dispatcher.wantsClock then
        let edge := ticked.dispatcher.clockEdge
        ⟨edge.dispatcher, ticked.journal ++ edge.journal,
          match edge.answer with
          | .error error => .error (.failed error)
          | .ok _ => .ok ()⟩
      else if ticked.dispatcher.nextDue?.all (target ≤ ·) then
        let jumped := advanceTo target budget ticked.dispatcher
        ⟨jumped.dispatcher, ticked.journal ++ jumped.journal, jumped.answer.map (fun _ => ())⟩
      else ⟨ticked.dispatcher, ticked.journal, .ok ()⟩

def runCycles [Inhabited σ] (budget : Nat) (target : Time) :
    Nat → Dispatcher σ → Outcome σ (Except Stop Unit)
  | 0, dispatcher => ⟨dispatcher, [], .ok ()⟩
  | cycles + 1, dispatcher =>
      if dispatcher.now < target then
        let cycle := dispatcher.runCycle budget target
        match cycle.answer with
        | .error stop => ⟨cycle.dispatcher, cycle.journal, .error stop⟩
        | .ok () =>
            let later := runCycles budget target cycles cycle.dispatcher
            { later with journal := cycle.journal ++ later.journal }
      else ⟨dispatcher, [], .ok ()⟩

/-- Runs up to `target`. Each cycle takes at least a nanosecond, so the distance to
the target bounds their number. -/
def runUntil [Inhabited σ] (budget : Nat) (target : Time) (dispatcher : Dispatcher σ) :
    Outcome σ (Except Stop Unit) :=
  dispatcher.runCycles budget target (target - dispatcher.now)

end Dispatcher

end Handshake
