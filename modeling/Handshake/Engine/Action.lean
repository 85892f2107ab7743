import Handshake.Engine.Callback
set_option autoImplicit false

/-! Callbacks made of fixed actions. Such a callback does the same whatever the context
that it is called in: it schedules phases, and adds to the beat count and to a scratch
value that is a number. -/

namespace Handshake

inductive Action where
  | schedule (phase : Phase) (moment : When)
  | addBeats (count : Nat)
  | addScratch (count : Nat)
  deriving DecidableEq

namespace Action

def take (effect : Effect Nat) : Action → Effect Nat
  | schedule phase moment => { effect with requests := effect.requests ++ [(phase, moment)] }
  | addBeats count => { effect with beats := effect.beats + count }
  | addScratch count => { effect with scratch := effect.scratch + count }

end Action

/-- The callback that takes some actions in turn. -/
def Callback.ofActions (actions : List Action) : Callback Nat := fun context =>
  actions.foldl Action.take context.unchanged

end Handshake
