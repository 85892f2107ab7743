import Handshake.Engine.Dispatcher
import Handshake.Log
set_option autoImplicit false

/-! The log lines of a dispatcher's journal. Calls of callbacks and what they schedule
are not logged. -/

namespace Handshake

def Activity.logLine? {σ : Type} : Activity σ → Option Log.Line
  | .allocated handle poolSize =>
      some ⟨.info, .engine, "Allocated handle " ++ handle.name ++ " (pool size " ++
        toString poolSize ++ ")"⟩
  | .recycled handle txn =>
      some ⟨.debug, .engine, "Recycling handle " ++ handle.name ++ " for " ++ txn.name⟩
  | .notified txn event =>
      some ⟨.trace, .engine, txn.name ++ ": " ++ event.name ++ " is a timing notification only"⟩
  | .reacting txn trigger =>
      some ⟨.debug, .engine, txn.name ++ ": reacting to " ++ trigger.name⟩
  | .moved txn source trigger target =>
      some ⟨.trace, .machine, txn.name ++ ": " ++ source.name ++ " --" ++ trigger.name ++
        "--> " ++ target.name⟩
  | .called _ | .scheduled _ => none
  | .finished txn handle =>
      some ⟨.info, .engine, txn.name ++ " finished, handle " ++ handle.name ++
        " returned to the idle pool"⟩

end Handshake
