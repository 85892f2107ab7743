import Handshake.Phase
set_option autoImplicit false

/-! The cycle queue: phases that become due after a number of clock edges. An empty
queue is suspended: it neither needs edges nor counts them. -/

namespace Handshake

/-- A phase that lets `remaining` clock edges pass and is due on the next. -/
structure Waiting where
  phase : Phase
  txn : TxnId
  remaining : Nat
  deriving DecidableEq

structure CycleQueue where
  entries : List Waiting
  /-- how many edges reached the queue while it held entries -/
  edges : Nat
  deriving DecidableEq

namespace CycleQueue

def empty : CycleQueue := ⟨[], 0⟩

def push (queue : CycleQueue) (entry : Waiting) : CycleQueue :=
  { queue with entries := queue.entries ++ [entry] }

def isSuspended (queue : CycleQueue) : Bool := queue.entries.isEmpty

/-- One clock edge. The entries with no edge left to pass leave in the order of
pushing, and every other entry has one edge less to wait. -/
def tick (queue : CycleQueue) : List Waiting × CycleQueue :=
  if queue.isSuspended then ([], queue)
  else
    let due := queue.entries.filter (fun entry => entry.remaining = 0)
    let kept := queue.entries.filter (fun entry => entry.remaining ≠ 0)
    (due, ⟨kept.map (fun entry => { entry with remaining := entry.remaining - 1 }),
      queue.edges + 1⟩)

def size (queue : CycleQueue) : Nat := queue.entries.length

end CycleQueue

end Handshake
