import Handshake.Phase
set_option autoImplicit false

/-! The delay queue: phases that become due at a point in time. Its entries stand in
the order in which they leave, by due time and, at one due time, in the order in
which they were pushed. -/

namespace Handshake

structure Deferred where
  phase : Phase
  txn : TxnId
  /-- whether the phase waits for the next clock edge once its time has come -/
  sync : Bool
  deriving DecidableEq

structure Delayed extends Deferred where
  due : Time
  /-- the position of this entry among all those ever pushed -/
  sequence : Nat
  deriving DecidableEq

structure DelayQueue where
  entries : List Delayed
  pushed : Nat
  deriving DecidableEq

namespace DelayQueue

def empty : DelayQueue := ⟨[], 0⟩

/-- Places an entry behind every entry that is due no later. -/
def place (entry : Delayed) : List Delayed → List Delayed
  | [] => [entry]
  | head :: tail =>
      if entry.due < head.due then entry :: head :: tail else head :: place entry tail

def push (queue : DelayQueue) (due : Time) (entry : Deferred) : DelayQueue :=
  let sequence := queue.pushed + 1
  ⟨place ⟨entry, due, sequence⟩ queue.entries, sequence⟩

def nextDue? (queue : DelayQueue) : Option Time :=
  queue.entries.head?.map Delayed.due

def popDue? (queue : DelayQueue) (now : Time) : Option (Delayed × DelayQueue) :=
  match queue.entries with
  | [] => none
  | head :: tail => if head.due ≤ now then some (head, { queue with entries := tail }) else none

def size (queue : DelayQueue) : Nat := queue.entries.length

def isEmpty (queue : DelayQueue) : Bool := queue.entries.isEmpty

theorem place_perm (entry : Delayed) (entries : List Delayed) :
    (place entry entries).Perm (entry :: entries) := by
  induction entries with
  | nil => exact List.Perm.refl _
  | cons head tail ih =>
      unfold place
      split
      · exact List.Perm.refl _
      · exact (ih.cons head).trans (List.Perm.swap entry head tail)

end DelayQueue

end Handshake
