import Handshake.Phase
import Handshake.Trace.Integer
import Handshake.Transaction.Attributes
set_option autoImplicit false

/-! The record of a bus transaction and the arithmetic of its burst. A burst has
one beat more than its length field says, each of `2 ^ size` bytes. -/

namespace Handshake

structure Transaction where
  uid : TxnId
  command : Command
  /-- the identifier carried on the bus; transactions that share it stay in order -/
  axiId : Nat
  address : Nat
  /-- the number of beats minus one -/
  length : Nat
  /-- the base-two logarithm of the bytes in a beat, at most 7 in a record that was read -/
  size : Nat
  burst : BurstType
  bytes : Nat
  cache : CacheBits
  domain : Domain
  snoop : Snoop
  barrier : Barrier
  /-- whether the record stands for a snoop without data from an initiator -/
  snoopOnly : Bool
  deriving DecidableEq

namespace Transaction

def defaultSnoop : Command → Snoop
  | .write => .writeNoSnoop
  | .read | .other => .readNoSnoop

def plain (uid : TxnId) (command : Command) : Transaction :=
  { uid
    command
    axiId := 0
    address := 0
    length := 0
    size := 0
    burst := .incr
    bytes := 1
    cache := ⟨0⟩
    domain := .nonShareable
    snoop := defaultSnoop command
    barrier := .respectBarrier
    snoopOnly := false }

def forSnoop (uid : TxnId) : Transaction :=
  { plain uid .read with snoopOnly := true }

def beats (txn : Transaction) : Nat := txn.length + 1

def beatBytes (txn : Transaction) : Nat := Nat.pow 2 txn.size

def burstBytes (txn : Transaction) : Nat := txn.beatBytes * txn.beats

/-- How far into its first beat the start address lies. -/
def startOffset (txn : Transaction) : Nat := txn.address % txn.beatBytes

/-- Where the data bytes end, counted from the beginning of the first beat. The sum is kept in a
word of 64 bits and wraps around. -/
def dataEnd (txn : Transaction) : Nat := (txn.bytes + txn.startOffset) % Integer.bound

/-- Sets the shape of the burst. The byte count becomes that of the full burst. -/
def withBurst (txn : Transaction) (length size : Nat) (burst : BurstType) : Transaction :=
  let shaped := { txn with length, size, burst }
  { shaped with bytes := shaped.burstBytes }

def isRead (txn : Transaction) : Bool := txn.command = .read

def isWrite (txn : Transaction) : Bool := txn.command = .write

theorem startOffset_lt_beatBytes (txn : Transaction) : txn.startOffset < txn.beatBytes :=
  Nat.mod_lt _ (Nat.two_pow_pos txn.size)

theorem dataEnd_le (txn : Transaction) : txn.dataEnd ≤ txn.bytes + txn.startOffset :=
  Nat.mod_le _ _

theorem dataEnd_of_lt {txn : Transaction}
    (fits : txn.bytes + txn.startOffset < Integer.bound) :
    txn.dataEnd = txn.bytes + txn.startOffset :=
  Nat.mod_eq_of_lt fits

/-- A beat is a power of two, so the offset is what a mask leaves of the address. -/
theorem startOffset_eq_land (txn : Transaction) :
    txn.startOffset = txn.address &&& (txn.beatBytes - 1) :=
  (Nat.and_two_pow_sub_one_eq_mod txn.address txn.size).symm

end Transaction

end Handshake
