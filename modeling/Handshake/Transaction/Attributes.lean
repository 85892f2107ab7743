set_option autoImplicit false

/-! The attributes of a bus transaction: its command, burst type, shareability
domain, barrier kind, snoop type and cache bits. -/

namespace Handshake

inductive Command where
  | read
  | write
  /-- neither read nor write, such as a request without data -/
  | other
  deriving DecidableEq

namespace Command

def name : Command → String
  | read => "read"
  | write => "write"
  | other => "other"

def all : List Command := [read, write, other]

def index : Command → Nat
  | read => 0
  | write => 1
  | other => 2

end Command

inductive BurstType where
  | fixed
  | incr
  | wrap
  deriving DecidableEq

namespace BurstType

def name : BurstType → String
  | fixed => "Fixed"
  | incr => "Incr"
  | wrap => "Wrap"

def all : List BurstType := [fixed, incr, wrap]

end BurstType

inductive Domain where
  | nonShareable
  | innerShareable
  | outerShareable
  | system
  deriving DecidableEq

namespace Domain

def name : Domain → String
  | nonShareable => "NonShareable"
  | innerShareable => "InnerShareable"
  | outerShareable => "OuterShareable"
  | system => "System"

def all : List Domain := [nonShareable, innerShareable, outerShareable, system]

end Domain

inductive Barrier where
  | respectBarrier
  | memoryBarrier
  | ignoreBarrier
  | syncBarrier
  deriving DecidableEq

namespace Barrier

def name : Barrier → String
  | respectBarrier => "RespectBarrier"
  | memoryBarrier => "MemoryBarrier"
  | ignoreBarrier => "IgnoreBarrier"
  | syncBarrier => "SyncBarrier"

def all : List Barrier := [respectBarrier, memoryBarrier, ignoreBarrier, syncBarrier]

/-- Whether the transaction is itself a barrier, rather than an access that
respects or ignores barriers. -/
def isBarrier : Barrier → Bool
  | memoryBarrier | syncBarrier => true
  | respectBarrier | ignoreBarrier => false

end Barrier

inductive Snoop where
  | readNoSnoop
  | readOnce
  | readShared
  | readClean
  | readNotSharedDirty
  | readUnique
  | cleanUnique
  | makeUnique
  | cleanShared
  | cleanInvalid
  | cleanSharedPersist
  | makeInvalid
  | dvmComplete
  | dvmMessage
  | barrier
  | writeNoSnoop
  | writeUnique
  | writeLineUnique
  | writeClean
  | writeBack
  | evict
  | writeEvict
  deriving DecidableEq

namespace Snoop

def all : List Snoop :=
  [readNoSnoop, readOnce, readShared, readClean, readNotSharedDirty, readUnique, cleanUnique,
    makeUnique, cleanShared, cleanInvalid, cleanSharedPersist, makeInvalid, dvmComplete,
    dvmMessage, barrier, writeNoSnoop, writeUnique, writeLineUnique, writeClean, writeBack,
    evict, writeEvict]

def name : Snoop → String
  | readNoSnoop => "ReadNoSnoop"
  | readOnce => "ReadOnce"
  | readShared => "ReadShared"
  | readClean => "ReadClean"
  | readNotSharedDirty => "ReadNotSharedDirty"
  | readUnique => "ReadUnique"
  | cleanUnique => "CleanUnique"
  | makeUnique => "MakeUnique"
  | cleanShared => "CleanShared"
  | cleanInvalid => "CleanInvalid"
  | cleanSharedPersist => "CleanSharedPersist"
  | makeInvalid => "MakeInvalid"
  | dvmComplete => "DvmComplete"
  | dvmMessage => "DvmMessage"
  | barrier => "Barrier"
  | writeNoSnoop => "WriteNoSnoop"
  | writeUnique => "WriteUnique"
  | writeLineUnique => "WriteLineUnique"
  | writeClean => "WriteClean"
  | writeBack => "WriteBack"
  | evict => "Evict"
  | writeEvict => "WriteEvict"

/-- A spelling with its underscores removed and its ASCII letters in lower case;
letters outside ASCII keep their case. -/
def folded (text : String) : List Char :=
  (text.toList.filter (· != '_')).map Char.toLower

/-- The snoop type of a given name. Underscores and the case of ASCII letters do
not matter, so `read_shared` and `ReadShared` are the same name. -/
def ofName? (text : String) : Option Snoop :=
  all.find? (fun snoop => folded snoop.name == folded text)

def unknownMessage (text : String) : String :=
  "unknown snoop type `" ++ text ++ "`"

def isCacheMaintenance : Snoop → Bool
  | cleanShared | cleanInvalid | cleanSharedPersist | makeInvalid => true
  | _ => false

def isNonSnooping : Snoop → Bool
  | readNoSnoop | writeNoSnoop => true
  | _ => false

end Snoop

/-- The cache bits: bit 0 bufferable, bit 1 modifiable, bits 2 and 3 the two
allocate hints. -/
structure CacheBits where
  bits : Nat
  deriving DecidableEq

namespace CacheBits

def bufferable (cache : CacheBits) : Bool := cache.bits.testBit 0

def modifiable (cache : CacheBits) : Bool := cache.bits.testBit 1

def allocate (cache : CacheBits) : Bool := cache.bits.testBit 2 || cache.bits.testBit 3

end CacheBits

end Handshake
