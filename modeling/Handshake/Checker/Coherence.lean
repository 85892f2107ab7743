import Handshake.Checker.Kind
import Handshake.Config
import Handshake.Text.Radix
import Handshake.Transaction.Record
set_option autoImplicit false

/-! Legality of the coherence attributes of a transaction. Barrier, domain and snoop
type must form one of the combinations of a fixed table; apart from the table there
are rules on the cache bits, on cache maintenance and on barriers. -/

namespace Handshake

inductive AttributeFault where
  | allocateUnmodifiable (cache : CacheBits)
  | allocateInSystem (cache : CacheBits)
  | nonSnoopingDomain (snoop : Snoop) (domain : Domain)
  | coherentDomain (snoop : Snoop) (domain : Domain)
  | illegalCombination (barrier : Barrier) (domain : Domain) (snoop : Snoop)
  | maintenanceUnmodifiable (snoop : Snoop)
  | maintenanceBarrier (snoop : Snoop) (barrier : Barrier)
  | maintenanceSize (snoop : Snoop) (bytes line : Nat)
  | maintenanceFixed (snoop : Snoop)
  | maintenanceIncrUnaligned (snoop : Snoop) (address bytes : Nat)
  | maintenanceWrapUnaligned (snoop : Snoop) (address beatBytes : Nat)
  | maintenanceNarrow (snoop : Snoop) (beatBytes busWidth : Nat)
  | barrierLength (barrier : Barrier) (length : Nat)
  | barrierBurst (barrier : Barrier)
  | barrierAddress (barrier : Barrier) (address : Nat)
  deriving DecidableEq

namespace AttributeFault

def kind : AttributeFault → ViolationKind
  | allocateUnmodifiable _ | allocateInSystem _ => .cacheAttribute
  | nonSnoopingDomain _ _ | coherentDomain _ _ | illegalCombination _ _ _ =>
      .attributeCombination
  | maintenanceUnmodifiable _ | maintenanceBarrier _ _ | maintenanceSize _ _ _
  | maintenanceFixed _ | maintenanceIncrUnaligned _ _ _ | maintenanceWrapUnaligned _ _ _
  | maintenanceNarrow _ _ _ => .cacheMaintenance
  | barrierLength _ _ | barrierBurst _ | barrierAddress _ _ => .barrier

def message : AttributeFault → String
  | allocateUnmodifiable cache =>
      "AxCACHE " ++ binary 4 cache.bits ++ " sets an allocate bit without the modifiable bit"
  | allocateInSystem cache =>
      "AxCACHE " ++ binary 4 cache.bits ++ " allocates in the system domain"
  | nonSnoopingDomain snoop domain =>
      snoop.name ++ " must use the non-shareable or system domain, not " ++ domain.name
  | coherentDomain snoop domain =>
      snoop.name ++ " must use an inner or outer shareable domain, not " ++ domain.name
  | illegalCombination barrier domain snoop =>
      "illegal combination of " ++ barrier.name ++ ", " ++ domain.name ++ " and " ++ snoop.name
  | maintenanceUnmodifiable snoop => snoop.name ++ " requires the modifiable AxCACHE bit"
  | maintenanceBarrier snoop barrier => snoop.name ++ " must not use " ++ barrier.name
  | maintenanceSize snoop bytes line =>
      snoop.name ++ " covers " ++ toString bytes ++ " bytes instead of one " ++ toString line ++
        "-byte cache line"
  | maintenanceFixed snoop => snoop.name ++ " must not use a FIXED burst"
  | maintenanceIncrUnaligned snoop address bytes =>
      "INCR " ++ snoop.name ++ " at " ++ hexadecimal address ++ " is not aligned to its " ++
        toString bytes ++ "-byte transfer"
  | maintenanceWrapUnaligned snoop address beatBytes =>
      "WRAP " ++ snoop.name ++ " at " ++ hexadecimal address ++ " is not aligned to its " ++
        toString beatBytes ++ "-byte beats"
  | maintenanceNarrow snoop beatBytes busWidth =>
      "multi-beat " ++ snoop.name ++ " uses " ++ toString beatBytes ++ "-byte beats on a " ++
        toString busWidth ++ "-byte bus"
  | barrierLength barrier length =>
      barrier.name ++ " must be a single beat, AxLEN is " ++ toString length
  | barrierBurst barrier => barrier.name ++ " must use an INCR burst"
  | barrierAddress barrier address =>
      barrier.name ++ " must target address 0, not " ++ hexadecimal address

end AttributeFault

namespace Coherence

/-! ### The table -/

/-- Every barrier of a row goes with every domain and every snoop type of it. -/
structure Row where
  barriers : List Barrier
  domains : List Domain
  snoops : List Snoop

def normal : List Barrier := [.respectBarrier, .ignoreBarrier]

def nonSnoopingDomains : List Domain := [.nonShareable, .system]

def shareable : List Domain := [.innerShareable, .outerShareable]

def coherent : List Snoop :=
  [.readOnce, .readShared, .readClean, .readNotSharedDirty, .readUnique, .cleanUnique,
    .makeUnique, .writeUnique, .writeLineUnique, .evict, .dvmComplete, .dvmMessage]

def table : List Row :=
  [⟨normal, nonSnoopingDomains, [.readNoSnoop, .writeNoSnoop]⟩,
    ⟨normal, shareable, coherent⟩,
    ⟨normal, [.nonShareable, .innerShareable, .outerShareable],
      [.cleanShared, .cleanInvalid, .cleanSharedPersist, .makeInvalid, .writeClean,
        .writeBack, .writeEvict]⟩,
    ⟨[.memoryBarrier, .syncBarrier], Domain.all, [.barrier]⟩]

def isLegal (barrier : Barrier) (domain : Domain) (snoop : Snoop) : Bool :=
  table.any (fun row =>
    decide (barrier ∈ row.barriers) && decide (domain ∈ row.domains) &&
      decide (snoop ∈ row.snoops))

def legalSnoops (barrier : Barrier) (domain : Domain) : List Snoop :=
  Snoop.all.filter (isLegal barrier domain)

def legalCount : Nat :=
  (Barrier.all.flatMap (fun barrier => Domain.all.flatMap (legalSnoops barrier))).length

/-! ### The rules -/

def faultIf (broken : Prop) [Decidable broken] (fault : AttributeFault) : List AttributeFault :=
  if broken then [fault] else []

def cacheFaults (txn : Transaction) : List AttributeFault :=
  faultIf (txn.cache.allocate ∧ ¬ txn.cache.modifiable) (.allocateUnmodifiable txn.cache) ++
    faultIf (txn.domain = .system ∧ txn.cache.allocate) (.allocateInSystem txn.cache)

/-- At most one fault; the domain rules of a snoop type come before the table. -/
def combinationFaults (txn : Transaction) : List AttributeFault :=
  if txn.snoop.isNonSnooping ∧ txn.domain ∉ nonSnoopingDomains then
    [.nonSnoopingDomain txn.snoop txn.domain]
  else if txn.snoop ∈ coherent ∧ txn.domain ∉ shareable then
    [.coherentDomain txn.snoop txn.domain]
  else
    faultIf (¬ isLegal txn.barrier txn.domain txn.snoop)
      (.illegalCombination txn.barrier txn.domain txn.snoop)

def alignmentFaults (txn : Transaction) : List AttributeFault :=
  match txn.burst with
  | .fixed => [.maintenanceFixed txn.snoop]
  | .incr =>
      faultIf (txn.address % txn.burstBytes ≠ 0)
        (.maintenanceIncrUnaligned txn.snoop txn.address txn.burstBytes)
  | .wrap =>
      faultIf (txn.startOffset ≠ 0)
        (.maintenanceWrapUnaligned txn.snoop txn.address txn.beatBytes)

def maintenanceFaults (config : CheckerConfig) (txn : Transaction) : List AttributeFault :=
  faultIf (¬ txn.cache.modifiable) (.maintenanceUnmodifiable txn.snoop) ++
    faultIf (txn.barrier ≠ .respectBarrier) (.maintenanceBarrier txn.snoop txn.barrier) ++
    faultIf (txn.burstBytes ≠ config.cacheLine)
      (.maintenanceSize txn.snoop txn.burstBytes config.cacheLine) ++
    alignmentFaults txn ++
    faultIf (1 < txn.beats ∧ txn.beatBytes ≠ config.busWidth)
      (.maintenanceNarrow txn.snoop txn.beatBytes config.busWidth)

def barrierFaults (txn : Transaction) : List AttributeFault :=
  faultIf (txn.length ≠ 0) (.barrierLength txn.barrier txn.length) ++
    faultIf (txn.burst ≠ .incr) (.barrierBurst txn.barrier) ++
    faultIf (txn.address ≠ 0) (.barrierAddress txn.barrier txn.address)

def attributeFaults (config : CheckerConfig) (txn : Transaction) : List AttributeFault :=
  cacheFaults txn ++ combinationFaults txn ++
    (if txn.snoop.isCacheMaintenance then maintenanceFaults config txn else []) ++
    (if txn.barrier.isBarrier then barrierFaults txn else [])

end Coherence

end Handshake
