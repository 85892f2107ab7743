import Mathlib.Data.List.Basic
import Handshake.Checker.Coherence
set_option autoImplicit false

/-! Lawful attributes. The coherence rules are said here of the fields of a record alone, and a
record obeys all of them exactly if no fault is found with it. What the rules on the domain of a
snoop type refuse is not in the table either, so a combination is found fault with once, if it is
not in the table, whichever rule tells of it. -/

namespace Handshake.Coherence

def Listed (barrier : Barrier) (domain : Domain) (snoop : Snoop) : Prop :=
  ∃ row ∈ table, barrier ∈ row.barriers ∧ domain ∈ row.domains ∧ snoop ∈ row.snoops

instance (barrier : Barrier) (domain : Domain) (snoop : Snoop) :
    Decidable (Listed barrier domain snoop) :=
  inferInstanceAs (Decidable (∃ row ∈ table, _))

/-- What cache maintenance asks of a transaction: it moves one cache line. -/
structure MaintainsLine (config : CheckerConfig) (txn : Transaction) : Prop where
  modifiable : txn.cache.modifiable = true
  barrier : txn.barrier = .respectBarrier
  line : Nat.pow 2 txn.size * (txn.length + 1) = config.cacheLine
  burst : txn.burst ≠ .fixed
  incr : txn.burst = .incr → Nat.pow 2 txn.size * (txn.length + 1) ∣ txn.address
  wrap : txn.burst = .wrap → Nat.pow 2 txn.size ∣ txn.address
  wide : txn.length ≠ 0 → Nat.pow 2 txn.size = config.busWidth

/-- What is asked of a transaction that is a barrier itself. -/
structure IsBareBarrier (txn : Transaction) : Prop where
  length : txn.length = 0
  burst : txn.burst = .incr
  address : txn.address = 0

structure Lawful (config : CheckerConfig) (txn : Transaction) : Prop where
  modifiable : txn.cache.allocate = true → txn.cache.modifiable = true
  system : txn.domain = .system → txn.cache.allocate = false
  listed : Listed txn.barrier txn.domain txn.snoop
  maintenance :
    txn.snoop ∈ [.cleanShared, .cleanInvalid, .cleanSharedPersist, .makeInvalid] →
      MaintainsLine config txn
  barrier : txn.barrier = .memoryBarrier ∨ txn.barrier = .syncBarrier → IsBareBarrier txn

/-! ### Single rules -/

variable {config : CheckerConfig} {txn : Transaction} {fault : AttributeFault}

theorem faultIf_eq_nil_iff {broken : Prop} [Decidable broken] :
    faultIf broken fault = [] ↔ ¬ broken := by
  unfold faultIf
  split <;> simp_all

theorem cacheFaults_eq_nil_iff :
    cacheFaults txn = [] ↔
      (txn.cache.allocate = true → txn.cache.modifiable = true) ∧
        (txn.domain = .system → txn.cache.allocate = false) := by
  simp only [cacheFaults, List.append_eq_nil_iff, faultIf_eq_nil_iff, not_and,
    Bool.not_eq_true, Bool.not_eq_false]

theorem alignmentFaults_eq_nil_iff :
    alignmentFaults txn = [] ↔
      txn.burst ≠ .fixed ∧ (txn.burst = .incr → txn.burstBytes ∣ txn.address) ∧
        (txn.burst = .wrap → txn.beatBytes ∣ txn.address) := by
  have whole : txn.address % txn.burstBytes = 0 ↔ txn.burstBytes ∣ txn.address :=
    Nat.dvd_iff_mod_eq_zero.symm
  have beat : txn.startOffset = 0 ↔ txn.beatBytes ∣ txn.address := Nat.dvd_iff_mod_eq_zero.symm
  unfold alignmentFaults
  cases txn.burst with
  | fixed => simp
  | incr => simp [faultIf_eq_nil_iff, whole]
  | wrap => simp [faultIf_eq_nil_iff, beat]

theorem maintenanceFaults_eq_nil_iff :
    maintenanceFaults config txn = [] ↔ MaintainsLine config txn := by
  have beats : 1 < txn.beats ↔ txn.length ≠ 0 := by
    unfold Transaction.beats
    omega
  simp only [maintenanceFaults, List.append_eq_nil_iff, faultIf_eq_nil_iff,
    alignmentFaults_eq_nil_iff, not_and, not_not, beats]
  constructor
  · rintro ⟨⟨⟨⟨modifiable, barrier⟩, line⟩, burst, incr, wrap⟩, wide⟩
    exact ⟨modifiable, barrier, line, burst, incr, wrap, wide⟩
  · rintro ⟨modifiable, barrier, line, burst, incr, wrap, wide⟩
    exact ⟨⟨⟨⟨modifiable, barrier⟩, line⟩, burst, incr, wrap⟩, wide⟩

theorem barrierFaults_eq_nil_iff : barrierFaults txn = [] ↔ IsBareBarrier txn := by
  simp only [barrierFaults, List.append_eq_nil_iff, faultIf_eq_nil_iff, not_not]
  constructor
  · rintro ⟨⟨length, burst⟩, address⟩
    exact ⟨length, burst, address⟩
  · rintro ⟨length, burst, address⟩
    exact ⟨⟨length, burst⟩, address⟩

/-! ### The table -/

private theorem isLegal_iff_listed (barrier : Barrier) (domain : Domain) (snoop : Snoop) :
    isLegal barrier domain snoop = true ↔ Listed barrier domain snoop := by
  simp only [isLegal, Listed, List.any_eq_true, Bool.and_eq_true, decide_eq_true_eq, and_assoc]

private theorem domains_of_mem_table : ∀ row ∈ table, ∀ snoop ∈ row.snoops,
    (snoop.isNonSnooping = true → row.domains = nonSnoopingDomains) ∧
      (snoop ∈ coherent → row.domains = shareable) := by
  decide

private theorem combinationFaults_length (txn : Transaction) :
    (combinationFaults txn).length =
      if Listed txn.barrier txn.domain txn.snoop then 0 else 1 := by
  unfold combinationFaults
  split
  · rename_i outside
    rw [if_neg, List.length_singleton]
    rintro ⟨row, member, -, domain, snoop⟩
    rw [(domains_of_mem_table row member _ snoop).1 outside.1] at domain
    exact outside.2 domain
  · split
    · rename_i outside
      rw [if_neg, List.length_singleton]
      rintro ⟨row, member, -, domain, snoop⟩
      rw [(domains_of_mem_table row member _ snoop).2 outside.1] at domain
      exact outside.2 domain
    · unfold faultIf
      simp only [isLegal_iff_listed]
      by_cases listed : Listed txn.barrier txn.domain txn.snoop
      · rw [if_neg (not_not.mpr listed), if_pos listed, List.length_nil]
      · rw [if_pos listed, if_neg listed, List.length_singleton]

theorem combinationFaults_eq_nil_iff :
    combinationFaults txn = [] ↔ Listed txn.barrier txn.domain txn.snoop := by
  rw [← List.length_eq_zero_iff, combinationFaults_length]
  split <;> simp_all

/-! ### Kinds -/

private theorem kind_of_mem_faultIf {broken : Prop} [Decidable broken] {kind : ViolationKind}
    (same : fault.kind = kind) : ∀ found ∈ faultIf broken fault, found.kind = kind := by
  intro found member
  unfold faultIf at member
  split at member
  · rw [List.mem_singleton.mp member, same]
  · cases member

private theorem kind_of_mem_cacheFaults : ∀ found ∈ cacheFaults txn, found.kind = .cacheAttribute :=
  List.forall_mem_append.mpr ⟨kind_of_mem_faultIf rfl, kind_of_mem_faultIf rfl⟩

private theorem kind_of_mem_combinationFaults :
    ∀ found ∈ combinationFaults txn, found.kind = .attributeCombination := by
  unfold combinationFaults
  split
  · exact List.forall_mem_singleton.mpr rfl
  · split
    · exact List.forall_mem_singleton.mpr rfl
    · exact kind_of_mem_faultIf rfl

private theorem kind_of_mem_alignmentFaults :
    ∀ found ∈ alignmentFaults txn, found.kind = .cacheMaintenance := by
  unfold alignmentFaults
  split
  · exact List.forall_mem_singleton.mpr rfl
  · exact kind_of_mem_faultIf rfl
  · exact kind_of_mem_faultIf rfl

private theorem kind_of_mem_maintenanceFaults :
    ∀ found ∈ maintenanceFaults config txn, found.kind = .cacheMaintenance := by
  simp only [maintenanceFaults, List.forall_mem_append]
  exact ⟨⟨⟨⟨kind_of_mem_faultIf rfl, kind_of_mem_faultIf rfl⟩, kind_of_mem_faultIf rfl⟩,
    kind_of_mem_alignmentFaults⟩, kind_of_mem_faultIf rfl⟩

private theorem kind_of_mem_barrierFaults : ∀ found ∈ barrierFaults txn, found.kind = .barrier := by
  simp only [barrierFaults, List.forall_mem_append]
  exact ⟨⟨kind_of_mem_faultIf rfl, kind_of_mem_faultIf rfl⟩, kind_of_mem_faultIf rfl⟩

private theorem filter_attributeFaults (config : CheckerConfig) (txn : Transaction) :
    (attributeFaults config txn).filter (fun fault => fault.kind = .attributeCombination) =
      combinationFaults txn := by
  have none : ∀ {faults : List AttributeFault} {kind : ViolationKind},
      (∀ found ∈ faults, found.kind = kind) → kind ≠ .attributeCombination →
        faults.filter (fun fault => fault.kind = .attributeCombination) = [] := by
    intro faults kind same other
    refine List.filter_eq_nil_iff.mpr (fun found member => ?_)
    rw [same found member]
    exact fun equal => other (of_decide_eq_true equal)
  have all : (combinationFaults txn).filter (fun fault => fault.kind = .attributeCombination) =
      combinationFaults txn :=
    List.filter_eq_self.mpr (fun found member =>
      decide_eq_true (kind_of_mem_combinationFaults found member))
  simp only [attributeFaults, List.filter_append, all, none kind_of_mem_cacheFaults (by decide),
    List.nil_append]
  split <;> split <;>
    simp [none kind_of_mem_maintenanceFaults, none kind_of_mem_barrierFaults]

/-! ### All rules -/

theorem attributeFaults_eq_nil_iff :
    attributeFaults config txn = [] ↔ Lawful config txn := by
  have maintenance : txn.snoop.isCacheMaintenance = true ↔
      txn.snoop ∈ [.cleanShared, .cleanInvalid, .cleanSharedPersist, .makeInvalid] := by
    cases txn.snoop <;> decide
  have barrier : txn.barrier.isBarrier = true ↔
      txn.barrier = .memoryBarrier ∨ txn.barrier = .syncBarrier := by
    cases txn.barrier <;> decide
  simp only [attributeFaults, List.append_eq_nil_iff, ite_eq_right_iff, cacheFaults_eq_nil_iff,
    combinationFaults_eq_nil_iff, maintenanceFaults_eq_nil_iff, barrierFaults_eq_nil_iff,
    maintenance, barrier]
  constructor
  · rintro ⟨⟨⟨⟨modifiable, system⟩, listed⟩, maintained⟩, bare⟩
    exact ⟨modifiable, system, listed, maintained, bare⟩
  · rintro ⟨modifiable, system, listed, maintained, bare⟩
    exact ⟨⟨⟨⟨modifiable, system⟩, listed⟩, maintained⟩, bare⟩

/-- The bytes of a burst that fills a line, aligned to its own size, are in one line. -/
theorem div_cacheLine_of_incr (maintains : MaintainsLine config txn) (incr : txn.burst = .incr)
    {byte : Nat} (start : txn.address ≤ byte) (stop : byte < txn.address + txn.burstBytes) :
    byte / config.cacheLine = txn.address / config.cacheLine := by
  have size : txn.burstBytes = config.cacheLine := maintains.line
  obtain ⟨line, address⟩ := maintains.incr incr
  rw [maintains.line] at address
  rw [size, address] at stop
  rw [address] at start ⊢
  have positive : 0 < config.cacheLine := by omega
  rw [Nat.mul_div_cancel_left line positive]
  exact Nat.div_eq_of_lt_le (by rwa [Nat.mul_comm]) (by rwa [Nat.succ_mul, Nat.mul_comm])

/-- No fault is found with a record exactly if it is lawful; of its combination of barrier, domain
and snoop type there is one fault if it is not in the table, and none if it is; and an
incrementing cache maintenance access without fault has all its bytes in one cache line. -/
theorem lawful_iff_and_combination_once (config : CheckerConfig) (txn : Transaction) :
    (attributeFaults config txn = [] ↔ Lawful config txn) ∧
      (attributeFaults config txn).countP (fun fault => fault.kind = .attributeCombination) =
        (if Listed txn.barrier txn.domain txn.snoop then 0 else 1) ∧
      (attributeFaults config txn = [] →
        txn.snoop ∈ [.cleanShared, .cleanInvalid, .cleanSharedPersist, .makeInvalid] →
          txn.burst = .incr → ∀ byte, txn.address ≤ byte →
            byte < txn.address + txn.burstBytes →
              byte / config.cacheLine = txn.address / config.cacheLine) := by
  refine ⟨attributeFaults_eq_nil_iff, ?_, ?_⟩
  · rw [List.countP_eq_length_filter, filter_attributeFaults, combinationFaults_length]
  · intro faultless maintains incr byte start stop
    have lawful := attributeFaults_eq_nil_iff.mp faultless
    exact div_cacheLine_of_incr (lawful.maintenance maintains) incr start stop

def lineCleaned : Transaction :=
  { Transaction.plain ⟨0⟩ .other with
    address := 0x1040, length := 7, size := 3, bytes := 64, cache := ⟨2⟩
    domain := .innerShareable, snoop := .cleanInvalid }

theorem byte_in_line_of_lineCleaned :
    attributeFaults {} lineCleaned = [] ∧ Lawful {} lineCleaned ∧
      0x107f / ({} : CheckerConfig).cacheLine =
        lineCleaned.address / ({} : CheckerConfig).cacheLine := by
  have faultless : attributeFaults {} lineCleaned = [] := by decide
  obtain ⟨lawful, -, inLine⟩ := lawful_iff_and_combination_once {} lineCleaned
  exact ⟨faultless, lawful.mp faultless,
    inLine faultless (by decide) rfl 0x107f (by decide) (by decide)⟩

end Handshake.Coherence
