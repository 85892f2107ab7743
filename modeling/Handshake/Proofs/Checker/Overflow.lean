import Handshake.Checker.Tracker
import Handshake.Proofs.Trace.Faithful
set_option autoImplicit false

/-! The rules on bursts and attributes in words of 64 bits. They are evaluated here once more, step
by step, where a step has no result if its value does not fit into a word or if it divides by zero.
For a record that a trace declares every step has one, except the end of the bytes that a write or
a read moves: a byte count close to the largest word does not leave room for the offset. -/

namespace Handshake

/-! ### Arithmetic in words -/

namespace Word

def fit? (number : Nat) : Option Nat := if number < Integer.bound then some number else none

def add? (first second : Nat) : Option Nat := fit? (first + second)

def mul? (first second : Nat) : Option Nat := fit? (first * second)

def sub? (first second : Nat) : Option Nat :=
  if second ≤ first then some (first - second) else none

def bit? (place : Nat) : Option Nat := if place < 64 then fit? (Nat.pow 2 place) else none

def mod? (number modulus : Nat) : Option Nat :=
  if modulus = 0 then none else some (number % modulus)

private theorem fit?_of_lt {number : Nat} (fits : number < Integer.bound) :
    fit? number = some number :=
  if_pos fits

private theorem fit?_of_le {number : Nat} (exceeds : Integer.bound ≤ number) : fit? number = none :=
  if_neg (Nat.not_lt.mpr exceeds)

end Word

/-! ### The rules in words -/

namespace Transaction

variable (txn : Transaction)

def beats? : Option Nat := Word.add? txn.length 1

def beatBytes? : Option Nat := Word.bit? txn.size

def burstBytes? : Option Nat := do
  let beatBytes ← txn.beatBytes?
  let beats ← txn.beats?
  Word.mul? beatBytes beats

def startOffset? : Option Nat := do
  let beatBytes ← txn.beatBytes?
  let mask ← Word.sub? beatBytes 1
  return txn.address &&& mask

end Transaction

def beatBreaches? (side : Side) (beats : Nat) (txn : Transaction) : Option (List Breach) := do
  let due ← txn.beats?
  return if beats = due then [] else [.beatCount side beats txn.length]

def byteBreaches? (txn : Transaction) : Option (List Breach) := do
  let expected ← txn.burstBytes?
  let offset ← txn.startOffset?
  if offset = 0 then
    return if txn.bytes = expected then []
      else [.byteCount txn.bytes txn.size txn.length expected]
  else
    let stop ← Word.add? txn.bytes offset
    return if stop ≤ expected then [] else [.byteOverrun txn.bytes offset expected]

namespace Coherence

def alignmentFaults? (txn : Transaction) : Option (List AttributeFault) :=
  match txn.burst with
  | .fixed => some [.maintenanceFixed txn.snoop]
  | .incr => do
      let burstBytes ← txn.burstBytes?
      let excess ← Word.mod? txn.address burstBytes
      return faultIf (excess ≠ 0) (.maintenanceIncrUnaligned txn.snoop txn.address burstBytes)
  | .wrap => do
      let offset ← txn.startOffset?
      let beatBytes ← txn.beatBytes?
      return faultIf (offset ≠ 0) (.maintenanceWrapUnaligned txn.snoop txn.address beatBytes)

def maintenanceFaults? (config : CheckerConfig) (txn : Transaction) :
    Option (List AttributeFault) := do
  let burstBytes ← txn.burstBytes?
  let alignment ← alignmentFaults? txn
  let beats ← txn.beats?
  let beatBytes ← txn.beatBytes?
  return faultIf (¬ txn.cache.modifiable) (.maintenanceUnmodifiable txn.snoop) ++
    faultIf (txn.barrier ≠ .respectBarrier) (.maintenanceBarrier txn.snoop txn.barrier) ++
    faultIf (burstBytes ≠ config.cacheLine)
      (.maintenanceSize txn.snoop burstBytes config.cacheLine) ++
    alignment ++
    faultIf (1 < beats ∧ beatBytes ≠ config.busWidth)
      (.maintenanceNarrow txn.snoop beatBytes config.busWidth)

def attributeFaults? (config : CheckerConfig) (txn : Transaction) :
    Option (List AttributeFault) := do
  let maintenance ←
    if txn.snoop.isCacheMaintenance then maintenanceFaults? config txn else some []
  return cacheFaults txn ++ combinationFaults txn ++ maintenance ++
    (if txn.barrier.isBarrier then barrierFaults txn else [])

end Coherence

/-! ### Records within their widths -/

namespace Transaction.WithinWidths

variable {txn : Transaction} (fits : txn.WithinWidths)

include fits

theorem beatBytes_le : txn.beatBytes ≤ 128 := by
  have size := fits.size
  calc txn.beatBytes
    _ ≤ 2 ^ 7 := Nat.pow_le_pow_right (by decide) size
    _ = 128 := by decide

theorem burstBytes_le : txn.burstBytes ≤ 32768 := by
  have beats : txn.beats ≤ 256 := fits.length
  calc txn.burstBytes
    _ ≤ 128 * 256 := Nat.mul_le_mul fits.beatBytes_le beats
    _ = 32768 := by decide

theorem beats?_eq : txn.beats? = some txn.beats := by
  have length := fits.length
  apply Word.fit?_of_lt
  unfold Integer.bound
  omega

theorem beatBytes?_eq : txn.beatBytes? = some txn.beatBytes := by
  have size : txn.size < 64 := Nat.lt_of_le_of_lt fits.size (by decide)
  have value : Nat.pow 2 txn.size < Integer.bound :=
    Nat.lt_of_le_of_lt fits.beatBytes_le (by decide)
  rw [beatBytes?, Word.bit?, if_pos size, Word.fit?_of_lt value]
  rfl

theorem burstBytes?_eq : txn.burstBytes? = some txn.burstBytes := by
  have value : txn.beatBytes * txn.beats < Integer.bound :=
    Nat.lt_of_le_of_lt fits.burstBytes_le (by decide)
  simp only [burstBytes?, fits.beatBytes?_eq, fits.beats?_eq, Option.bind_eq_bind,
    Option.bind_some]
  exact Word.fit?_of_lt value

theorem startOffset?_eq : txn.startOffset? = some txn.startOffset := by
  have positive : 1 ≤ txn.beatBytes := Nat.two_pow_pos txn.size
  simp only [startOffset?, fits.beatBytes?_eq, Word.sub?, if_pos positive, Option.bind_eq_bind,
    Option.bind_some, startOffset_eq_land]
  rfl

omit fits in
theorem mod?_burstBytes (txn : Transaction) :
    Word.mod? txn.address txn.burstBytes = some (txn.address % txn.burstBytes) := by
  have positive : 0 < txn.burstBytes :=
    Nat.mul_pos (Nat.two_pow_pos txn.size) (Nat.succ_pos txn.length)
  exact if_neg (Nat.ne_of_gt positive)

theorem beatBreaches?_eq (side : Side) (beats : Nat) :
    beatBreaches? side beats txn = some (beatBreaches side beats txn) := by
  simp only [beatBreaches?, fits.beats?_eq, Option.bind_eq_bind, Option.bind_some]
  rfl

theorem alignmentFaults?_eq :
    Coherence.alignmentFaults? txn = some (Coherence.alignmentFaults txn) := by
  unfold Coherence.alignmentFaults? Coherence.alignmentFaults
  cases txn.burst with
  | fixed => rfl
  | incr =>
      simp only [fits.burstBytes?_eq, mod?_burstBytes, Option.bind_eq_bind, Option.bind_some]
      rfl
  | wrap =>
      simp only [fits.startOffset?_eq, fits.beatBytes?_eq, Option.bind_eq_bind, Option.bind_some]
      rfl

theorem maintenanceFaults?_eq (config : CheckerConfig) :
    Coherence.maintenanceFaults? config txn = some (Coherence.maintenanceFaults config txn) := by
  simp only [Coherence.maintenanceFaults?, fits.burstBytes?_eq, fits.alignmentFaults?_eq,
    fits.beats?_eq, fits.beatBytes?_eq, Option.bind_eq_bind, Option.bind_some]
  rfl

theorem attributeFaults?_eq (config : CheckerConfig) :
    Coherence.attributeFaults? config txn = some (Coherence.attributeFaults config txn) := by
  have maintenance := fits.maintenanceFaults?_eq config
  unfold Coherence.attributeFaults? Coherence.attributeFaults
  by_cases maintains : txn.snoop.isCacheMaintenance = true
  · simp only [if_pos maintains, maintenance, Option.bind_eq_bind, Option.bind_some]
    rfl
  · simp only [if_neg maintains, Option.bind_eq_bind, Option.bind_some]
    rfl

/-- The rule on the byte count has a result exactly if its one sum fits into a word. At offset zero
there is no sum to make, and the byte count alone fits. -/
theorem byteBreaches?_eq :
    byteBreaches? txn =
      if txn.bytes + txn.startOffset < Integer.bound then some (byteBreaches txn) else none := by
  simp only [byteBreaches?, fits.burstBytes?_eq, fits.startOffset?_eq, Option.bind_eq_bind,
    Option.bind_some]
  by_cases aligned : txn.startOffset = 0
  · have sum : txn.bytes + txn.startOffset < Integer.bound := by
      rw [aligned]
      exact fits.bytes
    rw [if_pos aligned, if_pos sum, byteBreaches, if_pos aligned]
    rfl
  · rw [if_neg aligned, byteBreaches, if_neg aligned]
    by_cases sum : txn.bytes + txn.startOffset < Integer.bound
    · rw [Word.add?, Word.fit?_of_lt sum, if_pos sum, dataEnd_of_lt sum]
      rfl
    · rw [Word.add?, Word.fit?_of_le (Nat.not_lt.mp sum), if_neg sum]
      rfl

/-- A sum that does not fit runs past the end of the burst, but what is left of it does not. -/
theorem overrun_of_overflow (overflow : Integer.bound ≤ txn.bytes + txn.startOffset) :
    txn.startOffset ≠ 0 ∧ txn.burstBytes < txn.bytes + txn.startOffset ∧
      byteBreaches txn = [] := by
  have bytes := fits.bytes
  have burst := fits.burstBytes_le
  have offset : txn.startOffset < txn.beatBytes := txn.startOffset_lt_beatBytes
  have first : txn.beatBytes ≤ txn.burstBytes := Nat.le_mul_of_pos_right _ (Nat.succ_pos _)
  have small : txn.burstBytes < Integer.bound := Nat.lt_of_le_of_lt burst (by decide)
  have unaligned : txn.startOffset ≠ 0 := by omega
  have wrapped : txn.dataEnd = txn.bytes + txn.startOffset - Integer.bound := by
    rw [dataEnd, Nat.mod_eq_sub_mod overflow]
    exact Nat.mod_eq_of_lt (by omega)
  refine ⟨unaligned, by omega, ?_⟩
  rw [byteBreaches, if_neg unaligned, if_pos (by omega)]

end Transaction.WithinWidths

/-! ### What a trace declares -/

/-- What the rules compute of a record in words is what they compute, with the one exception. -/
structure Transaction.FitsWords (config : CheckerConfig) (txn : Transaction) : Prop where
  beats : ∀ side beats, beatBreaches? side beats txn = some (beatBreaches side beats txn)
  attributes :
    Coherence.attributeFaults? config txn = some (Coherence.attributeFaults config txn)
  bytes : txn.bytes + txn.startOffset < Integer.bound →
    byteBreaches? txn = some (byteBreaches txn)
  -- where the sum takes more than a word, the bytes run past the end of the burst, which goes
  -- unnoticed because the sum wraps around
  overflow : Integer.bound ≤ txn.bytes + txn.startOffset →
    byteBreaches? txn = none ∧ txn.startOffset ≠ 0 ∧
      txn.burstBytes < txn.bytes + txn.startOffset ∧ byteBreaches txn = []

namespace Trace

private theorem withinWidths_of_parse {text : List Char} {trace : Trace}
    (parsed : parse text = .ok trace)
    {event : Event} (member : event ∈ trace.events) : event.record.WithinWidths := by
  obtain ⟨placed, final, -, accounts, events, -⟩ := parse_accounts parsed
  rw [← events] at member
  obtain ⟨entry, declared, same⟩ := accounts.wellFormed.known event member
  rw [← same]
  exact accounts.widths entry declared

theorem fitsWords_of_parse {text : List Char} {trace : Trace} (parsed : parse text = .ok trace)
    {event : Event} (member : event ∈ trace.events) (config : CheckerConfig) :
    event.record.FitsWords config := by
  have fits := withinWidths_of_parse parsed member
  have bytes := fits.byteBreaches?_eq
  exact
    { beats := fits.beatBreaches?_eq
      attributes := fits.attributeFaults?_eq config
      bytes := fun sum => bytes.trans (if_pos sum)
      overflow := fun sum =>
        ⟨bytes.trans (if_neg (Nat.not_lt.mpr sum)), fits.overrun_of_overflow sum⟩ }

def fullByteCount : String :=
  "@0 fw BeginRequest w cmd=write addr=1 size=1 bytes=0xffffffffffffffff\n"

private theorem exists_event_fullByteCount :
    ∃ trace event, parse fullByteCount.toList = .ok trace ∧ event ∈ trace.events ∧
      event.record.bytes + event.record.startOffset = Integer.bound := by
  have accepted : (parse fullByteCount.toList).toOption.map (fun trace =>
      trace.events.map (fun event => event.record.bytes + event.record.startOffset)) =
        some [Integer.bound] := by
    decide +kernel
  obtain ⟨trace, parsed, sums⟩ := exists_parse_of_toOption accepted
  obtain ⟨event, rest, events, sum, -⟩ := List.map_eq_cons_iff.mp sums
  exact ⟨trace, event, parsed, events ▸ List.mem_cons_self, sum⟩

theorem fitsWords_of_fullByteCount :
    ∃ trace event, parse fullByteCount.toList = .ok trace ∧ event ∈ trace.events ∧
      event.record.FitsWords {} := by
  obtain ⟨trace, event, parsed, member, -⟩ := exists_event_fullByteCount
  exact ⟨trace, event, parsed, member, fitsWords_of_parse parsed member {}⟩

theorem overflow_of_fullByteCount :
    ∃ trace event, parse fullByteCount.toList = .ok trace ∧ event ∈ trace.events ∧
      ¬ event.record.bytes + event.record.startOffset < Integer.bound ∧
        byteBreaches? event.record = none := by
  obtain ⟨trace, event, parsed, member, sum⟩ := exists_event_fullByteCount
  have exceeds : ¬ event.record.bytes + event.record.startOffset < Integer.bound :=
    Nat.not_lt.mpr (Nat.le_of_eq sum.symm)
  refine ⟨trace, event, parsed, member, exceeds, ?_⟩
  rw [(withinWidths_of_parse parsed member).byteBreaches?_eq, if_neg exceeds]

end Trace

end Handshake
