import Handshake.Proofs.Engine.Edges
import Handshake.Proofs.Engine.Splitting
set_option autoImplicit false

/-! Skipping idle cycles. `runUntil` leaves out the cycles before its target in which nothing
happens and jumps to the target instead. The plain loop runs them all, and gives the cycle queue
an edge at the end of each that it wants one on. The two are the same but for one case: entries
that leave the delay queue at the target itself may fill the cycle queue, and where `runUntil`
came there by a jump, it leaves out the edge that the plain loop then gives. -/

namespace Handshake.Dispatcher

variable {σ : Type} [Inhabited σ]

/-! ### The two loops -/

def loop (cycle : Dispatcher σ → Outcome σ (Except Stop Unit)) (target : Time) :
    Nat → Dispatcher σ → Outcome σ (Except Stop Unit)
  | 0, dispatcher => dispatcher.done
  | cycles + 1, dispatcher =>
      if dispatcher.now < target then
        (cycle dispatcher).andThen (fun _ reached => loop cycle target cycles reached)
      else dispatcher.done

def edgeIfWanted (dispatcher : Dispatcher σ) : Outcome σ (Except Stop Unit) :=
  if dispatcher.wantsClock then
    ⟨dispatcher.clockEdge.dispatcher, dispatcher.clockEdge.journal,
      match dispatcher.clockEdge.answer with
      | .error error => .error (.failed error)
      | .ok _ => .ok ()⟩
  else dispatcher.done

def stepCycle (budget : Nat) (dispatcher : Dispatcher σ) : Outcome σ (Except Stop Unit) :=
  (dispatcher.advanceTo (dispatcher.now + 1) budget).andThen (fun _ ticked => ticked.edgeIfWanted)

def stepUntil (budget : Nat) (target : Time) (dispatcher : Dispatcher σ) :
    Outcome σ (Except Stop Unit) :=
  loop (stepCycle budget) target (target - dispatcher.now) dispatcher

def isIdleUntil (target : Time) (dispatcher : Dispatcher σ) : Bool :=
  !dispatcher.wantsClock && dispatcher.nextDue?.all (target ≤ ·)

def jumps (budget : Nat) (target : Time) (dispatcher : Dispatcher σ) : Bool :=
  match (dispatcher.advanceTo (dispatcher.now + 1) budget).answer with
  | .error _ => false
  | .ok _ => (dispatcher.advanceTo (dispatcher.now + 1) budget).dispatcher.isIdleUntil target

def lastJump? (budget : Nat) (target : Time) : Nat → Dispatcher σ → Option (Dispatcher σ)
  | 0, _ => none
  | cycles + 1, dispatcher =>
      if dispatcher.now < target then
        if dispatcher.jumps budget target then
          some (dispatcher.advanceTo (dispatcher.now + 1) budget).dispatcher
        else
          match (dispatcher.runCycle budget target).answer with
          | .error _ => none
          | .ok () => lastJump? budget target cycles (dispatcher.runCycle budget target).dispatcher
      else none

/-- `runUntil` comes to its target by a jump, and leaves the cycle queue wanting an edge. -/
structure MissesEdge (budget : Nat) (target : Time) (dispatcher : Dispatcher σ) : Prop where
  jumped : (dispatcher.lastJump? budget target (target - dispatcher.now)).isSome = true
  arrived : (dispatcher.runUntil budget target).answer = .ok ()
  wanted : (dispatcher.runUntil budget target).dispatcher.wantsClock = true

variable {dispatcher : Dispatcher σ} {cycle : Dispatcher σ → Outcome σ (Except Stop Unit)}
  {target : Time} {budget cycles : Nat}

omit [Inhabited σ] in
private theorem loop_of_le (reached : target ≤ dispatcher.now) :
    dispatcher.loop cycle target cycles = dispatcher.done := by
  cases cycles with
  | zero => rfl
  | succ cycles => rw [loop, if_neg (Nat.not_lt_of_le reached)]

omit [Inhabited σ] in
private theorem loop_of_lt (ahead : dispatcher.now < target) :
    dispatcher.loop cycle target (cycles + 1) =
      (cycle dispatcher).andThen (fun _ reached => reached.loop cycle target cycles) := by
  rw [loop, if_pos ahead]

private theorem runUntil_eq_loop (budget : Nat) (target : Time) (dispatcher : Dispatcher σ) :
    dispatcher.runUntil budget target =
      dispatcher.loop (runCycle budget target) target (target - dispatcher.now) := by
  have runCycles_eq : ∀ cycles (dispatcher : Dispatcher σ),
      dispatcher.runCycles budget target cycles =
        dispatcher.loop (runCycle budget target) target cycles := by
    intro cycles
    induction cycles with
    | zero => exact fun dispatcher => rfl
    | succ cycles ih =>
        intro dispatcher
        simp only [runCycles, loop, Outcome.andThen, ih]
        split
        · split <;> rename_i answer <;> simp only [answer]
        · rfl
  exact runCycles_eq _ dispatcher

omit [Inhabited σ] in
private theorem now_loop
    (takes : ∀ dispatcher, dispatcher.now < target → (cycle dispatcher).answer = .ok () →
      dispatcher.now < (cycle dispatcher).dispatcher.now ∧
        (cycle dispatcher).dispatcher.now ≤ target)
    (enough : target ≤ dispatcher.now + cycles)
    (done : (dispatcher.loop cycle target cycles).answer = .ok ()) :
    (dispatcher.loop cycle target cycles).dispatcher.now = max dispatcher.now target := by
  induction cycles generalizing dispatcher with
  | zero => exact (Nat.max_eq_left enough).symm
  | succ cycles ih =>
      rcases Nat.lt_or_ge dispatcher.now target with ahead | past
      · rw [loop_of_lt ahead] at done ⊢
        obtain ⟨value, answer, rest⟩ := Outcome.answer_andThen_eq_ok_iff.mp done
        obtain ⟨later, notPast⟩ := takes dispatcher ahead answer
        have near : target ≤ (cycle dispatcher).dispatcher.now + cycles := by
          rw [← Nat.succ_add_eq_add_succ] at enough
          exact Nat.le_trans enough (Nat.add_le_add_right later cycles)
        rw [Outcome.andThen_of_ok answer, ih near rest, Nat.max_eq_right notPast,
          Nat.max_eq_right (Nat.le_of_lt ahead)]
      · rw [loop_of_le past]
        exact (Nat.max_eq_left past).symm

/-! ### One cycle -/

private theorem now_reactAll (entries : List Waiting) (dispatcher : Dispatcher σ) :
    (dispatcher.reactAll entries).dispatcher.now = dispatcher.now := by
  induction entries generalizing dispatcher with
  | nil => rfl
  | cons entry rest ih =>
      have still := (dispatcher.path_react entry.phase entry.txn).2
      unfold reactAll
      simp only
      split
      · exact still
      · exact (ih _).trans still

private theorem now_edgeIfWanted (dispatcher : Dispatcher σ) :
    dispatcher.edgeIfWanted.dispatcher.now = dispatcher.now := by
  unfold edgeIfWanted
  split
  · exact now_reactAll _ { dispatcher with clocked := dispatcher.clocked.tick.2 }
  · rfl

omit [Inhabited σ] in
private theorem isIdleUntil_iff :
    dispatcher.isIdleUntil target = true ↔
      dispatcher.wantsClock = false ∧ dispatcher.nextDue?.all (target ≤ ·) = true := by
  rw [isIdleUntil, Bool.and_eq_true, Bool.not_eq_true']

private theorem edgeIfWanted_of_not (unwanted : dispatcher.wantsClock = false) :
    dispatcher.edgeIfWanted = dispatcher.done := by
  rw [edgeIfWanted, unwanted, if_neg Bool.false_ne_true]

private theorem runCycle_of_not_jumps (steps : dispatcher.jumps budget target = false) :
    dispatcher.runCycle budget target = dispatcher.stepCycle budget := by
  simp only [jumps, isIdleUntil] at steps
  simp only [runCycle, stepCycle, edgeIfWanted, Outcome.andThen]
  cases answer : (dispatcher.advanceTo (dispatcher.now + 1) budget).answer with
  | error stop => rfl
  | ok reacted =>
      simp only [answer] at steps
      simp only
      cases wanted : (dispatcher.advanceTo (dispatcher.now + 1) budget).dispatcher.wantsClock with
      | true => rfl
      | false =>
          simp only [wanted, Bool.not_false, Bool.true_and] at steps
          simp [steps, done]

private theorem runCycle_of_jumps (jumps : dispatcher.jumps budget target = true) :
    (∃ reacted, (dispatcher.advanceTo (dispatcher.now + 1) budget).answer = .ok reacted) ∧
      (dispatcher.advanceTo (dispatcher.now + 1) budget).dispatcher.isIdleUntil target = true ∧
        dispatcher.runCycle budget target =
          (dispatcher.advanceTo (dispatcher.now + 1) budget).andThen (fun _ ticked =>
            (ticked.advanceTo target budget).andThen (fun _ jumped => jumped.done)) := by
  unfold Dispatcher.jumps at jumps
  cases answer : (dispatcher.advanceTo (dispatcher.now + 1) budget).answer with
  | error stop =>
      rw [answer] at jumps
      cases jumps
  | ok reacted =>
      simp only [answer] at jumps
      refine ⟨⟨reacted, rfl⟩, jumps, ?_⟩
      obtain ⟨unwanted, later⟩ := isIdleUntil_iff.mp jumps
      rw [Outcome.andThen_of_ok answer]
      simp only [runCycle, answer, unwanted, later, Bool.false_eq_true, if_false, if_true,
        Outcome.andThen]
      cases (Dispatcher.advanceTo target budget
          (dispatcher.advanceTo (dispatcher.now + 1) budget).dispatcher).answer with
      | error stop => rfl
      | ok rest => simp only [done, List.append_nil, Except.map]

private theorem ticked_of_ok {reacted : Nat}
    (done : (dispatcher.advanceTo (dispatcher.now + 1) budget).answer = .ok reacted) :
    (dispatcher.advanceTo (dispatcher.now + 1) budget).dispatcher.now = dispatcher.now + 1 ∧
      (dispatcher.advanceTo (dispatcher.now + 1) budget).dispatcher.turn? (dispatcher.now + 1) =
        none := by
  obtain ⟨popped, reached, -⟩ := advanceTo_of_ok done
  exact ⟨reached.trans (Nat.max_eq_right (Nat.le_succ _)), Option.map_eq_none_iff.mpr popped⟩

private theorem now_stepCycle (done : (dispatcher.stepCycle budget).answer = .ok ()) :
    (dispatcher.stepCycle budget).dispatcher.now = dispatcher.now + 1 := by
  obtain ⟨reacted, answer, -⟩ := Outcome.answer_andThen_eq_ok_iff.mp done
  rw [stepCycle, Outcome.andThen_of_ok answer, now_edgeIfWanted, (ticked_of_ok answer).1]

private theorem now_runCycle_of_jumps (jumps : dispatcher.jumps budget target = true)
    (ahead : dispatcher.now < target)
    (done : (dispatcher.runCycle budget target).answer = .ok ()) :
    (dispatcher.runCycle budget target).dispatcher.now = target := by
  obtain ⟨⟨reacted, answer⟩, -, jumped⟩ := runCycle_of_jumps jumps
  rw [jumped, Outcome.andThen_of_ok answer] at done ⊢
  obtain ⟨rest, last, -⟩ := Outcome.answer_andThen_eq_ok_iff.mp done
  have reached := (advanceTo_of_ok last).2.1
  rw [(ticked_of_ok answer).1, Nat.max_eq_right ahead] at reached
  rw [Outcome.andThen_of_ok last]
  exact reached

private theorem now_runCycle (ahead : dispatcher.now < target)
    (done : (dispatcher.runCycle budget target).answer = .ok ()) :
    dispatcher.now < (dispatcher.runCycle budget target).dispatcher.now ∧
      (dispatcher.runCycle budget target).dispatcher.now ≤ target := by
  cases jump : dispatcher.jumps budget target with
  | false =>
      rw [runCycle_of_not_jumps jump] at done ⊢
      rw [now_stepCycle done]
      exact ⟨Nat.lt_succ_self _, ahead⟩
  | true =>
      rw [now_runCycle_of_jumps jump ahead done]
      exact ⟨ahead, Nat.le_refl target⟩

/-! ### Idle cycles -/

omit [Inhabited σ] in
private theorem turn?_eq_none_of_lt (later : dispatcher.nextDue?.all (target ≤ ·) = true)
    {time : Time}
    (early : time < target) : dispatcher.turn? time = none := by
  refine Option.map_eq_none_iff.mpr ?_
  unfold nextDue? DelayQueue.nextDue? at later
  unfold DelayQueue.popDue?
  cases queue : dispatcher.delayed.entries with
  | nil => rfl
  | cons head tail =>
      rw [queue] at later
      have waits : target ≤ head.due := by simpa using later
      exact if_neg (Nat.not_le_of_lt (Nat.lt_of_lt_of_le early waits))

private theorem stepCycle_of_isIdleUntil (idle : dispatcher.isIdleUntil target = true)
    (between : dispatcher.now + 1 < target) :
    dispatcher.stepCycle budget =
      { dispatcher with now := max dispatcher.now (dispatcher.now + 1) }.done := by
  obtain ⟨unwanted, later⟩ := isIdleUntil_iff.mp idle
  have nothing := turn?_eq_none_of_lt later between
  rw [stepCycle, advanceTo_of_turn?_eq_none nothing, Outcome.andThen_of_ok rfl]
  exact edgeIfWanted_of_not unwanted

/-- Where nothing is due before the target, the cycles on the way there do nothing: the last of
them delivers what is due at the target and gives the edge that is wanted then. -/
theorem loop_stepCycle_of_isIdleUntil (idle : dispatcher.isIdleUntil target = true)
    (dry : dispatcher.turn? dispatcher.now = none) (ahead : dispatcher.now ≤ target) :
    dispatcher.loop (stepCycle (budget + 1)) target (target - dispatcher.now) =
      (dispatcher.advanceTo target (budget + 1)).andThen
        (fun _ reached => reached.edgeIfWanted) := by
  -- by the distance to the target: an idle cycle only moves the clock, and a call of `advanceTo`
  -- that is dry up to there does not see where the clock stands
  generalize distance : target - dispatcher.now = cycles
  induction cycles generalizing dispatcher with
  | zero =>
      have here : dispatcher.now = target :=
        Nat.le_antisymm ahead (Nat.le_of_sub_eq_zero distance)
      rw [here] at dry
      rw [advanceTo_of_turn?_eq_none dry, Outcome.andThen_of_ok rfl, ← here, Nat.max_self,
        edgeIfWanted_of_not (isIdleUntil_iff.mp idle).1]
      rfl
  | succ cycles ih =>
      have rest : target - (dispatcher.now + 1) = cycles := by
        rw [Nat.sub_add_eq, distance]
        rfl
      rw [loop_of_lt (Nat.lt_of_sub_eq_succ distance)]
      rcases Nat.lt_or_ge (dispatcher.now + 1) target with between | last
      · have nothing := turn?_eq_none_of_lt (isIdleUntil_iff.mp idle).2 between
        have atOnce := advanceTo_withNow nothing (Nat.le_of_lt between) budget
        have reached : max dispatcher.now (dispatcher.now + 1) = dispatcher.now + 1 :=
          Nat.max_eq_right (Nat.le_succ _)
        have dryThen := turn?_withNow nothing (dispatcher.now + 1)
        rw [nothing] at dryThen
        rw [stepCycle_of_isIdleUntil idle between, ← atOnce]
        rw [reached] at dryThen ⊢
        exact ih idle dryThen (Nat.le_of_lt between) rest
      · have here : dispatcher.now + 1 = target :=
          Nat.le_antisymm (Nat.lt_of_sub_eq_succ distance) last
        have none : cycles = 0 := by
          rw [← rest, here, Nat.sub_self]
        rw [none, stepCycle, here]
        exact Outcome.andThen_done _

private theorem loop_runCycle_of_jumps (jumps : dispatcher.jumps budget target = true)
    (ahead : dispatcher.now < target) :
    dispatcher.loop (runCycle budget target) target (cycles + 1) =
      dispatcher.runCycle budget target := by
  rw [loop_of_lt ahead]
  refine Eq.trans (Outcome.andThen_congr (fun _ done => ?_)) (Outcome.andThen_done _)
  exact loop_of_le (Nat.le_of_eq (now_runCycle_of_jumps jumps ahead done).symm)

private theorem loop_stepCycle_of_jumps (jumps : dispatcher.jumps (budget + 1) target = true)
    (ahead : dispatcher.now < target) :
    dispatcher.loop (stepCycle (budget + 1)) target (target - dispatcher.now) =
      (dispatcher.runCycle (budget + 1) target).andThen
        (fun _ reached => reached.edgeIfWanted) := by
  obtain ⟨⟨reacted, answer⟩, idle, jumped⟩ := runCycle_of_jumps jumps
  obtain ⟨reached, dry⟩ := ticked_of_ok answer
  have distance : target - dispatcher.now = target - (dispatcher.now + 1) + 1 := by
    rw [Nat.sub_add_eq, Nat.sub_add_cancel (Nat.sub_pos_of_lt ahead)]
  rw [distance, loop_of_lt ahead, stepCycle, jumped, Outcome.andThen_assoc,
    Outcome.andThen_assoc]
  generalize dispatcher.advanceTo (dispatcher.now + 1) (budget + 1) = ticked at reached dry idle ⊢
  refine Outcome.andThen_congr (fun _ _ => ?_)
  rw [edgeIfWanted_of_not (isIdleUntil_iff.mp idle).1, Outcome.andThen_assoc, ← reached]
  refine loop_stepCycle_of_isIdleUntil idle ?_ ?_
  · rw [reached]
    exact dry
  · rw [reached]
    exact ahead

/-! ### The two loops compared -/

/-- The plain loop is `runUntil` and, if that ended in a jump, the edge that is wanted then. -/
theorem stepUntil_eq_andThen (budget : Nat) (target : Time) (dispatcher : Dispatcher σ) :
    dispatcher.stepUntil (budget + 1) target =
      (dispatcher.runUntil (budget + 1) target).andThen (fun _ reached =>
        if (dispatcher.lastJump? (budget + 1) target (target - dispatcher.now)).isSome then
          reached.edgeIfWanted
        else reached.done) := by
  rw [stepUntil, runUntil_eq_loop]
  generalize distance : target - dispatcher.now = cycles
  induction cycles generalizing dispatcher with
  | zero => rfl
  | succ cycles ih =>
      have ahead : dispatcher.now < target := Nat.lt_of_sub_eq_succ distance
      have rest : target - (dispatcher.now + 1) = cycles := by
        rw [Nat.sub_add_eq, distance]
        rfl
      rw [lastJump?, if_pos ahead]
      -- until the jump, which is the last cycle, the cycles of both loops are the same
      cases jump : dispatcher.jumps (budget + 1) target with
      | true =>
          rw [loop_runCycle_of_jumps jump ahead, ← distance]
          exact loop_stepCycle_of_jumps jump ahead
      | false =>
          rw [loop_of_lt ahead, loop_of_lt ahead, Outcome.andThen_assoc,
            runCycle_of_not_jumps jump]
          refine Outcome.andThen_congr (fun _ answer => ?_)
          have reached := now_stepCycle answer
          simp only [answer, Bool.false_eq_true, if_false]
          exact ih (dispatcher.stepCycle (budget + 1)).dispatcher (by rw [reached, rest])

private theorem dispatcher_loop_of_lastJump? {idle : Dispatcher σ}
    (jumped : dispatcher.lastJump? budget target cycles = some idle) :
    idle.isIdleUntil target = true ∧
      (dispatcher.loop (runCycle budget target) target cycles).dispatcher =
        (idle.advanceTo target budget).dispatcher := by
  induction cycles generalizing dispatcher with
  | zero => cases jumped
  | succ cycles ih =>
      rw [lastJump?] at jumped
      split at jumped
      · rename_i ahead
        cases jump : dispatcher.jumps budget target with
        | true =>
            rw [if_pos jump, Option.some.injEq] at jumped
            subst jumped
            obtain ⟨⟨reacted, answer⟩, stands, cycle⟩ := runCycle_of_jumps jump
            refine ⟨stands, ?_⟩
            rw [loop_runCycle_of_jumps jump ahead, cycle, Outcome.andThen_of_ok answer]
            simp only [Outcome.andThen]
            split <;> rfl
        | false =>
            rw [jump, if_neg Bool.false_ne_true] at jumped
            split at jumped
            · cases jumped
            · rename_i answer
              rw [loop_of_lt ahead, Outcome.andThen_of_ok answer]
              exact ih jumped
      · cases jumped

omit [Inhabited σ] in
private theorem nextDue?_eq_of_turn? {turn : Turn σ} (due : dispatcher.turn? target = some turn)
    (later : dispatcher.nextDue?.all (target ≤ ·) = true) :
    dispatcher.nextDue? = some target := by
  obtain ⟨rest, popped, -⟩ := turn?_eq_some_iff.mp due
  obtain ⟨early, entries, -⟩ := DelayQueue.popDue?_eq_some_iff.mp popped
  have next : dispatcher.nextDue? = some turn.entry.due := by
    rw [nextDue?, DelayQueue.nextDue?, entries]
    rfl
  rw [next] at later ⊢
  have late : target ≤ turn.entry.due := by simpa using later
  rw [Nat.le_antisymm early late]

private theorem MissesEdge.nextDue? (misses : MissesEdge budget target dispatcher) :
    ∃ idle, dispatcher.lastJump? budget target (target - dispatcher.now) = some idle ∧
      idle.nextDue? = some target := by
  obtain ⟨idle, jumped⟩ := Option.isSome_iff_exists.mp misses.jumped
  obtain ⟨stands, reached⟩ := dispatcher_loop_of_lastJump? jumped
  obtain ⟨unwanted, later⟩ := isIdleUntil_iff.mp stands
  have wanted := misses.wanted
  rw [runUntil_eq_loop, reached] at wanted
  refine ⟨idle, jumped, ?_⟩
  cases due : idle.turn? target with
  | some turn => exact nextDue?_eq_of_turn? due later
  | none =>
      -- with nothing due the jump only sets the clock
      rw [advanceTo_of_turn?_eq_none due] at wanted
      have still : idle.wantsClock = true := wanted
      rw [unwanted] at still
      cases still

private theorem edges_edgeIfWanted (wanted : dispatcher.wantsClock = true) :
    dispatcher.edgeIfWanted.dispatcher.clocked.edges = dispatcher.clocked.edges + 1 := by
  have counted := dispatcher.edges_perform .clockEdge
  rw [edgesUsed, if_pos wanted] at counted
  rw [edgeIfWanted, if_pos wanted]
  exact counted

private theorem stepUntil_of_not_missesEdge (meets : ¬ MissesEdge (budget + 1) target dispatcher) :
    dispatcher.stepUntil (budget + 1) target = dispatcher.runUntil (budget + 1) target := by
  rw [stepUntil_eq_andThen]
  refine Eq.trans (Outcome.andThen_congr (fun _ arrived => ?_)) (Outcome.andThen_done _)
  split
  · rename_i jumped
    refine edgeIfWanted_of_not (Bool.eq_false_iff.mpr (fun wanted => ?_))
    exact meets ⟨jumped, arrived, wanted⟩
  · rfl

private theorem MissesEdge.stepUntil (misses : MissesEdge (budget + 1) target dispatcher) :
    dispatcher.stepUntil (budget + 1) target =
      (dispatcher.runUntil (budget + 1) target).andThen
        (fun _ reached => reached.edgeIfWanted) := by
  rw [stepUntil_eq_andThen]
  simp only [misses.jumped, if_true]

private theorem MissesEdge.edges (misses : MissesEdge (budget + 1) target dispatcher) :
    (dispatcher.stepUntil (budget + 1) target).dispatcher.clocked.edges =
      (dispatcher.runUntil (budget + 1) target).dispatcher.clocked.edges + 1 := by
  rw [misses.stepUntil, Outcome.andThen_of_ok misses.arrived]
  exact edges_edgeIfWanted misses.wanted

/-- How `runUntil`, which skips idle cycles, compares with the plain loop. -/
structure SkipsIdleCycles (budget : Nat) (target : Time) (dispatcher : Dispatcher σ) : Prop where
  same_iff : dispatcher.stepUntil budget target = dispatcher.runUntil budget target ↔
    ¬ MissesEdge budget target dispatcher
  -- the plain loop is one edge ahead where `runUntil` misses it, and something was due at the
  -- target itself
  missed : MissesEdge budget target dispatcher →
    dispatcher.stepUntil budget target =
        (dispatcher.runUntil budget target).andThen (fun _ reached => reached.edgeIfWanted) ∧
      ∃ idle, dispatcher.lastJump? budget target (target - dispatcher.now) = some idle ∧
        idle.nextDue? = some target
  -- both come to the target if nothing stops them
  reached : (dispatcher.runUntil budget target).answer = .ok () →
    (dispatcher.runUntil budget target).dispatcher.now = max dispatcher.now target
  stepped : (dispatcher.stepUntil budget target).answer = .ok () →
    (dispatcher.stepUntil budget target).dispatcher.now = max dispatcher.now target

/-- Whatever the queues hold and the callbacks schedule, and with any budget but none at all, the
plain loop and `runUntil` leave, do and answer the same exactly if the jump to the target misses
no edge. -/
theorem skipsIdleCycles (budget : Nat) (target : Time) (dispatcher : Dispatcher σ) :
    SkipsIdleCycles (budget + 1) target dispatcher where
  same_iff := by
    constructor
    · intro same misses
      have counted := misses.edges
      rw [same] at counted
      exact Nat.succ_ne_self _ counted.symm
    · exact stepUntil_of_not_missesEdge
  missed := fun misses => ⟨misses.stepUntil, misses.nextDue?⟩
  reached := by
    rw [runUntil_eq_loop]
    exact now_loop (fun _ => now_runCycle) (Nat.sub_le_iff_le_add'.mp (Nat.le_refl _))
  stepped := by
    refine now_loop (fun dispatcher ahead done => ?_) (Nat.sub_le_iff_le_add'.mp (Nat.le_refl _))
    rw [now_stepCycle done]
    exact ⟨Nat.lt_succ_self _, ahead⟩

/-- A request that waits for a clock edge from the fifth nanosecond on. -/
def requestAfterSync : Dispatcher Nat :=
  (new {} (fun _ => CallbackTable.empty)).performAll
    [.bind (some (.plain ⟨0⟩ .read)) false, .schedule ⟨.beginRequest, ⟨0⟩, .afterSync 5⟩]

theorem stepUntil_ne_runUntil_of_requestAfterSync :
    requestAfterSync.stepUntil 1 5 ≠ requestAfterSync.runUntil 1 5 ∧
      (requestAfterSync.stepUntil 1 5).answer = .ok () ∧
      (requestAfterSync.runUntil 1 5).answer = .ok () ∧
      (requestAfterSync.stepUntil 1 5).dispatcher.state? ⟨0⟩ = some .request ∧
      (requestAfterSync.runUntil 1 5).dispatcher.state? ⟨0⟩ = some .idle := by
  have stepped : (requestAfterSync.stepUntil 1 5).dispatcher.clocked.edges = 1 := rfl
  have skipped : (requestAfterSync.runUntil 1 5).dispatcher.clocked.edges = 0 := rfl
  refine ⟨fun same => ?_, rfl, rfl, rfl, rfl⟩
  rw [same, skipped] at stepped
  cases stepped

end Handshake.Dispatcher
