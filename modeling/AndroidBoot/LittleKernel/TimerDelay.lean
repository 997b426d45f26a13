/- source: bootable/lk/kernel/timer.c, include/sys/types.h
   digest: A one-shot timer waits for its delay just when the delay is at most half the range. -/

import AndroidBoot.LittleKernel.TimerQueue

set_option autoImplicit false

namespace AndroidBoot.LittleKernel.TimerDelay

open Function State TimerQueue
open Timer (timeGt timeLt insertTimerInQueue mem_insertTimerInQueue)
open Foundation.Run

section Statements

variable {T K H : Type} [DecidableEq T]

def Spares (timer : T) (_ : Machine T K H) (e : Event T K) : Prop :=
  ∀ op, e.action = .call op → op.timer ≠ timer

def Fires (build : Option (Platform H)) (timer : T) (m : Machine T K H) (tick : Tick T K H) :
    Prop :=
  ∃ m₁ e m₂ round, Reach (step build) (Spares timer) m m₁ ∧ (∀ op, e.action ≠ .call op) ∧
    step build m₁ e = some m₂ ∧ m₂.phase = .callback tick round ∧ round.timer = timer

def NeverEarly (build : Option (Platform H)) (timer : T) (m : Machine T K H) (deadline : Nat) :
    Prop :=
  ∀ tick, Fires build timer m tick → deadline ≤ tick.now

/-- A clock that is `n` ms further on is seen to be in the future. -/
def Ahead (n : Nat) : Prop := 0 < n % 2 ^ 32 ∧ n % 2 ^ 32 ≤ 2 ^ 31

def Near (phase : Phase T K H) (time : Nat) (delay : Time) : Prop :=
  delay.toNat ≤ 2 ^ 31 ∧ During (fun tick _ => Ahead (time - tick.now + max 1 delay.toNat)) phase

end Statements

section Clock

variable {t n : Nat}

theorem toInt_clock_sub (a b : Nat) :
    (clock a - clock b).toInt = ((a : Int) - b).bmod (2 ^ 32) := by
  unfold clock
  rw [BitVec.toInt_sub, BitVec.toInt_ofNat', BitVec.toInt_ofNat', Int.sub_bmod_bmod,
    Int.bmod_sub_bmod]

theorem timeLt_clock_iff : timeLt (clock t) (clock (t + n)) = true ↔ Ahead n := by
  have difference : (t : Int) - (t + n : Nat) = -(n : Int) := by omega
  rw [timeLt, decide_eq_true_iff, toInt_clock_sub, difference, Int.bmod_def, Ahead]
  omega

theorem timeGt_clock_iff :
    timeGt (clock (t + n)) (clock t) = true ↔ 0 < n % 2 ^ 32 ∧ n % 2 ^ 32 < 2 ^ 31 := by
  have difference : ((t + n : Nat) : Int) - t = n := by omega
  rw [timeGt, decide_eq_true_iff, toInt_clock_sub, difference, Int.bmod_def]
  omega

theorem clock_add (delay : Time) : clock t + delay = clock (t + delay.toNat) := by
  unfold clock
  rw [BitVec.ofNat_add, BitVec.ofNat_toNat, BitVec.setWidth_eq]

theorem toNat_atLeastOne (delay : Time) : (atLeastOne delay).toNat = max 1 delay.toNat := by
  unfold atLeastOne
  split
  case isTrue zero =>
    rw [zero]
    rfl
  case isFalse some =>
    have positive : delay.toNat ≠ 0 := fun zero => some (BitVec.eq_of_toNat_eq zero)
    omega

end Clock

section Waiting

variable {T K H : Type}

/-- The timer as the call at the time `began` left it; a tick that began before the call does not
find it due. -/
structure Waiting (timer : T) (began delay : Nat) (m : Machine T K H) : Prop where
  oneshot : m.timers.periodicTime timer = 0
  scheduled : m.timers.scheduledTime timer = clock (began + delay)
  began_le : began ≤ m.time
  tick : During (fun tick _ => began ≤ tick.now ∨
    timeLt (clock tick.now) (clock (began + delay)) = true) m.phase

def OnTime (timer : T) (deadline : Nat) (m : Machine T K H) : Prop :=
  During (fun tick round => round.timer = timer → deadline ≤ tick.now) m.phase

variable {build : Option (Platform H)} {m m' : Machine T K H} {tick : Tick T K H}
variable {timer : T} {began delay : Nat}

theorem Waiting.timerTick (short : delay ≤ 2 ^ 31) (oneshot : m.timers.periodicTime timer = 0)
    (scheduled : m.timers.scheduledTime timer = clock (began + delay)) (began_le : began ≤ m.time)
    (notDue : began ≤ tick.now ∨ timeLt (clock tick.now) (clock (began + delay)) = true) :
    Waiting timer began delay (timerTick build m tick) ∧
      OnTime timer (began + delay) (timerTick build m tick) := by
  rcases timerTick_cases build m tick with
    ⟨-, ended⟩ | ⟨-, -, -, -, stopped⟩ | ⟨taken, rest, callback, -, late, -, starts⟩
  · rw [ended]
    rcases timerTickEnd_cases build m tick with
      ⟨timers, ⟨hardware, rfl⟩, left⟩ | ⟨-, -, -, -, left⟩
    · rw [left]
      exact ⟨⟨oneshot, scheduled, began_le, trivial⟩, trivial⟩
    · rw [left]
      exact ⟨⟨oneshot, scheduled, began_le, trivial⟩, trivial⟩
  · rw [stopped]
    exact ⟨⟨oneshot, scheduled, began_le, trivial⟩, trivial⟩
  · rw [starts]
    refine ⟨⟨oneshot, scheduled, began_le, notDue⟩, fun own => ?_⟩
    have same : taken = timer := own
    rw [same, scheduled] at late
    rw [late] at notDue
    have after := notDue.resolve_right Bool.false_ne_true
    by_contra early
    obtain ⟨n, sum⟩ : ∃ n, began + delay = tick.now + n := ⟨began + delay - tick.now, by omega⟩
    have future : Ahead n := by
      unfold Ahead
      omega
    rw [sum, timeLt_clock_iff.mpr future] at late
    cases late

variable [DecidableEq T]

theorem Waiting.call {op : Op T K} (waiting : Waiting timer began delay m)
    (spared : op.timer ≠ timer) : Waiting timer began delay (m.call build op) := by
  obtain ⟨oneshot, scheduled, began_le, tick⟩ := waiting
  rcases call_cases build m op with halted | ⟨timers, performed, called⟩
  · rw [halted]
    exact ⟨oneshot, scheduled, began_le, trivial⟩
  · rw [called]
    rcases perform_cases performed with
      ⟨other, hardware, rfl, rfl⟩ | ⟨other, period, callback, hardware, -, rfl, -, -, -, rfl⟩
    · exact ⟨(update_of_ne spared.symm ..).trans oneshot, scheduled, began_le, .of_note tick⟩
    · exact ⟨(update_of_ne spared.symm ..).trans oneshot,
        (update_of_ne spared.symm ..).trans scheduled, began_le, .of_note tick⟩

theorem afterCallback_oneshot {s : Timers T K H} {u : T} {periodic : Bool} {now : Time}
    (oneshot : s.periodicTime timer = 0) :
    (afterCallback s u periodic now).periodicTime timer = 0 ∧
      (afterCallback s u periodic now).scheduledTime timer = s.scheduledTime timer := by
  unfold afterCallback
  split
  case isTrue again =>
    have lasting := (requeues_iff.mp again).2.2
    refine ⟨oneshot, update_of_ne (fun same => ?_) ..⟩
    exact lasting (same ▸ oneshot)
  case isFalse => exact ⟨oneshot, rfl⟩

theorem Waiting.step {e : Event T K} (waiting : Waiting timer began delay m)
    (short : delay ≤ 2 ^ 31) (spares : Spares timer m e) (taken : step build m e = some m') :
    Waiting timer began delay m' ∧
      ((∀ op, e.action ≠ .call op) → OnTime timer (began + delay) m') := by
  have later : began ≤ m.time + e.elapsed := Nat.le_add_right_of_le waiting.began_le
  rcases step_cases taken with
    ⟨op, action, -, rfl⟩ | ⟨action, -, rfl⟩ | ⟨tick, round, action, running, rfl⟩
  · have elapsed : Waiting timer began delay (m.elapse build e.elapsed) :=
      ⟨waiting.oneshot, waiting.scheduled, later, waiting.tick⟩
    exact ⟨elapsed.call (spares op action), fun other => absurd action (other op)⟩
  · have ran : Waiting timer began delay ((m.elapse build e.elapsed).tick build) ∧
        OnTime timer (began + delay) ((m.elapse build e.elapsed).tick build) := by
      exact Waiting.timerTick short waiting.oneshot waiting.scheduled later (Or.inl later)
    exact ⟨ran.1, fun _ => ran.2⟩
  · have notDue := waiting.tick
    rw [running] at notDue
    obtain ⟨oneshot, scheduled⟩ := @afterCallback_oneshot T K H timer _
      (m.elapse build e.elapsed).timers round.timer round.periodic (clock tick.now) waiting.oneshot
    have ran : Waiting timer began delay ((m.elapse build e.elapsed).ret build tick round) ∧
        OnTime timer (began + delay) ((m.elapse build e.elapsed).ret build tick round) := by
      exact Waiting.timerTick short oneshot (scheduled.trans waiting.scheduled) later notDue
    exact ⟨ran.1, fun _ => ran.2⟩

theorem Waiting.neverEarly (waiting : Waiting timer began delay m) (short : delay ≤ 2 ^ 31) :
    NeverEarly build timer m (began + delay) := by
  rintro tick ⟨m₁, e, m₂, round, reach, noCall, taken, running, own⟩
  have still : Waiting timer began delay m₁ :=
    reach.invariant (Waiting timer began delay) waiting fun _ _ _ kept spares taken =>
      (kept.step short spares taken).1
  have onTime := (still.step short (fun op call => absurd call (noCall op)) taken).2 noCall
  unfold OnTime at onTime
  rw [running] at onTime
  exact onTime own

end Waiting

section Hurrying

variable {T K H : Type}

/-- Where the processor is, as far as calls in a callback leave it; `none` once it is halted. -/
def spot : Phase T K H → Option (Option (Tick T K H × T))
  | .idle => some none
  | .callback tick round => some (some (tick, round.timer))
  | .halted _ => none

theorem spot_note (op : Op T K) (phase : Phase T K H) : spot (phase.note op) = spot phase := by
  cases phase with
  | idle | callback | halted => rfl

theorem eq_idle_of_spot {phase : Phase T K H} (here : spot phase = some none) : phase = .idle := by
  cases phase with
  | idle => rfl
  | callback | halted => cases here

theorem eq_callback_of_spot {phase : Phase T K H} {tick : Tick T K H} {timer : T}
    (here : spot phase = some (some (tick, timer))) :
    ∃ round, phase = .callback tick round ∧ round.timer = timer := by
  cases phase with
  | idle | halted => cases here
  | callback other round =>
    cases here
    exact ⟨round, rfl, rfl⟩

variable {build : Option (Platform H)} {m m₁ m₂ : Machine T K H} {timer : T} {tick : Tick T K H}

theorem timerTick_fires {rest : List T} (queue : m.timers.queue = timer :: rest)
    (late : timeLt (clock tick.now) (m.timers.scheduledTime timer) = false)
    (called : m.timers.callback timer ≠ none) :
    ∃ round, (timerTick build m tick).phase = .callback tick round ∧ round.timer = timer := by
  rcases timerTick_cases build m tick with
    ⟨future, -⟩ | ⟨other, more, same, missing, -⟩ | ⟨other, more, callback, same, -, -, starts⟩
  · rw [future timer rest queue] at late
    cases late
  · obtain ⟨rfl, -⟩ := List.cons.inj (queue.symm.trans same)
    exact absurd missing called
  · obtain ⟨rfl, -⟩ := List.cons.inj (queue.symm.trans same)
    rw [starts]
    exact ⟨_, rfl, rfl⟩

theorem timerTick_ends {rest : List T} (queue : m.timers.queue = timer :: rest)
    (future : timeLt (clock tick.now) (m.timers.scheduledTime timer) = true)
    (asserted : timeGt (m.timers.scheduledTime timer) (clock tick.now) = true) :
    ∃ timers ticks, SameTimers m.timers timers ∧
      timerTick build m tick = { m with timers := timers, phase := .idle, ticks := ticks } := by
  unfold timerTick
  rw [queue]
  dsimp only
  rw [if_pos future]
  rcases timerTickEnd_cases build m tick with ⟨timers, same, left⟩ | ⟨other, more, queue', past, -⟩
  · exact ⟨timers, _, same, left⟩
  · obtain ⟨rfl, -⟩ := List.cons.inj (queue.symm.trans queue')
    rw [asserted] at past
    cases past

theorem future_head {scheduled : T → Time} {other : T} {rest : List T} {t n : Nat}
    (first : scheduled timer = clock (t + n)) (second : scheduled other = clock (t + 1))
    (future : Ahead n) :
    ∃ front more, insertTimerInQueue scheduled other (timer :: rest) = front :: more ∧
      timeLt (clock t) (scheduled front) = true ∧ timeGt (scheduled front) (clock t) = true := by
  rw [insertTimerInQueue]
  split
  case isTrue =>
    refine ⟨other, _, rfl, ?_⟩
    rw [second, timeLt_clock_iff, timeGt_clock_iff, Ahead]
    decide
  case isFalse behind =>
    refine ⟨timer, _, rfl, ?_⟩
    have present := future.1
    obtain ⟨k, rfl⟩ : ∃ k, n = 1 + k := ⟨n - 1, by omega⟩
    rw [first, second, ← Nat.add_assoc, timeGt_clock_iff] at behind
    rw [first, timeLt_clock_iff, timeGt_clock_iff]
    refine ⟨future, ?_⟩
    unfold Ahead at future
    omega

variable [DecidableEq T]

structure Kept (build : Option (Platform H)) (timer : T) (m m' : Machine T K H) : Prop where
  reach : Reach (step build) (Spares timer) m m'
  time : m'.time = m.time
  scheduled : m'.timers.scheduledTime timer = m.timers.scheduledTime timer
  queued : timer ∈ m'.timers.queue
  same_spot : spot m'.phase = spot m.phase
  fewer : m'.timers.queue ⊆ m.timers.queue
  gone : ∀ u, m.timers.periodicTime u = 0 → m'.timers.periodicTime u = 0

theorem Kept.refl (queued : timer ∈ m.timers.queue) : Kept build timer m m :=
  ⟨.start, rfl, rfl, queued, rfl, List.Subset.refl _, fun _ none => none⟩

theorem Kept.trans (first : Kept build timer m m₁) (second : Kept build timer m₁ m₂) :
    Kept build timer m m₂ :=
  ⟨first.reach.trans second.reach, second.time.trans first.time,
    second.scheduled.trans first.scheduled, second.queued, second.same_spot.trans first.same_spot,
    List.Subset.trans second.fewer first.fewer, fun u none => second.gone u (first.gone u none)⟩

theorem step_call (op : Op T K) (running : spot m.phase ≠ none) :
    step build m ⟨0, .call op⟩ = some ((m.elapse build 0).call build op) := by
  unfold step
  cases phase : m.phase with
  | idle | callback => rfl
  | halted why =>
    rw [phase] at running
    exact absurd rfl running

theorem exists_cancelled {other : T} (running : spot m.phase ≠ none)
    (queued : timer ∈ m.timers.queue) (differs : other ≠ timer) :
    ∃ m', Kept build timer m m' ∧ m'.timers.queue = m.timers.queue.erase other ∧
      m'.timers.periodicTime other = 0 := by
  obtain ⟨hardware, cancelled⟩ :=
    timerCancel_eq build (m.elapse build 0).timers other (clock (m.time + 0))
  have timers : ((m.elapse build 0).call build (.cancel other)).timers =
      { remove m.timers other with hardware := hardware } := cancelled
  refine ⟨_, ⟨.next .start (fun op call => ?_) (step_call (.cancel other) running), rfl, ?_, ?_,
    spot_note (.cancel other) m.phase, ?_, fun u none => ?_⟩, ?_, ?_⟩
  · obtain rfl := Action.call.inj call
    exact differs
  · rw [timers]
    rfl
  · rw [timers]
    exact (List.mem_erase_of_ne differs.symm).mpr queued
  · rw [timers]
    exact List.erase_subset
  · rw [timers]
    show update m.timers.periodicTime other 0 u = 0
    by_cases same : u = other
    · rw [same, update_self]
    · rw [update_of_ne same, none]
  · rw [timers]
    rfl
  · rw [timers]
    exact update_self ..

theorem exists_first {queue : List T} (running : spot m.phase ≠ none)
    (queued : timer ∈ m.timers.queue) (waiting : m.timers.queue = queue) :
    ∃ m' rest, Kept build timer m m' ∧ m'.timers.queue = timer :: rest := by
  induction queue generalizing m with
  | nil =>
    rw [waiting] at queued
    cases queued
  | cons head rest ih =>
    by_cases same : head = timer
    · exact ⟨m, rest, .refl queued, same ▸ waiting⟩
    · obtain ⟨m₁, kept, erased, -⟩ :=
        @exists_cancelled T K H build m timer _ head running queued same
      rw [waiting, List.erase_cons_head] at erased
      obtain ⟨m', more, later, front⟩ := ih (kept.same_spot ▸ running) kept.queued erased
      exact ⟨m', more, kept.trans later, front⟩

theorem fires_of_idle (sound : Sound m) (idle : m.phase = .idle) (queued : timer ∈ m.timers.queue)
    (late : timeLt (clock m.time) (m.timers.scheduledTime timer) = false) :
    ∃ tick, Fires build timer m tick ∧ tick.now = m.time := by
  obtain ⟨m', rest, kept, queue⟩ := @exists_first T K H build m timer _ _
    (by rw [idle]; exact Option.some_ne_none _) queued rfl
  have taken : step build m' ⟨0, .tick⟩ = some ((m'.elapse build 0).tick build) := by
    unfold step
    rw [eq_idle_of_spot (kept.same_spot.trans (congrArg spot idle))]
  rw [← kept.time, ← kept.scheduled] at late
  have listed := (sound.of_reach kept.reach).listed
  obtain ⟨round, starts, own⟩ : ∃ round, ((m'.elapse build 0).tick build).phase =
      .callback ⟨m'.time, (m'.elapse build 0).timers, []⟩ round ∧ round.timer = timer :=
    timerTick_fires queue late (listed.called timer kept.queued)
  refine ⟨_, ⟨m', ⟨0, .tick⟩, _, round, kept.reach, fun op same => ?_, taken, starts, own⟩,
    kept.time⟩
  cases same

variable {round : Round T K}

theorem exists_settled (phase : m.phase = .callback tick round) (queued : timer ∈ m.timers.queue) :
    ∃ m' round' rest, Kept build timer m m' ∧ m'.phase = .callback tick round' ∧
      m'.timers.queue = timer :: rest ∧
      (round'.timer = timer ∨ m'.timers.periodicTime round'.timer = 0) := by
  have running : spot m.phase ≠ none := by
    rw [phase]
    exact Option.some_ne_none _
  obtain ⟨m₁, kept, settled⟩ : ∃ m₁, Kept build timer m m₁ ∧
      (round.timer = timer ∨ m₁.timers.periodicTime round.timer = 0) := by
    by_cases own : round.timer = timer
    · exact ⟨m, .refl queued, Or.inl own⟩
    · obtain ⟨m₁, kept, -, none⟩ := exists_cancelled running queued own
      exact ⟨m₁, kept, Or.inr none⟩
  obtain ⟨m', rest, later, queue⟩ := exists_first (kept.same_spot ▸ running) kept.queued rfl
  have both := kept.trans later
  obtain ⟨round', phase', same⟩ := eq_callback_of_spot (both.same_spot.trans (congrArg spot phase))
  refine ⟨m', round', rest, both, phase', queue, ?_⟩
  rw [same]
  exact settled.imp_right (later.gone round.timer)

theorem step_ret (phase : m.phase = .callback tick round)
    (settled : round.timer ∈ m.timers.queue ∨ m.timers.periodicTime round.timer = 0) :
    ∃ rounds, step build m ⟨0, .ret⟩ =
      some (timerTick build (m.elapse build 0) { tick with rounds := rounds }) := by
  have same : afterCallback (m.elapse build 0).timers round.timer round.periodic (clock tick.now) =
      (m.elapse build 0).timers := by
    unfold afterCallback
    rw [if_neg]
    intro again
    obtain ⟨-, absent, lasting⟩ := requeues_iff.mp again
    exact settled.elim absent lasting
  unfold step
  rw [phase]
  dsimp only
  unfold Machine.ret
  rw [same]
  exact ⟨_, rfl⟩

theorem fires_in_tick (sound : Sound m) (phase : m.phase = .callback tick round)
    (queued : timer ∈ m.timers.queue)
    (late : timeLt (clock tick.now) (m.timers.scheduledTime timer) = false) :
    ∃ later, Fires build timer m later ∧ later.now = tick.now := by
  obtain ⟨m', round', rest, kept, phase', queue, settled⟩ :=
    @exists_settled T K H build m timer tick _ round phase queued
  have back : round'.timer ∈ m'.timers.queue ∨ m'.timers.periodicTime round'.timer = 0 := by
    refine settled.imp_left fun own => ?_
    rw [own]
    exact kept.queued
  obtain ⟨rounds, taken⟩ := @step_ret T K H build m' tick _ round' phase' back
  rw [← kept.scheduled] at late
  have listed := (sound.of_reach kept.reach).listed
  obtain ⟨next, starts, own⟩ := @timerTick_fires T K H build (m'.elapse build 0) timer
    { tick with rounds := rounds } rest queue late (listed.called timer kept.queued)
  refine ⟨_, ⟨m', ⟨0, .ret⟩, _, next, kept.reach, fun op same => ?_, taken, starts, own⟩, rfl⟩
  cases same

theorem exists_set {other : T} (delay : Time) (callback : K) (fresh : other ∉ m.timers.queue)
    (running : spot m.phase ≠ none) :
    ∃ m' hardware, step build m ⟨0, .call (.setOneshot other delay callback)⟩ = some m' ∧
      m'.time = m.time ∧ m'.phase = m.phase.note (.setOneshot other delay callback) ∧
      m'.timers = { place m.timers other (clock m.time + atLeastOne delay) 0 (some callback) with
        hardware := hardware } := by
  obtain ⟨hardware, set⟩ := @timerSet_eq T K H other _ build (m.elapse build 0).timers
    (clock m.time) (atLeastOne delay) 0 callback fresh
  have performed : perform build (m.elapse build 0).timers (clock (m.elapse build 0).time)
      (.setOneshot other delay callback) = _ := set
  have taken := @step_call T K H build m _ (.setOneshot other delay callback) running
  unfold Machine.call at taken
  rw [performed] at taken
  exact ⟨_, hardware, taken, rfl, rfl, rfl⟩

/-- In a callback, a timer that the tick does not see to be due can be left for the next tick. A
second timer is put in front of it, or it may fail the assertion at the end of the tick. -/
theorem outlasts_tick [Nontrivial T] {n : Nat} (callback : K) (sound : Sound m)
    (phase : m.phase = .callback tick round) (queued : timer ∈ m.timers.queue)
    (scheduled : m.timers.scheduledTime timer = clock (tick.now + n)) (future : Ahead n)
    (apart : clock (tick.now + 1) ≠ clock m.time) :
    ∃ m', Reach (step build) (Spares timer) m m' ∧ m'.phase = .idle ∧ m'.time = m.time ∧
      m'.timers.scheduledTime timer = m.timers.scheduledTime timer ∧ timer ∈ m'.timers.queue := by
  obtain ⟨other, differs⟩ := exists_ne timer
  obtain ⟨m₁, first, erased, -⟩ := @exists_cancelled T K H build m timer _ other
    (by rw [phase]; exact Option.some_ne_none _) queued differs
  obtain ⟨round₁, phase₁, -⟩ := eq_callback_of_spot (first.same_spot.trans (congrArg spot phase))
  obtain ⟨m₂, round₂, rest, second, phase₂, queue, settled⟩ :=
    @exists_settled T K H build m₁ timer tick _ round₁ phase₁ first.queued
  have kept := first.trans second
  have fresh : other ∉ m₂.timers.queue := fun member =>
    sound.listed.nodup.not_mem_erase (erased ▸ second.fewer member)
  have deadline : clock m₂.time + atLeastOne (clock (tick.now + 1) - clock m.time) =
      clock (tick.now + 1) := by
    rw [atLeastOne, if_neg fun zero => apart (by grind), kept.time]
    grind
  obtain ⟨m₃, hardware, set, time, noted, timers⟩ := @exists_set T K H build m₂ _ other
    (clock (tick.now + 1) - clock m.time) callback fresh
    (by rw [phase₂]; exact Option.some_ne_none _)
  rw [deadline] at timers
  rw [phase₂] at noted
  have own : m₃.timers.scheduledTime timer = m.timers.scheduledTime timer := by
    rw [timers]
    exact (update_of_ne differs.symm ..).trans kept.scheduled
  have inserted : m₃.timers.queue =
      insertTimerInQueue m₃.timers.scheduledTime other m₂.timers.queue := by
    rw [timers]
    rfl
  have back : round₂.timer ∈ m₃.timers.queue ∨ m₃.timers.periodicTime round₂.timer = 0 := by
    rw [inserted, mem_insertTimerInQueue, or_assoc, or_iff_not_imp_left]
    intro another
    refine settled.imp (fun same => ?_) fun none => ?_
    · rw [same]
      exact kept.queued
    · rw [timers]
      exact (update_of_ne another ..).trans none
  obtain ⟨front, more, order, below, above⟩ := @future_head T timer m₃.timers.scheduledTime other
    rest tick.now n (own.trans scheduled) (by rw [timers]; exact update_self ..) future
  rw [← queue, ← inserted] at order
  obtain ⟨rounds, returned⟩ := @step_ret T K H build m₃ tick _ _ noted back
  obtain ⟨s, ticks, ⟨left, rfl⟩, ended⟩ := @timerTick_ends T K H build (m₃.elapse build 0) front
    { tick with rounds := rounds } more order below above
  rw [ended] at returned
  refine ⟨_, (kept.reach.next (fun op call => ?_) set).next (fun op call => ?_) returned, rfl,
    time.trans kept.time, own, ?_⟩
  · obtain rfl := Action.call.inj call
    exact differs
  · cases call
  · show timer ∈ m₃.timers.queue
    rw [inserted]
    exact mem_insertTimerInQueue.mpr (Or.inr kept.queued)

end Hurrying

section Main

variable {T K H : Type} [DecidableEq T] {build : Option (Platform H)} {m₀ m : Machine T K H}
variable {timer : T} {delay : Time} {callback : K} {elapsed : Nat}

theorem called_spec
    (called : step build m₀ ⟨elapsed, .call (.setOneshot timer delay callback)⟩ = some m)
    (accepted : ∀ why, m.phase ≠ .halted why) :
    m.time = m₀.time + elapsed ∧ m.phase = m₀.phase.note (.setOneshot timer delay callback) ∧
      timer ∈ m.timers.queue ∧ m.timers.periodicTime timer = 0 ∧
      m.timers.scheduledTime timer = clock (m.time + max 1 delay.toNat) := by
  rcases step_cases called with ⟨op, action, -, rfl⟩ | ⟨action, -⟩ | ⟨-, -, action, -⟩
  · obtain rfl := Action.call.inj action
    rcases call_cases build (m₀.elapse build elapsed) (.setOneshot timer delay callback) with
      halted | ⟨timers, performed, left⟩
    · rw [halted] at accepted
      exact absurd rfl (accepted .alreadyInList)
    · rw [left]
      rcases perform_cases performed with
        ⟨other, hardware, same, -⟩ | ⟨other, period, more, hardware, -, rfl, none, -, -, rfl⟩
      · cases same
      · obtain rfl := none timer delay callback rfl
        refine ⟨rfl, rfl, mem_insertTimerInQueue.mpr (Or.inl rfl), update_self .., ?_⟩
        rw [← toNat_atLeastOne, ← clock_add]
        exact update_self ..
  · cases action
  · cases action

/-- An accepted one-shot timer never fires early just when its delay is at most half the range, and
in a callback the start of the tick is seen to be before the deadline. -/
theorem never_early_iff [Nontrivial T] {start : Machine T K H} (initial : Initial start)
    (reach : Reach (step build) (fun _ _ => True) start m₀)
    (called : step build m₀ ⟨elapsed, .call (.setOneshot timer delay callback)⟩ = some m)
    (accepted : ∀ why, m.phase ≠ .halted why) :
    NeverEarly build timer m (m.time + delay.toNat) ↔ Near m₀.phase (m₀.time + elapsed) delay := by
  have sound : Sound m := initial.sound.of_reach (.next reach trivial called)
  obtain ⟨time, phase, queued, oneshot, scheduled⟩ := called_spec called accepted
  have began := sound.now_le
  rw [← time]
  constructor
  · intro never
    have atOnce {rested : Machine T K H} (run : Reach (step build) (Spares timer) m rested)
        (idle : rested.phase = .idle) (same : rested.time = m.time)
        (kept : rested.timers.scheduledTime timer = m.timers.scheduledTime timer)
        (still : timer ∈ rested.timers.queue) : delay.toNat ≤ 2 ^ 31 := by
      by_contra long
      have late : timeLt (clock rested.time) (rested.timers.scheduledTime timer) = false := by
        rw [kept, scheduled, same, ← Bool.not_eq_true, timeLt_clock_iff, Ahead]
        omega
      obtain ⟨tick, ⟨m₁, e, m₂, round, more, fires⟩, now⟩ :=
        @fires_of_idle T K H build rested timer _ (sound.of_reach run) idle still late
      have early := never tick ⟨m₁, e, m₂, round, run.trans more, fires⟩
      omega
    cases before : m₀.phase with
    | idle =>
      rw [before] at phase
      exact ⟨atOnce .start phase rfl rfl queued, trivial⟩
    | callback tick round =>
      rw [before] at phase
      have start_le : tick.now ≤ m.time := by
        rw [phase] at began
        exact began
      have sum : m.time + max 1 delay.toNat =
          tick.now + (m.time - tick.now + max 1 delay.toNat) := by omega
      have ahead : Ahead (m.time - tick.now + max 1 delay.toNat) := by
        by_contra due
        have late : timeLt (clock tick.now) (m.timers.scheduledTime timer) = false := by
          rw [scheduled, sum, ← Bool.not_eq_true, timeLt_clock_iff]
          exact due
        obtain ⟨later, fires, now⟩ :=
          @fires_in_tick T K H build m timer tick _ _ sound phase queued late
        have early := never later fires
        unfold Ahead at due
        omega
      refine ⟨?_, ahead⟩
      by_contra long
      have apart : clock (tick.now + 1) ≠ clock m.time := by
        intro same
        have wrapped := congrArg BitVec.toNat same
        unfold clock at wrapped
        rw [BitVec.toNat_ofNat, BitVec.toNat_ofNat] at wrapped
        unfold Ahead at ahead
        omega
      obtain ⟨rested, run, idle, same, kept, still⟩ := @outlasts_tick T K H build m timer tick _ _
        _ _ callback sound phase queued (scheduled.trans (congrArg clock sum)) ahead apart
      exact long (atOnce run idle same kept still)
    | halted why =>
      rw [before] at phase
      exact absurd phase (accepted why)
  · rintro ⟨short, near⟩ tick fires
    have waiting : Waiting timer m.time (max 1 delay.toNat) m := by
      refine ⟨oneshot, scheduled, le_rfl, ?_⟩
      rw [phase] at began ⊢
      cases before : m₀.phase with
      | idle | halted => trivial
      | callback tick round =>
        rw [before] at near began
        have start_le : tick.now ≤ m.time := began
        have sum : m.time + max 1 delay.toNat =
            tick.now + (m.time - tick.now + max 1 delay.toNat) := by omega
        refine Or.inr ?_
        rw [sum]
        exact timeLt_clock_iff.mpr near
    have onTime := waiting.neverEarly (by omega) tick fires
    omega

end Main

section Examples

def resting : Machine Bool Unit Unit :=
  ⟨0, ⟨[], fun _ => 0, fun _ => 0, fun _ => none, ()⟩, .idle, []⟩

theorem never_early_iff_seven :
    ∃ m, step none resting ⟨0, .call (.setOneshot true 7 ())⟩ = some m ∧
      NeverEarly none true m (m.time + 7) := by
  refine ⟨_, rfl, (@never_early_iff Bool Unit Unit _ none resting _ true 7 () 0 _ resting
    ⟨rfl, rfl, rfl⟩ .start rfl ?_).mpr ?_⟩
  · intro why same
    cases same
  · exact ⟨by decide, trivial⟩

/-- A delay of `2 ^ 31 + 1` ms ends at once. -/
theorem not_neverEarly_long :
    ∃ m, step none resting ⟨0, .call (.setOneshot true 0x80000001 ())⟩ = some m ∧
      ¬ NeverEarly none true m (m.time + 0x80000001) := by
  refine ⟨_, rfl, fun never => ?_⟩
  have early := never ⟨0, _, []⟩
    ⟨_, ⟨0, .tick⟩, _, _, .start, fun op same => (by cases same), rfl, rfl, rfl⟩
  exact absurd early (by decide)

end Examples

end AndroidBoot.LittleKernel.TimerDelay
