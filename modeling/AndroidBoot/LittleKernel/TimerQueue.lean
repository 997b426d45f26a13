/- source: bootable/lk/kernel/timer.c, include/kernel/timer.h, include/platform/timer.h
   digest: Timers whose callbacks call back into the timer functions, in both builds. -/

import AndroidBoot.LittleKernel.Machine
import Mathlib.Data.List.Nodup

/-!
The timer functions by themselves. A callback is arbitrary code, so it is not run:
between its start and its end the machine takes any calls. Time is counted in ms
without bound, of which the code sees 32 bits. Each call runs without interruption.
-/

set_option autoImplicit false

namespace AndroidBoot.LittleKernel.TimerQueue

open Function State
open Timer (timeGt timeLt insertTimerInQueue insertTimerInQueue_perm mem_insertTimerInQueue)
open Foundation.Run

def clock (time : Nat) : Time := BitVec.ofNat 32 time

/-- The functions of a platform with `PLATFORM_HAS_DYNAMIC_TIMER`, on the state `H` of its
hardware, which goes on while time passes and interrupts the processor. -/
structure Platform (H : Type) where
  setOneshotTimer : H → Time → H
  stopTimer : H → H
  elapse : H → Nat → H
  interrupt : H → H

/-- The queue and the fields of every `timer_t`. A callback stands for the function and its
argument, which are always assigned together; `none` is `NULL`. -/
structure Timers (T K H : Type) where
  queue : List T
  scheduledTime : T → Time
  periodicTime : T → Time
  callback : T → Option K
  hardware : H

inductive Op (T K : Type) where
  | setOneshot (timer : T) (delay : Time) (callback : K)
  | setPeriodic (timer : T) (period : Time) (callback : K)
  | cancel (timer : T)
  deriving DecidableEq

section Functions

variable {T K H : Type} [DecidableEq T]

variable (build : Option (Platform H))

def program (s : Timers T K H) (delay : Time) : Timers T K H :=
  { s with hardware := build.elim s.hardware fun p => p.setOneshotTimer s.hardware delay }

def unprogram (s : Timers T K H) : Timers T K H :=
  { s with hardware := build.elim s.hardware fun p => p.stopTimer s.hardware }

def place (s : Timers T K H) (timer : T) (deadline period : Time) (callback : Option K) :
    Timers T K H :=
  let scheduled := update s.scheduledTime timer deadline
  { s with
    queue := insertTimerInQueue scheduled timer s.queue
    scheduledTime := scheduled
    periodicTime := update s.periodicTime timer period
    callback := update s.callback timer callback }

/-- `timer_set`, with `now` the value of `current_time()`. A timer that is in the list is a
panic. -/
def timerSet (s : Timers T K H) (timer : T) (delay period : Time) (callback : K) (now : Time) :
    Option (Timers T K H) :=
  if timer ∈ s.queue then none
  else
    let s := place s timer (now + delay) period (some callback)
    some (if s.queue.head? = some timer then program build s delay else s)

def atLeastOne (delay : Time) : Time := if delay = 0 then 1 else delay

def timerSetOneshot (s : Timers T K H) (timer : T) (delay : Time) (callback : K) (now : Time) :
    Option (Timers T K H) :=
  timerSet build s timer (atLeastOne delay) 0 callback now

def timerSetPeriodic (s : Timers T K H) (timer : T) (period : Time) (callback : K) (now : Time) :
    Option (Timers T K H) :=
  timerSet build s timer (atLeastOne period) (atLeastOne period) callback now

def remove (s : Timers T K H) (timer : T) : Timers T K H :=
  { s with
    queue := s.queue.erase timer
    periodicTime := update s.periodicTime timer 0
    callback := update s.callback timer none }

def timerCancel (s : Timers T K H) (timer : T) (now : Time) : Timers T K H :=
  let oldhead := s.queue.head?
  let s := remove s timer
  match s.queue with
  | [] => unprogram build s
  | newhead :: _ =>
    if some newhead ≠ oldhead then
      program build s (if timeLt (s.scheduledTime newhead) now then 0
        else s.scheduledTime newhead - now)
    else s

def perform (s : Timers T K H) (now : Time) : Op T K → Option (Timers T K H)
  | .setOneshot timer delay callback => timerSetOneshot build s timer delay callback now
  | .setPeriodic timer period callback => timerSetPeriodic build s timer period callback now
  | .cancel timer => some (timerCancel build s timer now)

def requeues (s : Timers T K H) (timer : T) (periodic : Bool) : Bool :=
  periodic ∧ timer ∉ s.queue ∧ s.periodicTime timer ≠ 0

def requeue (s : Timers T K H) (timer : T) (now : Time) : Timers T K H :=
  let scheduled := update s.scheduledTime timer (now + s.periodicTime timer)
  { s with queue := insertTimerInQueue scheduled timer s.queue, scheduledTime := scheduled }

def afterCallback (s : Timers T K H) (timer : T) (periodic : Bool) (now : Time) : Timers T K H :=
  if requeues s timer periodic then requeue s timer now else s

end Functions

def Op.timer {T K : Type} : Op T K → T
  | .setOneshot timer _ _ => timer
  | .setPeriodic timer _ _ => timer
  | .cancel timer => timer

def Op.delay {T K : Type} : Op T K → Time
  | .setOneshot _ delay _ => atLeastOne delay
  | .setPeriodic _ period _ => atLeastOne period
  | .cancel _ => 0

section Machine

/-- A callback that `timer_tick` ran: `periodic` is what it found before, `calls` are the calls that
the callback made, `requeued` says whether the timer was put back. -/
structure Round (T K : Type) where
  timer : T
  callback : K
  periodic : Bool
  calls : List (Op T K)
  requeued : Bool
  deriving DecidableEq

/-- A run of `timer_tick` at the time `now`: the timers as it found them, and its rounds. -/
structure Tick (T K H : Type) where
  now : Nat
  start : Timers T K H
  rounds : List (Round T K)

/-- Why the kernel stopped: the panic of `timer_set`, a call of a `NULL` callback, the assertion of
`timer_tick`. -/
inductive Halt where
  | alreadyInList
  | noCallback
  | assertion
  deriving DecidableEq

/-- Where the processor is: outside `timer_tick`, or in a callback. -/
inductive Phase (T K H : Type) where
  | idle
  | callback (tick : Tick T K H) (round : Round T K)
  | halted (why : Halt)

structure Machine (T K H : Type) where
  time : Nat
  timers : Timers T K H
  phase : Phase T K H
  ticks : List (Tick T K H × Timers T K H)

/-- What happens next: a call by a thread, an interrupt handler or the running callback; the
timer interrupt; the end of the running callback. -/
inductive Action (T K : Type) where
  | call (op : Op T K)
  | tick
  | ret

structure Event (T K : Type) where
  elapsed : Nat
  action : Action T K

variable {T K H : Type} [DecidableEq T] (build : Option (Platform H))

def Phase.note (op : Op T K) : Phase T K H → Phase T K H
  | .callback tick round => .callback tick { round with calls := round.calls ++ [op] }
  | phase => phase

def Machine.call (m : Machine T K H) (op : Op T K) : Machine T K H :=
  match perform build m.timers (clock m.time) op with
  | none => { m with phase := .halted .alreadyInList }
  | some timers => { m with timers := timers, phase := m.phase.note op }

/-- `timer_tick` after its loop. The function ends with the scheduler's own tick in a build without
dynamic timers, which does not concern the timers. -/
def timerTickEnd (m : Machine T K H) (tick : Tick T K H) : Machine T K H :=
  let left : Machine T K H := { m with phase := .idle, ticks := m.ticks ++ [(tick, m.timers)] }
  match build, m.timers.queue with
  | some _, timer :: _ =>
    if timeGt (m.timers.scheduledTime timer) (clock tick.now) then
      let delay := m.timers.scheduledTime timer - clock tick.now
      { left with timers := program build m.timers delay }
    else { m with phase := .halted .assertion }
  | _, _ => left

def timerTick (m : Machine T K H) (tick : Tick T K H) : Machine T K H :=
  match m.timers.queue with
  | [] => timerTickEnd build m tick
  | timer :: rest =>
    if timeLt (clock tick.now) (m.timers.scheduledTime timer) then timerTickEnd build m tick
    else
      match m.timers.callback timer with
      | none => { m with phase := .halted .noCallback }
      | some callback =>
        { m with
          timers := { m.timers with queue := rest }
          phase := .callback tick
            ⟨timer, callback, m.timers.periodicTime timer ≠ 0, [], false⟩ }

def Machine.ret (m : Machine T K H) (tick : Tick T K H) (round : Round T K) : Machine T K H :=
  timerTick build
    { m with timers := afterCallback m.timers round.timer round.periodic (clock tick.now) }
    { tick with rounds := tick.rounds ++
        [{ round with requeued := requeues m.timers round.timer round.periodic }] }

def Machine.elapse (m : Machine T K H) (elapsed : Nat) : Machine T K H :=
  { m with
    time := m.time + elapsed
    timers := { m.timers with
      hardware := build.elim m.timers.hardware fun p => p.elapse m.timers.hardware elapsed } }

def Machine.tick (m : Machine T K H) : Machine T K H :=
  timerTick build
    { m with timers := { m.timers with
        hardware := build.elim m.timers.hardware fun p => p.interrupt m.timers.hardware } }
    ⟨m.time, m.timers, []⟩

/-- One step. In a callback no interrupt arrives. -/
def step (m : Machine T K H) (e : Event T K) : Option (Machine T K H) :=
  match e.action, m.phase with
  | .call _, .halted _ => none
  | .call op, _ => some ((m.elapse build e.elapsed).call build op)
  | .tick, .idle => some ((m.elapse build e.elapsed).tick build)
  | .ret, .callback tick round => some ((m.elapse build e.elapsed).ret build tick round)
  | _, _ => none

/-- `timer_init` was called, and nothing else yet. -/
structure Initial (m : Machine T K H) : Prop where
  empty : m.timers.queue = []
  idle : m.phase = .idle
  ticks : m.ticks = []

end Machine

section Facts

variable {T K H : Type}

variable {scheduled : T → Time} {timer : T}

theorem insertTimerInQueue_nodup {queue : List T}
    (nodup : queue.Nodup) (fresh : timer ∉ queue) :
    (insertTimerInQueue scheduled timer queue).Nodup :=
  (insertTimerInQueue_perm ..).nodup_iff.mpr (List.nodup_cons.mpr ⟨fresh, nodup⟩)

theorem insertTimerInQueue_head (scheduled : T → Time) (timer : T) (queue : List T) :
    (insertTimerInQueue scheduled timer queue).head? = some timer ∨
      (insertTimerInQueue scheduled timer queue).head? = queue.head? := by
  cases queue with
  | nil => exact Or.inl rfl
  | cons entry rest =>
    rw [insertTimerInQueue]
    split
    · exact Or.inl rfl
    · exact Or.inr rfl

theorem insertTimerInQueue_filter {p : T → Bool}
    (fails : p timer = false) (queue : List T) :
    (insertTimerInQueue scheduled timer queue).filter p = queue.filter p := by
  induction queue with
  | nil => simp [insertTimerInQueue, fails]
  | cons entry rest ih =>
    rw [insertTimerInQueue]
    split
    · exact List.filter_cons_of_neg (by simp [fails])
    · rw [List.filter_cons, List.filter_cons, ih]

theorem atLeastOne_ne_zero (delay : Time) : atLeastOne delay ≠ 0 := by
  unfold atLeastOne
  split
  · decide
  · assumption

variable [DecidableEq T] {build : Option (Platform H)} {s s' : Timers T K H} {now : Time}

theorem timerSet_eq {delay period : Time} {callback : K} (fresh : timer ∉ s.queue) :
    ∃ hardware, timerSet build s timer delay period callback now =
      some { place s timer (now + delay) period (some callback) with hardware := hardware } := by
  unfold timerSet
  rw [if_neg fresh]
  dsimp only
  split
  · exact ⟨_, rfl⟩
  · exact ⟨_, rfl⟩

theorem timerCancel_eq (build : Option (Platform H)) (s : Timers T K H) (timer : T) (now : Time) :
    ∃ hardware, timerCancel build s timer now = { remove s timer with hardware := hardware } := by
  unfold timerCancel
  dsimp only
  split
  · exact ⟨_, rfl⟩
  · split
    · exact ⟨_, rfl⟩
    · exact ⟨_, rfl⟩

theorem perform_cases {op : Op T K} (performed : perform build s now op = some s') :
    (∃ timer hardware, op = .cancel timer ∧ s' = { remove s timer with hardware := hardware }) ∨
    (∃ timer period callback hardware, (∀ u, op ≠ .cancel u) ∧ op.timer = timer ∧
      (∀ other delay more, op = .setOneshot other delay more → period = 0) ∧
      op.delay ≠ 0 ∧ timer ∉ s.queue ∧
      s' = { place s timer (now + op.delay) period (some callback) with hardware := hardware }) := by
  have placed {timer : T} {delay period : Time} {callback : K}
      (set : timerSet build s timer delay period callback now = some s') :
      timer ∉ s.queue ∧ ∃ hardware,
        s' = { place s timer (now + delay) period (some callback) with hardware := hardware } := by
    by_cases fresh : timer ∈ s.queue
    · rw [timerSet, if_pos fresh] at set
      cases set
    · obtain ⟨hardware, done⟩ := timerSet_eq fresh
      exact ⟨fresh, hardware, Option.some.inj (set.symm.trans done)⟩
  cases op with
  | setOneshot timer delay callback =>
    obtain ⟨fresh, hardware, rfl⟩ := placed performed
    refine Or.inr ⟨timer, 0, callback, hardware, fun u same => ?_, rfl, fun _ _ _ _ => rfl,
      atLeastOne_ne_zero delay, fresh, rfl⟩
    cases same
  | setPeriodic timer period callback =>
    obtain ⟨fresh, hardware, rfl⟩ := placed performed
    refine Or.inr ⟨timer, atLeastOne period, callback, hardware, fun u same => ?_, rfl,
      fun _ _ _ same => ?_, atLeastOne_ne_zero period, fresh, rfl⟩
    · cases same
    · cases same
  | cancel timer =>
    obtain ⟨hardware, done⟩ := timerCancel_eq build s timer now
    exact Or.inl ⟨timer, hardware, rfl, (Option.some.inj performed).symm.trans done⟩

end Facts

section Steps

variable {T K H : Type}

def SameTimers (s s' : Timers T K H) : Prop := ∃ hardware, s' = { s with hardware := hardware }

theorem timerTickEnd_cases (build : Option (Platform H)) (m : Machine T K H) (tick : Tick T K H) :
    (∃ timers, SameTimers m.timers timers ∧ timerTickEnd build m tick =
      { m with timers := timers, phase := .idle, ticks := m.ticks ++ [(tick, m.timers)] }) ∨
    (∃ timer rest, m.timers.queue = timer :: rest ∧
      timeGt (m.timers.scheduledTime timer) (clock tick.now) = false ∧
      timerTickEnd build m tick = { m with phase := .halted .assertion }) := by
  unfold timerTickEnd
  split
  case h_1 timer rest queue =>
    split
    case isTrue => exact Or.inl ⟨_, ⟨_, rfl⟩, rfl⟩
    case isFalse past =>
      exact Or.inr ⟨timer, rest, queue, Bool.eq_false_of_not_eq_true past, rfl⟩
  case h_2 => exact Or.inl ⟨_, ⟨_, rfl⟩, rfl⟩

theorem timerTick_cases (build : Option (Platform H)) (m : Machine T K H) (tick : Tick T K H) :
    ((∀ timer rest, m.timers.queue = timer :: rest →
        timeLt (clock tick.now) (m.timers.scheduledTime timer) = true) ∧
      timerTick build m tick = timerTickEnd build m tick) ∨
    (∃ timer rest, m.timers.queue = timer :: rest ∧ m.timers.callback timer = none ∧
      timerTick build m tick = { m with phase := .halted .noCallback }) ∨
    (∃ timer rest callback, m.timers.queue = timer :: rest ∧
      timeLt (clock tick.now) (m.timers.scheduledTime timer) = false ∧
      m.timers.callback timer = some callback ∧
      timerTick build m tick =
        { m with
          timers := { m.timers with queue := rest }
          phase := .callback tick
            ⟨timer, callback, m.timers.periodicTime timer ≠ 0, [], false⟩ }) := by
  unfold timerTick
  cases queue : m.timers.queue with
  | nil =>
    refine Or.inl ⟨fun timer rest same => ?_, rfl⟩
    cases same
  | cons timer rest =>
    dsimp only
    split_ifs with later
    · refine Or.inl ⟨fun other more same => ?_, rfl⟩
      obtain ⟨rfl, rfl⟩ := List.cons.inj same
      exact later
    · have due := Bool.eq_false_of_not_eq_true later
      cases called : m.timers.callback timer with
      | none => exact Or.inr (Or.inl ⟨timer, rest, rfl, called, rfl⟩)
      | some callback => exact Or.inr (Or.inr ⟨timer, rest, callback, rfl, due, called, rfl⟩)

variable [DecidableEq T] {build : Option (Platform H)} {m m' : Machine T K H}

theorem step_cases {e : Event T K} (taken : step build m e = some m') :
    (∃ op, e.action = .call op ∧ (∀ why, m.phase ≠ .halted why) ∧
      m' = (m.elapse build e.elapsed).call build op) ∨
    (e.action = .tick ∧ m.phase = .idle ∧ m' = (m.elapse build e.elapsed).tick build) ∨
    (∃ tick round, e.action = .ret ∧ m.phase = .callback tick round ∧
      m' = (m.elapse build e.elapsed).ret build tick round) := by
  unfold step at taken
  split at taken
  case h_1 => cases taken
  case h_2 op action running =>
    cases taken
    exact Or.inl ⟨op, action, fun why same => running why same, rfl⟩
  case h_3 action idle =>
    cases taken
    exact Or.inr (Or.inl ⟨action, idle, rfl⟩)
  case h_4 tick round action phase =>
    cases taken
    exact Or.inr (Or.inr ⟨tick, round, action, phase, rfl⟩)
  case h_5 => cases taken

/-- A call of `timer_set` on a queued timer stops the kernel; every other call is performed. -/
theorem call_cases (build : Option (Platform H)) (m : Machine T K H) (op : Op T K) :
    m.call build op = { m with phase := .halted .alreadyInList } ∨
    ∃ timers, perform build m.timers (clock m.time) op = some timers ∧
      m.call build op = { m with timers := timers, phase := m.phase.note op } := by
  unfold Machine.call
  cases performed : perform build m.timers (clock m.time) op with
  | none => exact Or.inl rfl
  | some timers => exact Or.inr ⟨timers, rfl, rfl⟩

end Steps

section Soundness

variable {T K H : Type}

def During (P : Tick T K H → Round T K → Prop) : Phase T K H → Prop
  | .callback tick round => P tick round
  | _ => True

variable {phase : Phase T K H}

theorem During.imp {P Q : Tick T K H → Round T K → Prop} (holds : During P phase)
    (step : ∀ tick round, phase = .callback tick round → P tick round → Q tick round) :
    During Q phase := by
  cases phase with
  | idle | halted => trivial
  | callback tick round => exact step tick round rfl holds

variable {op : Op T K}

theorem During.of_note {P : Tick T K H → Round T K → Prop}
    (before : During (fun tick round => P tick { round with calls := round.calls ++ [op] }) phase) :
    During P (phase.note op) := by
  cases phase with
  | idle | halted => trivial
  | callback tick round => exact before

theorem note_halted {why : Halt} (running : phase ≠ .halted why) : phase.note op ≠ .halted why := by
  cases phase with
  | idle | halted => exact running
  | callback tick round =>
    intro same
    cases same

structure Listed (s : Timers T K H) : Prop where
  nodup : s.queue.Nodup
  called : ∀ timer ∈ s.queue, s.callback timer ≠ none

def Backed (s : Timers T K H) (timer : T) : Prop :=
  s.periodicTime timer ≠ 0 → s.callback timer ≠ none

structure Sound (m : Machine T K H) : Prop where
  listed : Listed m.timers
  now_le : During (fun tick _ => tick.now ≤ m.time) m.phase
  backed : During (fun _ round => Backed m.timers round.timer) m.phase
  present : m.phase ≠ .halted .noCallback

variable {m : Machine T K H}

theorem Sound.elapse {build : Option (Platform H)} (sound : Sound m)
    (elapsed : Nat) : Sound (m.elapse build elapsed) := by
  refine ⟨⟨sound.listed.nodup, sound.listed.called⟩, ?_, sound.backed, sound.present⟩
  exact sound.now_le.imp fun _ _ _ began => Nat.le_add_right_of_le began

theorem Initial.sound (initial : Initial m) : Sound m := by
  obtain ⟨time, timers, phase, ticks⟩ := m
  obtain ⟨empty, rfl, -⟩ := initial
  refine ⟨⟨?_, ?_⟩, trivial, trivial, fun same => by cases same⟩
  · rw [empty]
    exact List.nodup_nil
  · rw [empty]
    intro timer never
    cases never

theorem Sound.timerTick {build : Option (Platform H)} {tick : Tick T K H}
    (listed : Listed m.timers) (began : tick.now ≤ m.time) :
    Sound (timerTick build m tick) := by
  rcases timerTick_cases build m tick with
    ⟨-, ended⟩ | ⟨timer, rest, queue, missing, -⟩ |
    ⟨timer, rest, callback, queue, -, called, taken⟩
  · rw [ended]
    rcases timerTickEnd_cases build m tick with ⟨timers, ⟨hardware, rfl⟩, left⟩ | ⟨-, -, -, -, left⟩
    · rw [left]
      exact ⟨⟨listed.nodup, listed.called⟩, trivial, trivial, fun same => by cases same⟩
    · rw [left]
      exact ⟨listed, trivial, trivial, fun same => by cases same⟩
  · refine absurd missing (listed.called timer ?_)
    rw [queue]
    exact List.mem_cons_self
  · rw [taken]
    have nodup := listed.nodup
    rw [queue] at nodup
    refine ⟨⟨(List.nodup_cons.mp nodup).2, fun u member => ?_⟩, began, fun _ missing => ?_,
      fun same => by cases same⟩
    · refine listed.called u ?_
      rw [queue]
      exact List.mem_cons_of_mem timer member
    · rw [called] at missing
      cases missing

variable [DecidableEq T] {build : Option (Platform H)} {s s' : Timers T K H} {now : Time}

theorem Listed.perform (listed : Listed s)
    (performed : perform build s now op = some s') : Listed s' := by
  rcases perform_cases performed with
    ⟨timer, hardware, -, rfl⟩ | ⟨timer, period, callback, hardware, -, -, -, -, fresh, rfl⟩
  · refine ⟨listed.nodup.erase timer, fun u member => ?_⟩
    obtain ⟨differs, queued⟩ := listed.nodup.mem_erase_iff.mp member
    show update s.callback timer none u ≠ none
    rw [update_of_ne differs]
    exact listed.called u queued
  · refine ⟨insertTimerInQueue_nodup listed.nodup fresh, fun u member => ?_⟩
    show update s.callback timer (some callback) u ≠ none
    obtain rfl | same := eq_or_ne u timer
    · rw [update_self]
      exact Option.some_ne_none callback
    · rw [update_of_ne same]
      exact listed.called u ((mem_insertTimerInQueue.mp member).resolve_left same)

theorem Backed.perform {timer : T} (backed : Backed s timer)
    (performed : perform build s now op = some s') : Backed s' timer := by
  rcases perform_cases performed with
    ⟨u, hardware, -, rfl⟩ | ⟨u, period, callback, hardware, -, -, -, -, -, rfl⟩
  · intro lasting
    obtain rfl | same := eq_or_ne timer u
    · exact absurd (update_self ..) lasting
    · show update s.callback u none timer ≠ none
      rw [update_of_ne same]
      exact backed fun none => lasting ((update_of_ne same ..).trans none)
  · intro lasting
    show update s.callback u (some callback) timer ≠ none
    obtain rfl | same := eq_or_ne timer u
    · rw [update_self]
      exact Option.some_ne_none callback
    · rw [update_of_ne same]
      exact backed fun none => lasting ((update_of_ne same ..).trans none)

theorem requeues_iff {timer : T} {periodic : Bool} :
    requeues s timer periodic = true ↔
      periodic = true ∧ timer ∉ s.queue ∧ s.periodicTime timer ≠ 0 :=
  decide_eq_true_iff

theorem Listed.afterCallback {timer : T} {periodic : Bool} (listed : Listed s)
    (backed : Backed s timer) : Listed (afterCallback s timer periodic now) := by
  unfold TimerQueue.afterCallback
  split
  case isTrue again =>
    obtain ⟨-, fresh, lasting⟩ := requeues_iff.mp again
    refine ⟨insertTimerInQueue_nodup listed.nodup fresh, fun u member => ?_⟩
    rcases mem_insertTimerInQueue.mp member with rfl | queued
    · exact backed lasting
    · exact listed.called u queued
  case isFalse => exact listed

theorem Sound.call (sound : Sound m) (op : Op T K) : Sound (m.call build op) := by
  rcases call_cases build m op with halted | ⟨timers, performed, called⟩
  · rw [halted]
    exact ⟨sound.listed, trivial, trivial, fun same => by cases same⟩
  · rw [called]
    refine ⟨sound.listed.perform performed, .of_note ?_, .of_note ?_, note_halted sound.present⟩
    · exact sound.now_le
    · exact sound.backed.imp fun _ _ _ backed => Backed.perform backed performed

theorem Sound.ret {tick : Tick T K H} {round : Round T K} (sound : Sound m)
    (running : m.phase = .callback tick round) : Sound (m.ret build tick round) := by
  have began := sound.now_le
  have backed := sound.backed
  rw [running] at began backed
  exact Sound.timerTick (sound.listed.afterCallback backed) began

theorem Sound.step {m m' : Machine T K H} {e : Event T K} (sound : Sound m)
    (taken : step build m e = some m') : Sound m' := by
  have later : Sound (m.elapse build e.elapsed) := sound.elapse e.elapsed
  rcases step_cases taken with
    ⟨op, -, -, rfl⟩ | ⟨-, -, rfl⟩ | ⟨tick, round, -, running, rfl⟩
  · exact later.call op
  · exact Sound.timerTick ⟨later.listed.nodup, later.listed.called⟩ le_rfl
  · exact later.ret running

theorem Sound.of_reach {allowed : Machine T K H → Event T K → Prop} {start m : Machine T K H}
    (sound : Sound start) (reach : Reach (TimerQueue.step build) allowed start m) : Sound m :=
  reach.invariant Sound sound fun _ _ _ sound _ taken => sound.step taken

end Soundness

section Kernel

/-!
The kernel of the scheduler is built without dynamic timers. Its timers do the same.
-/

open LittleKernel.Machine (takeTimer fireTimer timerCallbackDone)

variable {K H : Type} {k : Kernel} {s s' : Timers TimerId K H} {m m' : Machine TimerId K H}

structure Agrees (k : Kernel) (s : Timers TimerId K H) : Prop where
  queue : k.timerQueue = s.queue
  scheduledTime : k.scheduledTime = s.scheduledTime
  periodicTime : k.periodicTime = s.periodicTime

def kernelPerform (k : Kernel) (now : Time) : Op TimerId K → Kernel
  | .setOneshot timer delay _ => Timer.timerSetOneshot k timer delay now
  | .setPeriodic timer period _ => Timer.timerSetPeriodic k timer period now
  | .cancel timer => Timer.timerCancel k timer

/-- The kernel's `timer_tick` is at its end where the machine is, or fires the same timer. -/
def TicksAlike (k : Kernel) (now : Time) (m : Machine TimerId K H) : Prop :=
  (LittleKernel.Machine.timerTick k now = some ⟨Thread.threadTimerTick k, .ret 1⟩ ∧
    m.phase = .idle ∧ Agrees k m.timers) ∨
  ∃ rest tick round,
    LittleKernel.Machine.timerTick k now = fireTimer (takeTimer k rest now) now round.timer ∧
    m.phase = .callback tick round ∧ Agrees (takeTimer k rest now) m.timers

def StepsAlike (k : Kernel) (m m' : Machine TimerId K H) (now : Time) : Action TimerId K → Prop
  | .call op => Agrees (kernelPerform k now op) m'.timers
  | .tick => TicksAlike k now m'
  | .ret => ∀ tick round n, m.phase = .callback tick round → round.timer = .device n →
      TicksAlike (timerCallbackDone k n round.periodic (clock tick.now)) (clock tick.now) m'

theorem Agrees.timerSet (agrees : Agrees k s) {timer : TimerId} {delay period now : Time}
    {callback : K} (set : timerSet none s timer delay period callback now = some s') :
    Agrees (Timer.timerSet k timer delay period now) s' := by
  by_cases fresh : timer ∈ s.queue
  · rw [TimerQueue.timerSet, if_pos fresh] at set
    cases set
  · obtain ⟨hardware, done⟩ := timerSet_eq fresh
    cases set.symm.trans done
    refine ⟨?_, ?_, ?_⟩
    · show insertTimerInQueue (update k.scheduledTime timer (now + delay)) timer k.timerQueue = _
      rw [agrees.queue, agrees.scheduledTime]
      rfl
    · exact congrArg (update · timer (now + delay)) agrees.scheduledTime
    · exact congrArg (update · timer period) agrees.periodicTime

theorem Agrees.perform (agrees : Agrees k s) {op : Op TimerId K} {now : Time}
    (performed : perform none s now op = some s') : Agrees (kernelPerform k now op) s' := by
  cases op with
  | setOneshot | setPeriodic => exact agrees.timerSet performed
  | cancel timer =>
    obtain ⟨hardware, done⟩ := timerCancel_eq none s timer now
    cases performed.symm.trans (congrArg some done)
    exact ⟨congrArg (List.erase · timer) agrees.queue, agrees.scheduledTime,
      congrArg (update · timer 0) agrees.periodicTime⟩

theorem Agrees.timerTick (agrees : Agrees k m.timers) (listed : Listed m.timers)
    (tick : Tick TimerId K H) : TicksAlike k (clock tick.now) (timerTick none m tick) := by
  unfold TicksAlike LittleKernel.Machine.timerTick
  rw [agrees.queue]
  rcases timerTick_cases none m tick with
    ⟨future, ended⟩ | ⟨timer, rest, queue, missing, -⟩ |
    ⟨timer, rest, callback, queue, due, -, taken⟩
  · refine Or.inl ⟨?_, ?_, ?_⟩
    · split
      case h_1 => rfl
      case h_2 timer rest queue =>
        rw [agrees.scheduledTime, if_pos (future timer rest queue)]
    · rw [ended]
      rfl
    · rw [ended]
      exact agrees
  · refine absurd missing (listed.called timer ?_)
    rw [queue]
    exact List.mem_cons_self
  · rw [taken, queue]
    refine Or.inr ⟨rest, tick, _, ?_, rfl, rfl, agrees.scheduledTime, agrees.periodicTime⟩
    rw [agrees.scheduledTime]
    dsimp only
    rw [due, if_neg Bool.false_ne_true]

theorem Agrees.afterCallback (agrees : Agrees k s) (n : Nat) (periodic : Bool) (now : Time) :
    Agrees (timerCallbackDone k n periodic now) (afterCallback s (.device n) periodic now) := by
  unfold timerCallbackDone TimerQueue.afterCallback
  rw [agrees.queue, agrees.scheduledTime, agrees.periodicTime]
  by_cases again : requeues s (.device n) periodic = true
  · rw [if_pos again, if_pos (requeues_iff.mp again)]
    exact ⟨rfl, rfl, rfl⟩
  · rw [if_neg again, if_neg fun all => again (requeues_iff.mpr all)]
    exact agrees

theorem Agrees.tick (agrees : Agrees k m.timers) (listed : Listed m.timers) :
    TicksAlike k (clock m.time) (m.tick none) :=
  Agrees.timerTick (m := { m with timers := { m.timers with hardware := m.timers.hardware } })
    { agrees with } { listed with } ⟨m.time, m.timers, []⟩

theorem Agrees.ret (agrees : Agrees k m.timers) (listed : Listed m.timers) {n : Nat}
    {tick : Tick TimerId K H} {round : Round TimerId K} (backed : Backed m.timers round.timer)
    (device : round.timer = .device n) :
    TicksAlike (timerCallbackDone k n round.periodic (clock tick.now)) (clock tick.now)
      (m.ret none tick round) := by
  have after := agrees.afterCallback n round.periodic (clock tick.now)
  rw [← device] at after
  exact Agrees.timerTick
    (m := { m with timers :=
      TimerQueue.afterCallback m.timers round.timer round.periodic (clock tick.now) })
    after (listed.afterCallback backed)
    { tick with rounds := tick.rounds ++
      [{ round with requeued := requeues m.timers round.timer round.periodic }] }

/-- Every step of the timers is a step of the kernel's own timer functions. -/
theorem kernel_timers_step {e : Event TimerId K} (agrees : Agrees k m.timers) (sound : Sound m)
    (taken : step none m e = some m') (running : m'.phase ≠ .halted .alreadyInList) :
    StepsAlike k m m' (clock (m.time + e.elapsed)) e.action := by
  have agrees' : Agrees k (m.elapse none e.elapsed).timers := { agrees with }
  have sound' : Sound (m.elapse none e.elapsed) := sound.elapse e.elapsed
  rcases step_cases taken with
    ⟨op, action, -, rfl⟩ | ⟨action, -, rfl⟩ | ⟨tick, round, action, phase, rfl⟩
  · rw [action]
    rcases call_cases none (m.elapse none e.elapsed) op with halted | ⟨timers, performed, called⟩
    · rw [halted] at running
      exact absurd rfl running
    · rw [called]
      exact agrees'.perform performed
  · rw [action]
    exact agrees'.tick sound'.listed
  · rw [action]
    intro tick' round' n phase' device
    cases phase.symm.trans phase'
    have backed := sound.backed
    rw [phase] at backed
    exact agrees'.ret sound'.listed backed device

end Kernel

end AndroidBoot.LittleKernel.TimerQueue
