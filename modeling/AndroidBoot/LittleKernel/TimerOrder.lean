/- source: bootable/lk/kernel/timer.c, include/sys/types.h
   digest: While all deadlines lie in half of the range, every tick runs what is due, in order. -/

import AndroidBoot.Foundation.HalfRange
import AndroidBoot.Foundation.Worklist
import AndroidBoot.LittleKernel.TimerQueue

set_option autoImplicit false

namespace AndroidBoot.LittleKernel.TimerOrder

open Function State TimerQueue
open Timer (timeGt timeLt insertTimerInQueue mem_insertTimerInQueue)
open Foundation.Run Foundation.HalfRange Foundation.Worklist

section Comparisons

variable {b x y : Time}

theorem timeGt_iff (hx : Within b x) (hy : Within b y) :
    timeGt x y = true ↔ ahead b y < ahead b x := by
  rw [timeGt, decide_eq_true_iff, toInt_sub_of_within hx hy]
  omega

theorem timeLt_iff (hx : Within b x) (hy : Within b y) :
    timeLt x y = true ↔ ahead b x < ahead b y := by
  rw [timeLt, decide_eq_true_iff, toInt_sub_of_within hx hy]
  omega

theorem timeGt_eq_false_iff (hx : Within b x) (hy : Within b y) :
    timeGt x y = false ↔ ahead b x ≤ ahead b y := by
  rw [← Bool.not_eq_true, timeGt_iff hx hy, Nat.not_lt]

end Comparisons

section Statements

variable {T K H : Type}

def Sorted (s : Timers T K H) : Prop :=
  s.queue.Pairwise fun t u => timeGt (s.scheduledTime t) (s.scheduledTime u) = false

def due (s : Timers T K H) (now : Time) (timer : T) : Bool := !timeLt now (s.scheduledTime timer)

def dueTimers (tick : Tick T K H) : List T :=
  tick.start.queue.filter (due tick.start (clock tick.now))

def fired (tick : Tick T K H) : List T := tick.rounds.map Round.timer

def cancels : Op T K → Option T
  | .cancel timer => some timer
  | _ => none

def entry (round : Round T K) : T × List T := (round.timer, round.calls.filterMap cancels)

/-- The callback is the one that was set, and the timer was put back just when it is periodic and
its callback left it alone. -/
structure RoundCorrect (start : Timers T K H) (round : Round T K) : Prop where
  callback : start.callback round.timer = some round.callback
  requeued : round.requeued = true ↔
    start.periodicTime round.timer ≠ 0 ∧ ∀ op ∈ round.calls, op.timer ≠ round.timer

structure TickCorrect (tick : Tick T K H) : Prop where
  sorted : Sorted tick.start
  order : (fired tick).Sublist (dueTimers tick)
  once : (fired tick).Nodup
  exactly : ∀ timer ∈ dueTimers tick,
    timer ∈ fired tick ↔ ¬ StruckBefore timer (tick.rounds.map entry)
  rounds : ∀ round ∈ tick.rounds, RoundCorrect tick.start round

/-- The queue is sorted; the ticks that are over were correct and left a head in the future; a tick
has no more rounds than timers were due; its assertion holds, and its callbacks exist. -/
structure QueueCorrect (m : Machine T K H) : Prop where
  sorted : Sorted m.timers
  ticks : ∀ tick left, (tick, left) ∈ m.ticks → TickCorrect tick ∧
    ∀ timer rest, left.queue = timer :: rest →
      timeGt (left.scheduledTime timer) (clock tick.now) = true
  terminates : ∀ tick round, m.phase = .callback tick round →
    tick.rounds.length < (dueTimers tick).length
  asserted : m.phase ≠ .halted .assertion
  present : m.phase ≠ .halted .noCallback

/-- The pending deadlines, the time of the running tick and the current time lie in the half of the
range that starts at `b`. -/
structure Moment (b : Time) (s : Timers T K H) (now current : Time) : Prop where
  pending : ∀ timer ∈ s.queue, Within b (s.scheduledTime timer)
  now_within : Within b now
  current_within : Within b current
  order : ahead b now ≤ ahead b current

/-- When the running tick began; outside of ticks, the current time. -/
def beganAt (phase : Phase T K H) (time : Nat) : Nat :=
  match phase with
  | .callback tick _ => tick.now
  | _ => time

variable [DecidableEq T]

def Fits (b : Time) (m : Machine T K H) (e : Event T K) : Prop :=
  match e.action, m.phase with
  | .call op, _ => 2 * (ahead b (clock (m.time + e.elapsed)) + op.delay.toNat) < 2 ^ 32
  | .ret, .callback tick round =>
    requeues m.timers round.timer round.periodic = true →
      2 * (ahead b (clock tick.now) + (m.timers.periodicTime round.timer).toNat) < 2 ^ 32
  | _, _ => True

/-- At this event everything lies in one window of less than `2 ^ 31` ms. -/
def Windowed (m : Machine T K H) (e : Event T K) : Prop :=
  ∃ b, Moment b m.timers (clock (beganAt m.phase (m.time + e.elapsed)))
    (clock (m.time + e.elapsed)) ∧ Fits b m e

end Statements

section Order

variable {T K H : Type} {b : Time}

variable {queue : List T}

theorem insertTimerInQueue_sorted {scheduled : T → Time} {timer : T}
    (own : Within b (scheduled timer)) (window : ∀ u ∈ queue, Within b (scheduled u))
    (sorted : queue.Pairwise fun t u => timeGt (scheduled t) (scheduled u) = false) :
    (insertTimerInQueue scheduled timer queue).Pairwise fun t u =>
      timeGt (scheduled t) (scheduled u) = false := by
  induction queue with
  | nil => exact List.pairwise_singleton _ timer
  | cons entry rest ih =>
    obtain ⟨first, later⟩ := List.pairwise_cons.mp sorted
    obtain ⟨here, there⟩ := List.forall_mem_cons.mp window
    rw [insertTimerInQueue]
    split
    case isTrue after =>
      have before := (timeGt_iff here own).mp after
      refine List.pairwise_cons.mpr ⟨fun u member => ?_, sorted⟩
      rw [timeGt_eq_false_iff own (window u member)]
      rcases List.mem_cons.mp member with rfl | behind
      · exact before.le
      · exact before.le.trans ((timeGt_eq_false_iff here (there u behind)).mp (first u behind))
    case isFalse before =>
      refine List.pairwise_cons.mpr ⟨fun u member => ?_, ih there later⟩
      rcases mem_insertTimerInQueue.mp member with rfl | behind
      · exact Bool.eq_false_of_not_eq_true before
      · exact first u behind

theorem due_eq_nil {s : Timers T K H} {now : Time} (tick : Within b now)
    (pending : ∀ timer ∈ s.queue, Within b (s.scheduledTime timer)) (sorted : Sorted s)
    (future : ∀ timer rest, s.queue = timer :: rest → timeLt now (s.scheduledTime timer) = true) :
    s.queue.filter (due s now) = [] := by
  rw [List.filter_eq_nil_iff]
  intro timer member late
  unfold Sorted at sorted
  cases queue : s.queue with
  | nil =>
    rw [queue] at member
    cases member
  | cons head rest =>
    have early := future head rest queue
    rw [queue] at member pending sorted
    have front := pending head List.mem_cons_self
    have notLate : timeLt now (s.scheduledTime timer) = true := by
      rcases List.mem_cons.mp member with rfl | behind
      · exact early
      · have own := pending timer (List.mem_cons_of_mem head behind)
        rw [timeLt_iff tick own]
        refine ((timeLt_iff tick front).mp early).trans_le ?_
        exact (timeGt_eq_false_iff front own).mp ((List.pairwise_cons.mp sorted).1 timer behind)
    rw [due, notLate] at late
    cases late

theorem not_due_of_later {s : Timers T K H} {now current delay : Time}
    (moment : Moment b s now current)
    (fits : 2 * (ahead b current + delay.toNat) < 2 ^ 32) (positive : delay ≠ 0) :
    (!timeLt now (current + delay)) = false := by
  have ordered := moment.order
  have some_delay : 0 < delay.toNat :=
    Nat.pos_of_ne_zero fun zero => positive (BitVec.eq_of_toNat_eq zero)
  have after : ahead b now < ahead b (current + delay) := by
    rw [ahead_add fits]
    omega
  rw [(timeLt_iff moment.now_within (within_add fits)).mpr after]
  rfl

variable [DecidableEq T]

theorem filter_erase (nodup : queue.Nodup) (p : T → Bool) (timer : T) :
    (queue.erase timer).filter p = (queue.filter p).erase timer := by
  rw [nodup.erase_eq_filter, (nodup.filter p).erase_eq_filter, List.filter_filter,
    List.filter_filter]
  exact List.filter_congr fun u _ => Bool.and_comm _ _

theorem update_queued {A : Type} {timer u : T} {f : T → A} {a : A}
    (fresh : timer ∉ queue) (member : u ∈ queue) : update f timer a u = f u := by
  refine update_of_ne (fun same => ?_) ..
  subst same
  exact fresh member

end Order

section Calls

variable {T K H : Type} [DecidableEq T] {build : Option (Platform H)} {s s' : Timers T K H}
variable {b now current : Time} {op : Op T K}

theorem Sorted.insert {timer : T} {deadline : Time} (sorted : Sorted s)
    (pending : ∀ u ∈ s.queue, Within b (s.scheduledTime u)) (own : Within b deadline)
    (fresh : timer ∉ s.queue) :
    (insertTimerInQueue (update s.scheduledTime timer deadline) timer
      s.queue).Pairwise fun t u =>
        timeGt (update s.scheduledTime timer deadline t)
          (update s.scheduledTime timer deadline u) = false := by
  refine @insertTimerInQueue_sorted T b s.queue _ timer ?_ (fun u member => ?_) ?_
  · rwa [update_self]
  · rw [update_queued fresh member]
    exact pending u member
  · refine List.Pairwise.imp_of_mem (fun first second order => ?_) sorted
    rwa [update_queued fresh first, update_queued fresh second]

theorem Sorted.perform (sorted : Sorted s) (moment : Moment b s now current)
    (fits : 2 * (ahead b current + op.delay.toNat) < 2 ^ 32)
    (performed : perform build s current op = some s') : Sorted s' := by
  rcases perform_cases performed with
    ⟨timer, hardware, -, rfl⟩ | ⟨timer, period, callback, hardware, -, -, -, -, fresh, rfl⟩
  · exact List.Pairwise.sublist List.erase_sublist sorted
  · exact sorted.insert moment.pending (within_add fits) fresh

theorem filter_due_insert {timer : T} {deadline : Time} (fresh : timer ∉ s.queue)
    (future : (!timeLt now deadline) = false) :
    (insertTimerInQueue (update s.scheduledTime timer deadline) timer s.queue).filter
        (fun u => !timeLt now (update s.scheduledTime timer deadline u)) =
      s.queue.filter (due s now) := by
  rw [insertTimerInQueue_filter]
  · refine List.filter_congr fun u member => ?_
    rw [update_queued fresh member]
    rfl
  · rwa [update_self]

end Calls

section Ticks

variable {T K H : Type} [DecidableEq T]

structure Progress (s : Timers T K H) (tick : Tick T K H) (log : List (T × List T)) : Prop where
  sorted : Sorted tick.start
  nodup : tick.start.queue.Nodup
  worked : Worked (dueTimers tick) log (s.queue.filter (due s (clock tick.now)))
  kept : ∀ timer ∈ s.queue, due s (clock tick.now) timer = true →
    s.callback timer = tick.start.callback timer ∧
      s.periodicTime timer = tick.start.periodicTime timer
  rounds : ∀ round ∈ tick.rounds, RoundCorrect tick.start round

/-- The timer of the running callback. Whether the callback touched it shows in its period and
its place. -/
structure Own (s start : Timers T K H) (round : Round T K) : Prop where
  callback : start.callback round.timer = some round.callback
  periodic : round.periodic = true ↔ start.periodicTime round.timer ≠ 0
  untouched : (∀ op ∈ round.calls, op.timer ≠ round.timer) →
    round.timer ∉ s.queue ∧ s.periodicTime round.timer = start.periodicTime round.timer
  touched : ∀ op ∈ round.calls, op.timer = round.timer →
    round.timer ∈ s.queue ∨ s.periodicTime round.timer = 0

def Underway (s : Timers T K H) (tick : Tick T K H) (round : Round T K) : Prop :=
  Progress s tick (tick.rounds.map entry ++ [entry round]) ∧ Own s tick.start round

variable {s : Timers T K H} {tick : Tick T K H} {round : Round T K} {log : List (T × List T)}
variable {b current : Time} {timer : T} {hardware : H}

theorem Progress.correct (progress : Progress s tick (tick.rounds.map entry))
    (none : s.queue.filter (due s (clock tick.now)) = []) : TickCorrect tick := by
  have worked := progress.worked
  rw [none] at worked
  have taken : (tick.rounds.map entry).map Prod.fst = fired tick := by
    rw [List.map_map]
    rfl
  have sub := worked.sublist
  rw [List.append_nil, taken] at sub
  have distinct : (dueTimers tick).Nodup := progress.nodup.filter _
  refine ⟨progress.sorted, sub, distinct.sublist sub, fun timer member => ?_, progress.rounds⟩
  have iff := worked.mem_iff distinct member
  rwa [List.append_nil, taken] at iff

theorem Progress.take {rest : List T} {callback : K}
    (progress : Progress s tick (tick.rounds.map entry)) (nodup : s.queue.Nodup)
    (queue : s.queue = timer :: rest)
    (late : timeLt (clock tick.now) (s.scheduledTime timer) = false)
    (called : s.callback timer = some callback) :
    Underway { s with queue := rest } tick
      ⟨timer, callback, s.periodicTime timer ≠ 0, [], false⟩ := by
  have isDue : due s (clock tick.now) timer = true := by
    rw [due, late]
    rfl
  have worked := progress.worked
  have kept := progress.kept
  rw [queue] at nodup worked kept
  rw [List.filter_cons_of_pos isDue] at worked
  obtain ⟨sameCallback, samePeriod⟩ := kept timer List.mem_cons_self isDue
  refine ⟨{ progress with worked := worked.take, kept := fun u behind => ?_ },
    sameCallback.symm.trans called, ?_, fun _ => ⟨(List.nodup_cons.mp nodup).1, samePeriod⟩,
    fun op never => ?_⟩
  · exact kept u (List.mem_cons_of_mem timer behind)
  · rw [decide_eq_true_iff, samePeriod]
  · cases never

theorem Progress.cancel {struck : List T} {taken : T}
    (progress : Progress s tick (log ++ [(taken, struck)])) (nodup : s.queue.Nodup) :
    Progress { remove s timer with hardware := hardware } tick
      (log ++ [(taken, struck ++ [timer])]) := by
  refine { progress with worked := ?_, kept := fun u member late => ?_ }
  · have worked := progress.worked.strike timer
    rw [← filter_erase nodup] at worked
    exact worked
  · obtain ⟨differs, queued⟩ := nodup.mem_erase_iff.mp member
    obtain ⟨callback, period⟩ := progress.kept u queued late
    exact ⟨(update_of_ne differs ..).trans callback, (update_of_ne differs ..).trans period⟩

theorem Progress.insert {deadline : Time} {s' : Timers T K H} (progress : Progress s tick log)
    (fresh : timer ∉ s.queue) (future : (!timeLt (clock tick.now) deadline) = false)
    (scheduled : s'.scheduledTime = update s.scheduledTime timer deadline)
    (queue : s'.queue = insertTimerInQueue s'.scheduledTime timer s.queue)
    (callback : ∀ u ∈ s.queue, s'.callback u = s.callback u)
    (period : ∀ u ∈ s.queue, s'.periodicTime u = s.periodicTime u) : Progress s' tick log := by
  have same : s'.queue.filter (due s' (clock tick.now)) =
      s.queue.filter (due s (clock tick.now)) := by
    rw [queue, scheduled, ← filter_due_insert fresh future]
    unfold due
    rw [scheduled]
  refine { progress with worked := ?_, kept := fun u member late => ?_ }
  · rw [same]
    exact progress.worked
  · have left : u ∈ s'.queue.filter (due s' (clock tick.now)) := List.mem_filter.mpr ⟨member, late⟩
    rw [same] at left
    obtain ⟨queued, lateBefore⟩ := List.mem_filter.mp left
    obtain ⟨sameCallback, samePeriod⟩ := progress.kept u queued lateBefore
    exact ⟨(callback u queued).trans sameCallback, (period u queued).trans samePeriod⟩

theorem Own.call {start s' : Timers T K H} {op : Op T K} (own : Own s start round)
    (queue : ∀ u, u ≠ op.timer → (u ∈ s'.queue ↔ u ∈ s.queue))
    (period : ∀ u, u ≠ op.timer → s'.periodicTime u = s.periodicTime u)
    (self : op.timer ∈ s'.queue ∨ s'.periodicTime op.timer = 0) :
    Own s' start { round with calls := round.calls ++ [op] } := by
  refine ⟨own.callback, own.periodic, fun alone => ?_, fun other member same => ?_⟩
  · have differs : round.timer ≠ op.timer :=
      (alone op (List.mem_append_right _ (List.mem_singleton_self _))).symm
    obtain ⟨absent, samePeriod⟩ := own.untouched fun op member =>
      alone op (List.mem_append_left _ member)
    exact ⟨fun member => absent ((queue _ differs).mp member), (period _ differs).trans samePeriod⟩
  · by_cases mine : round.timer = op.timer
    · rwa [mine]
    · rw [queue _ mine, period _ mine]
      rcases List.mem_append.mp member with before | last
      · exact own.touched other before same
      · rw [List.mem_singleton.mp last] at same
        exact absurd same.symm mine

theorem Underway.perform {build : Option (Platform H)} {s' : Timers T K H} {op : Op T K}
    (underway : Underway s tick round) (nodup : s.queue.Nodup)
    (moment : Moment b s (clock tick.now) current)
    (fits : 2 * (ahead b current + op.delay.toNat) < 2 ^ 32)
    (performed : perform build s current op = some s') :
    Underway s' tick { round with calls := round.calls ++ [op] } := by
  obtain ⟨progress, own⟩ := underway
  have last : entry { round with calls := round.calls ++ [op] } =
      (round.timer, round.calls.filterMap cancels ++ [op].filterMap cancels) := by
    rw [entry, List.filterMap_append]
  rcases perform_cases performed with
    ⟨timer, hardware, rfl, rfl⟩ |
    ⟨timer, period, callback, hardware, sets, about, -, positive, fresh, rfl⟩
  · refine ⟨?_, own.call (fun u differs => ?_) (fun u differs => update_of_ne differs ..)
      (.inr (update_self ..))⟩
    rotate_left
    · exact nodup.mem_erase_iff.trans (and_iff_right differs)
    rw [last]
    exact progress.cancel nodup
  · subst about
    refine ⟨?_, own.call (fun u differs => mem_insertTimerInQueue.trans (or_iff_right differs))
      (fun u differs => update_of_ne differs ..)
      (.inl (mem_insertTimerInQueue.mpr (.inl rfl)))⟩
    have none : [op].filterMap cancels = [] := by
      cases op with
      | setOneshot | setPeriodic => rfl
      | cancel u => exact absurd rfl (sets u)
    rw [last, none, List.append_nil]
    exact progress.insert fresh (not_due_of_later moment fits positive) rfl rfl
      (fun u member => update_queued fresh member) fun u member => update_queued fresh member

theorem Underway.ret (underway : Underway s tick round)
    (moment : Moment b s (clock tick.now) current)
    (fits : requeues s round.timer round.periodic = true →
      2 * (ahead b (clock tick.now) + (s.periodicTime round.timer).toNat) < 2 ^ 32) :
    Progress (afterCallback s round.timer round.periodic (clock tick.now))
      { tick with rounds := tick.rounds ++
          [{ round with requeued := requeues s round.timer round.periodic }] }
      ((tick.rounds ++ [{ round with
        requeued := requeues s round.timer round.periodic }]).map entry) := by
  obtain ⟨progress, own⟩ := underway
  have correct : RoundCorrect tick.start
      { round with requeued := requeues s round.timer round.periodic } := by
    refine ⟨own.callback, ?_⟩
    rw [requeues_iff, own.periodic]
    constructor
    · rintro ⟨periodic, absent, lasting⟩
      refine ⟨periodic, fun op member self => ?_⟩
      rcases own.touched op member self with queued | none
      · exact absent queued
      · exact lasting none
    · rintro ⟨periodic, alone⟩
      obtain ⟨absent, same⟩ := own.untouched alone
      exact ⟨periodic, absent, fun none => periodic (same.symm.trans none)⟩
  rw [List.map_append]
  have after : Progress (afterCallback s round.timer round.periodic (clock tick.now)) tick
      (tick.rounds.map entry ++ [entry round]) := by
    unfold afterCallback
    split
    case isTrue again =>
      obtain ⟨-, fresh, lasting⟩ := requeues_iff.mp again
      have held : Moment b s (clock tick.now) (clock tick.now) :=
        ⟨moment.pending, moment.now_within, moment.now_within, le_rfl⟩
      exact progress.insert fresh (not_due_of_later held (fits again) lasting) rfl rfl
        (fun _ _ => rfl) fun _ _ => rfl
    case isFalse => exact progress
  exact { after with
    rounds := List.forall_mem_append.mpr ⟨after.rounds, List.forall_mem_singleton.mpr correct⟩ }

end Ticks

section Runs

variable {T K H : Type} [DecidableEq T]

structure Orderly (m : Machine T K H) : Prop where
  sorted : Sorted m.timers
  past : ∀ tick left, (tick, left) ∈ m.ticks → TickCorrect tick ∧
    ∀ timer rest, left.queue = timer :: rest →
      timeGt (left.scheduledTime timer) (clock tick.now) = true
  underway : During (Underway m.timers) m.phase
  asserted : m.phase ≠ .halted .assertion

variable {build : Option (Platform H)} {m m' : Machine T K H} {tick : Tick T K H} {b current : Time}

theorem Orderly.timerTick {before : Machine T K H} (orderly : Orderly before)
    (ticks : m.ticks = before.ticks) (listed : Listed m.timers) (sorted : Sorted m.timers)
    (progress : Progress m.timers tick (tick.rounds.map entry))
    (now_within : Within b (clock tick.now))
    (pending : ∀ timer ∈ m.timers.queue, Within b (m.timers.scheduledTime timer)) :
    Orderly (timerTick build m tick) := by
  have past := orderly.past
  rw [← ticks] at past
  rcases timerTick_cases build m tick with
    ⟨future, ended⟩ | ⟨timer, rest, queue, missing, -⟩ |
    ⟨timer, rest, callback, queue, late, called, taken⟩
  · have head (timer : T) (rest : List T) (queue : m.timers.queue = timer :: rest) :
        timeGt (m.timers.scheduledTime timer) (clock tick.now) = true := by
      have own := pending timer (by rw [queue]; exact List.mem_cons_self)
      rw [timeGt_iff own now_within]
      exact (timeLt_iff now_within own).mp (future timer rest queue)
    have correct := progress.correct (due_eq_nil now_within pending sorted future)
    rw [ended]
    rcases timerTickEnd_cases build m tick with
      ⟨timers, ⟨hardware, rfl⟩, left⟩ | ⟨timer, rest, queue, stale, -⟩
    · rw [left]
      refine ⟨sorted, fun other kept member => ?_, trivial, fun same => by cases same⟩
      rcases List.mem_append.mp member with earlier | last
      · exact past other kept earlier
      · obtain ⟨rfl, rfl⟩ := Prod.mk.inj (List.mem_singleton.mp last)
        exact ⟨correct, head⟩
    · rw [head timer rest queue] at stale
      cases stale
  · refine absurd missing (listed.called timer ?_)
    rw [queue]
    exact List.mem_cons_self
  · rw [taken]
    refine ⟨?_, past, progress.take listed.nodup queue late called, fun same => by cases same⟩
    unfold Sorted at sorted
    rw [queue] at sorted
    exact (List.pairwise_cons.mp sorted).2

theorem Orderly.call {op : Op T K} (orderly : Orderly m) (sound : Sound m)
    (moment : Moment b m.timers (clock (beganAt m.phase m.time)) (clock m.time))
    (fits : 2 * (ahead b (clock m.time) + op.delay.toNat) < 2 ^ 32) :
    Orderly (m.call build op) := by
  rcases call_cases build m op with halted | ⟨timers, performed, called⟩
  · rw [halted]
    exact ⟨orderly.sorted, orderly.past, trivial, fun same => by cases same⟩
  · rw [called]
    refine ⟨orderly.sorted.perform moment fits performed, orderly.past, .of_note ?_,
      note_halted orderly.asserted⟩
    refine orderly.underway.imp fun tick round phase underway => ?_
    rw [phase] at moment
    exact Underway.perform underway sound.listed.nodup moment fits performed

theorem Orderly.ret {round : Round T K} (orderly : Orderly m) (sound : Sound m)
    (running : m.phase = .callback tick round)
    (moment : Moment b m.timers (clock tick.now) current)
    (fits : requeues m.timers round.timer round.periodic = true →
      2 * (ahead b (clock tick.now) + (m.timers.periodicTime round.timer).toNat) < 2 ^ 32) :
    Orderly (m.ret build tick round) := by
  have underway := orderly.underway
  have backed := sound.backed
  rw [running] at underway backed
  have placed : Sorted (afterCallback m.timers round.timer round.periodic (clock tick.now)) ∧
      ∀ timer ∈ (afterCallback m.timers round.timer round.periodic (clock tick.now)).queue,
        Within b ((afterCallback m.timers round.timer round.periodic
          (clock tick.now)).scheduledTime timer) := by
    unfold afterCallback
    split
    case isTrue again =>
      have fresh := (requeues_iff.mp again).2.1
      refine ⟨orderly.sorted.insert moment.pending (within_add (fits again)) fresh,
        fun timer member => ?_⟩
      show Within b (update m.timers.scheduledTime round.timer _ timer)
      by_cases same : timer = round.timer
      · rw [same, update_self]
        exact within_add (fits again)
      · rw [update_of_ne same]
        exact moment.pending timer ((mem_insertTimerInQueue.mp member).resolve_left same)
    case isFalse => exact ⟨orderly.sorted, moment.pending⟩
  exact orderly.timerTick rfl (sound.listed.afterCallback backed) placed.1
    (Underway.ret underway moment fits) moment.now_within placed.2

theorem Orderly.step {e : Event T K} (orderly : Orderly m) (sound : Sound m)
    (windowed : Windowed m e) (taken : step build m e = some m') : Orderly m' := by
  obtain ⟨b, moment, fits⟩ := windowed
  have later : Sound (m.elapse build e.elapsed) := sound.elapse e.elapsed
  have same : Orderly (m.elapse build e.elapsed) := by
    refine { orderly with underway := ?_ }
    refine orderly.underway.imp fun tick round _ underway => ?_
    exact ⟨{ underway.1 with }, { underway.2 with }⟩
  unfold Fits at fits
  rcases step_cases taken with
    ⟨op, action, -, rfl⟩ | ⟨action, idle, rfl⟩ | ⟨tick, round, action, running, rfl⟩
  · rw [action] at fits
    exact same.call later { moment with } fits
  · refine same.timerTick rfl ⟨later.listed.nodup, later.listed.called⟩ orderly.sorted
      ⟨orderly.sorted, later.listed.nodup, .start, fun timer _ _ => ⟨rfl, rfl⟩,
        fun round never => ?_⟩ moment.current_within moment.pending
    cases never
  · rw [action, running] at fits
    rw [running] at moment
    exact same.ret later running { moment with } fits

theorem Initial.orderly (initial : Initial m) : Orderly m := by
  obtain ⟨time, timers, phase, ticks⟩ := m
  obtain ⟨empty, rfl, rfl⟩ := initial
  refine ⟨?_, fun _ _ never => (by cases never), trivial, fun same => by cases same⟩
  unfold Sorted
  rw [empty]
  exact List.Pairwise.nil

/-- As long as everything stays in a window of half the range around the current time, the queue is
sorted and every tick does what it should, whatever the callbacks do. -/
theorem timer_queue_correct {start : Machine T K H} (initial : Initial start)
    (reach : Reach (TimerQueue.step build) Windowed start m) : QueueCorrect m := by
  have both : Sound m ∧ Orderly m := by
    refine reach.invariant (fun m => Sound m ∧ Orderly m)
      ⟨initial.sound, Initial.orderly initial⟩ ?_
    intro m e m' kept windowed taken
    exact ⟨kept.1.step taken, kept.2.step kept.1 windowed taken⟩
  obtain ⟨sound, orderly⟩ := both
  refine ⟨orderly.sorted, orderly.past, fun tick round running => ?_, orderly.asserted,
    sound.present⟩
  have underway := orderly.underway
  rw [running] at underway
  have sub := underway.1.worked.sublist.length_le
  simp only [List.length_append, List.length_map, List.length_singleton] at sub
  omega

end Runs

section Examples

def quiet : Machine Bool Unit Unit :=
  ⟨0, ⟨[], fun _ => 0, fun _ => 0, fun _ => none, ()⟩, .idle, []⟩

theorem timer_queue_correct_cancelled :
    ∃ m, Reach (TimerQueue.step none) Windowed quiet m ∧
      m.ticks.map (fun past => (dueTimers past.1, fired past.1)) = [([false, true], [false])] ∧
      m.timers.queue = [false] ∧ QueueCorrect m := by
  have periodic : Reach (TimerQueue.step none) Windowed quiet _ :=
    .next (l := ⟨0, .call (.setPeriodic false 5 ())⟩) .start
      ⟨0, ⟨by decide, by decide, by decide, by decide⟩, by show _ < _; decide⟩ rfl
  have oneshot := Reach.next (l := ⟨0, .call (.setOneshot true 7 ())⟩) periodic
      ⟨0, ⟨by decide, by decide, by decide, by decide⟩, by show _ < _; decide⟩ rfl
  have ticked := Reach.next (l := ⟨8, .tick⟩) oneshot
      ⟨0, ⟨by decide, by decide, by decide, by decide⟩, by trivial⟩ rfl
  have cancelled := Reach.next (l := ⟨0, .call (.cancel true)⟩) ticked
      ⟨0, ⟨by decide, by decide, by decide, by decide⟩, by show _ < _; decide⟩ rfl
  have returned := Reach.next (l := ⟨0, .ret⟩) cancelled
      ⟨0, ⟨by decide, by decide, by decide, by decide⟩, by show _ → _; decide⟩ rfl
  exact ⟨_, returned, rfl, rfl, timer_queue_correct ⟨rfl, rfl, rfl⟩ returned⟩

end Examples

end AndroidBoot.LittleKernel.TimerOrder
