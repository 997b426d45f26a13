/- source: bootable/lk/kernel/thread.c
   digest: Where every thread is: run queues, wait queues, bitmap and sleep timers agree. -/

import AndroidBoot.LittleKernel.Thread
import Mathlib.Tactic

/-!
`Placed s limbo running` is the scheduler invariant. The threads in `limbo` have
been declared ready and not been put on a run queue yet; the set is empty outside
the queue operations. `running` is the thread in state `running`, if any: none
between the moment the current thread gives up the processor and the moment
`thread_resched` picks the next one.
-/

set_option autoImplicit false

namespace AndroidBoot.LittleKernel.SchedulerInvariant

open State Timer Thread

variable {s : Sched} {limbo : Tid → Prop} {running : Option Tid} {t : Tid}

structure Placed (s : Sched) (limbo : Tid → Prop) (running : Option Tid) : Prop where
  running_iff : ∀ t, s.state t = .running ↔ running = some t
  mem_runQueue : ∀ t p, t ∈ s.runQueue p ↔ s.state t = .ready ∧ s.priority t = p ∧ ¬ limbo t
  runQueue_nodup : ∀ p, (s.runQueue p).Nodup
  bitmap : ∀ p : Priority, s.runQueueBitmap.getLsbD p = true ↔ s.runQueue p ≠ []
  mem_waitList : ∀ t w,
    t ∈ s.waitList w ↔ s.state t = .blocked ∧ s.blockingWaitQueue t = some w
  blocked_on : ∀ t, s.state t = .blocked → ∃ w, s.blockingWaitQueue t = some w
  waitList_nodup : ∀ w, (s.waitList w).Nodup
  waitCount_eq : ∀ w, s.waitCount w = (s.waitList w).length
  sleep_timer : ∀ t, .sleep t ∈ s.timerQueue → s.state t = .sleeping
  sleep_once : ∀ t, s.timerQueue.count (.sleep t) ≤ 1
  fresh : ∀ t, s.nextThread ≤ t → s.state t = .suspended
  listed : ∀ t ∈ s.threadList, t < s.nextThread

def settled : Tid → Prop := fun _ => False

theorem getLsbD_priority_bit (p q : Priority) : (1#32 <<< p.val).getLsbD q.val = true ↔ q = p := by
  rw [← BitVec.twoPow_eq, BitVec.getLsbD_twoPow]
  have bound : p.val < 32 := p.isLt
  simp only [bound, decide_true, Bool.true_and, decide_eq_true_eq]
  constructor
  · intro equal
    exact Fin.ext equal.symm
  · intro equal
    rw [equal]

theorem ne_of_state {u : Tid} {there here : ThreadState} (first : s.state u = there)
    (second : s.state t = here) (differ : there ≠ here) : u ≠ t := by
  intro same
  subst same
  exact differ (first.symm.trans second)

theorem setState_state_iff {st kind : ThreadState} (was : s.state t ≠ kind) (now : st ≠ kind)
    (u : Tid) : (setState s t st).state u = kind ↔ s.state u = kind := by
  obtain rfl | same := eq_or_ne u t
  · simp [setState, was, now]
  · simp [setState, same]

attribute [local simp] setState unqueueWaiter dequeue enqueueWaiter

section Lists

variable (placed : Placed s limbo running)
include placed

theorem Placed.limbo_congr {limbo' : Tid → Prop}
    (same : ∀ t, limbo t ↔ limbo' t) : Placed s limbo' running := by
  have equal : limbo = limbo' := funext fun t => propext (same t)
  exact equal ▸ placed

/-- Device and wait timers do not place threads. -/
theorem Placed.set_timers {queue : List TimerId} {scheduled periodic : TimerId → Time}
    (timers : ∀ t, queue.count (.sleep t) ≤ s.timerQueue.count (.sleep t)) :
    Placed { s with timerQueue := queue, scheduledTime := scheduled, periodicTime := periodic }
      limbo running where
  __ := placed
  sleep_timer := by
    intro t member
    have positive := List.count_pos_iff.mpr member
    exact placed.sleep_timer t (List.count_pos_iff.mp (positive.trans_le (timers t)))
  sleep_once := fun t => (timers t).trans (placed.sleep_once t)

theorem Placed.declare_ready {running' : Option Tid}
    (notReady : s.state t ≠ .ready) (notBlocked : s.state t ≠ .blocked)
    (noTimer : .sleep t ∉ s.timerQueue) (old : t < s.nextThread)
    (running_iff : ∀ u, running' = some u ↔ running = some u ∧ u ≠ t) :
    Placed (setState s t .ready) (fun u => u = t ∨ limbo u) running' where
  __ := placed
  running_iff := by
    intro u
    rw [running_iff, ← placed.running_iff]
    obtain rfl | same := eq_or_ne u t
    · simp
    · simp [same]
  mem_runQueue := by
    intro u p
    have before := placed.mem_runQueue u p
    obtain rfl | same := eq_or_ne u t
    · simpa [notReady] using before
    · simpa [same] using before
  mem_waitList := by
    intro u w
    rw [setState_state_iff notBlocked (by decide)]
    exact placed.mem_waitList u w
  blocked_on := by
    intro u blocked
    exact placed.blocked_on u ((setState_state_iff notBlocked (by decide) u).mp blocked)
  sleep_timer := by
    intro u member
    have different : u ≠ t := by
      intro same
      subst same
      exact noTimer member
    simpa [different] using placed.sleep_timer u member
  fresh := by
    intro u young
    have different : u ≠ t := by
      intro same
      subst same
      exact absurd old (Nat.not_lt.mpr young)
    simpa [different] using placed.fresh u young

theorem Placed.insert {queue : List Tid} (ready : s.state t = .ready) (waiting : limbo t)
    (perm : queue.Perm (t :: s.runQueue (s.priority t))) :
    Placed
      { s with
        runQueue := Function.update s.runQueue (s.priority t) queue
        runQueueBitmap := s.runQueueBitmap ||| (1#32 <<< (s.priority t).val) }
      (fun u => limbo u ∧ u ≠ t) running where
  __ := placed
  mem_runQueue := by
    intro u p
    have before := placed.mem_runQueue u p
    by_cases home : p = s.priority t
    · subst home
      simp only [Function.update_self, perm.mem_iff, List.mem_cons, before]
      obtain rfl | same := eq_or_ne u t
      · simp [ready]
      · simp [same]
    · simp only [Function.update_of_ne home, before]
      obtain rfl | same := eq_or_ne u t
      · simp [Ne.symm home]
      · simp [same]
  runQueue_nodup := by
    intro p
    by_cases home : p = s.priority t
    · subst home
      simp only [Function.update_self]
      rw [perm.nodup_iff]
      refine List.nodup_cons.mpr ⟨?_, placed.runQueue_nodup _⟩
      intro member
      exact ((placed.mem_runQueue t _).mp member).2.2 waiting
    · simpa only [Function.update_of_ne home] using placed.runQueue_nodup p
  bitmap := by
    intro p
    have before := placed.bitmap p
    rw [BitVec.getLsbD_or, Bool.or_eq_true, getLsbD_priority_bit, before]
    by_cases home : p = s.priority t
    · subst home
      simp only [Function.update_self, or_true, true_iff]
      intro empty
      have member := perm.mem_iff.mpr (List.mem_cons_self (a := t))
      rw [empty] at member
      simp at member
    · simp [home]

theorem Placed.insert_head (ready : s.state t = .ready) (waiting : limbo t) :
    Placed (insertInRunQueueHead s t) (fun u => limbo u ∧ u ≠ t) running :=
  placed.insert ready waiting (List.Perm.refl _)

theorem Placed.insert_tail (ready : s.state t = .ready) (waiting : limbo t) :
    Placed (insertInRunQueueTail s t) (fun u => limbo u ∧ u ≠ t) running :=
  placed.insert ready waiting (List.perm_append_singleton _ _)

theorem Placed.unqueue_waiter {w : WaitQueueId} (waits : t ∈ s.waitList w) :
    Placed (unqueueWaiter s w t) (fun u => u = t ∨ limbo u) running := by
  obtain ⟨blocked, on⟩ := (placed.mem_waitList t w).mp waits
  have notRunning : running ≠ some t := by
    intro runs
    have running := (placed.running_iff t).mpr runs
    rw [running] at blocked
    simp at blocked
  refine ⟨?_, ?_, placed.runQueue_nodup, placed.bitmap, ?_, ?_, ?_, ?_, ?_, placed.sleep_once, ?_,
    placed.listed⟩
  · intro u
    have before := placed.running_iff u
    obtain rfl | same := eq_or_ne u t
    · simp [notRunning]
    · simpa [same] using before
  · intro u p
    have before := placed.mem_runQueue u p
    obtain rfl | same := eq_or_ne u t
    · simpa [blocked] using before
    · simpa [same] using before
  · intro u v
    have before := placed.mem_waitList u v
    obtain rfl | same := eq_or_ne u t
    · by_cases here : v = w
      · subst here
        simp [(placed.waitList_nodup v).mem_erase_iff]
      · simpa [here, blocked, on, Ne.symm here] using before
    · obtain rfl | here := eq_or_ne v w
      · simpa [same, List.mem_erase_of_ne same] using before
      · simpa [same, here] using before
  · intro u stays
    obtain rfl | same := eq_or_ne u t
    · simp at stays
    · obtain ⟨v, on⟩ := placed.blocked_on u (by simpa [same] using stays)
      exact ⟨v, by simpa [same] using on⟩
  · intro v
    obtain rfl | here := eq_or_ne v w
    · simpa using (placed.waitList_nodup v).erase t
    · simpa [here] using placed.waitList_nodup v
  · intro v
    have before := placed.waitCount_eq v
    obtain rfl | here := eq_or_ne v w
    · have positive := List.length_pos_of_mem waits
      simp only [unqueueWaiter, Function.update_self, before, List.length_erase_of_mem waits]
      omega
    · simpa [here] using before
  · intro u member
    have sleeping := placed.sleep_timer u member
    have different := ne_of_state sleeping blocked (by decide)
    simpa [different] using sleeping
  · intro u young
    have suspended := placed.fresh u young
    have different := ne_of_state suspended blocked (by decide)
    simpa [different] using suspended

end Lists

theorem Placed.pick {q : Priority} {rest : List Tid} (placed : Placed s settled none)
    (queue : s.runQueue q = t :: rest) :
    Placed (setState (dequeue s q rest) t .running) settled (some t) := by
  have member : t ∈ s.runQueue q := by simp [queue]
  obtain ⟨ready, home, -⟩ := (placed.mem_runQueue t q).mp member
  have nodup := placed.runQueue_nodup q
  rw [queue] at nodup
  obtain ⟨notRest, restNodup⟩ := List.nodup_cons.mp nodup
  refine ⟨?_, ?_, ?_, ?_, ?_, ?_, placed.waitList_nodup, placed.waitCount_eq, ?_,
    placed.sleep_once, ?_, placed.listed⟩
  · intro u
    have before := placed.running_iff u
    obtain rfl | same := eq_or_ne u t
    · simp
    · simpa [same, Ne.symm same] using before
  · intro u p
    have before := placed.mem_runQueue u p
    obtain rfl | here := eq_or_ne p q
    · by_cases same : u = t
      · subst same
        simp [notRest]
      · rw [queue] at before
        simpa [same] using before
    · obtain rfl | same := eq_or_ne u t
      · simp only [home, Ne.symm here, false_and, and_false, iff_false] at before
        simp [here, before]
      · simpa [here, same] using before
  · intro p
    obtain rfl | here := eq_or_ne p q
    · simpa using restNodup
    · simpa [here] using placed.runQueue_nodup p
  · intro p
    have before := placed.bitmap p
    have bit := getLsbD_priority_bit q p
    simp only [setState, dequeue]
    by_cases empty : rest = []
    · have bound : p.val < 32 := p.isLt
      simp only [empty, List.isEmpty_nil, if_true, BitVec.getLsbD_and, BitVec.getLsbD_not,
        Bool.and_eq_true, before, bound, decide_true, Bool.true_and, Bool.not_eq_true',
        ← Bool.not_eq_true, bit]
      obtain rfl | here := eq_or_ne p q
      · simp
      · simp [here]
    · have full : rest.isEmpty = false := by simpa using empty
      simp only [full, Bool.false_eq_true, if_false, before]
      obtain rfl | here := eq_or_ne p q
      · simp [queue, empty]
      · simp [here]
  · intro u w
    rw [setState_state_iff (by simp [ready]) (by decide)]
    exact placed.mem_waitList u w
  · intro u blocked
    rw [setState_state_iff (by simp [ready]) (by decide)] at blocked
    exact placed.blocked_on u blocked
  · intro u member
    have sleeping := placed.sleep_timer u member
    have different := ne_of_state sleeping ready (by decide)
    simpa [different] using sleeping
  · intro u young
    have suspended := placed.fresh u young
    have different := ne_of_state suspended ready (by decide)
    simpa [different] using suspended

theorem limbo_of_single (out : ¬ limbo t) (placed : Placed s (fun u => (u = t ∨ limbo u) ∧ u ≠ t)
    running) : Placed s limbo running := by
  refine placed.limbo_congr fun u => ?_
  obtain rfl | same := eq_or_ne u t
  · simp [out]
  · simp [same]

section Current

variable (placed : Placed s limbo (some t))
include placed

theorem Placed.state_running : s.state t = .running :=
  (placed.running_iff t).mpr rfl

theorem Placed.running_lt : t < s.nextThread := by
  by_contra young
  have suspended := placed.fresh t (Nat.not_lt.mp young)
  rw [placed.state_running] at suspended
  simp at suspended

theorem Placed.ne_of_fresh {u : Tid} (young : s.nextThread ≤ u) : u ≠ t := by
  intro same
  subst same
  exact absurd placed.running_lt (Nat.not_lt.mpr young)

/-- A running thread leaves the processor, and not for a run queue. -/
theorem Placed.off_processor {st : ThreadState}
    (notRunning : st ≠ .running) (notReady : st ≠ .ready) :
    (∀ u, (setState s t st).state u = .running ↔ none = some u) ∧
    (∀ u p, u ∈ s.runQueue p ↔ (setState s t st).state u = .ready ∧ s.priority u = p ∧ ¬ limbo u) ∧
    (∀ u, .sleep u ∈ s.timerQueue → (setState s t st).state u = .sleeping) ∧
    ∀ u, s.nextThread ≤ u → (setState s t st).state u = .suspended := by
  have running := placed.state_running
  refine ⟨fun u => ?_, fun u p => ?_, fun u member => ?_, fun u young => ?_⟩
  · have before := placed.running_iff u
    obtain rfl | same := eq_or_ne u t
    · simp [notRunning]
    · simpa [same, Ne.symm same] using before
  · rw [setState_state_iff (by simp [running]) notReady]
    exact placed.mem_runQueue u p
  · have sleeping := placed.sleep_timer u member
    have different := ne_of_state sleeping running (by decide)
    simpa [different] using sleeping
  · have different := placed.ne_of_fresh young
    simpa [different] using placed.fresh u young

theorem Placed.enqueue_waiter (w : WaitQueueId) : Placed (enqueueWaiter s w t) limbo none where
  __ := placed
  running_iff := (placed.off_processor (by decide) (by decide)).1
  mem_runQueue := (placed.off_processor (by decide) (by decide)).2.1
  mem_waitList := by
    intro u v
    have before := placed.mem_waitList u v
    have running := placed.state_running
    obtain rfl | same := eq_or_ne u t
    · by_cases here : v = w
      · subst here
        simp
      · simpa [here, Ne.symm here, running] using before
    · obtain rfl | here := eq_or_ne v w
      · simpa [same] using before
      · simpa [same, here] using before
  blocked_on := by
    intro u blocked
    obtain rfl | same := eq_or_ne u t
    · exact ⟨w, by simp⟩
    · obtain ⟨v, on⟩ := placed.blocked_on u (by simpa [same] using blocked)
      exact ⟨v, by simpa [same] using on⟩
  waitList_nodup := by
    intro v
    obtain rfl | here := eq_or_ne v w
    · simp only [enqueueWaiter, Function.update_self]
      refine List.nodup_append.mpr ⟨placed.waitList_nodup v, by simp, ?_⟩
      intro a member b single equal
      obtain rfl := List.mem_singleton.mp single
      subst equal
      have running := placed.state_running
      have blocked := ((placed.mem_waitList a v).mp member).1
      rw [running] at blocked
      simp at blocked
    · simpa [here] using placed.waitList_nodup v
  waitCount_eq := by
    intro v
    have before := placed.waitCount_eq v
    obtain rfl | here := eq_or_ne v w
    · simp [before]
    · simpa [here] using before
  sleep_timer := (placed.off_processor (by decide) (by decide)).2.2.1
  fresh := (placed.off_processor (by decide) (by decide)).2.2.2

theorem Placed.give_up : Placed (setState s t .ready) (fun u => u = t ∨ limbo u) none := by
  have running := placed.state_running
  refine placed.declare_ready (by simp [running]) (by simp [running]) ?_ placed.running_lt ?_
  · intro member
    have sleeping := placed.sleep_timer t member
    rw [running] at sleeping
    simp at sleeping
  · intro u
    simp only [reduceCtorEq, Option.some.injEq, false_iff, not_and, not_not]
    exact fun same => same.symm

theorem Placed.requeue_head (out : ¬ limbo t) :
    Placed (insertInRunQueueHead (setState s t .ready) t) limbo none :=
  limbo_of_single out (placed.give_up.insert_head (by simp) (Or.inl rfl))

theorem Placed.requeue_tail (out : ¬ limbo t) :
    Placed (insertInRunQueueTail (setState s t .ready) t) limbo none :=
  limbo_of_single out (placed.give_up.insert_tail (by simp) (Or.inl rfl))

end Current

theorem Placed.leave (st : ThreadState) (placed : Placed s limbo (some t))
    (notRunning : st ≠ .running) (notReady : st ≠ .ready) (notBlocked : st ≠ .blocked) :
    Placed (setState s t st) limbo none := by
  obtain ⟨running_iff, mem_runQueue, sleep_timer, fresh⟩ := placed.off_processor notRunning notReady
  have blocked_iff := setState_state_iff (by simp [placed.state_running] : s.state t ≠ .blocked)
    notBlocked
  refine { placed with
    running_iff, mem_runQueue, sleep_timer, fresh
    mem_waitList := fun u w => ?_
    blocked_on := fun u blocked => placed.blocked_on u ((blocked_iff u).mp blocked) }
  rw [blocked_iff]
  exact placed.mem_waitList u w

theorem Placed.wake {w : WaitQueueId} (placed : Placed s settled running)
    (waits : t ∈ s.waitList w) :
    Placed (insertInRunQueueHead (unqueueWaiter s w t) t) settled running := by
  have unqueued := placed.unqueue_waiter waits
  exact limbo_of_single id (unqueued.insert_head (by simp) (Or.inl rfl))

theorem Placed.start (placed : Placed s settled running) (notReady : s.state t ≠ .ready)
    (notBlocked : s.state t ≠ .blocked) (notRunning : running ≠ some t)
    (noTimer : .sleep t ∉ s.timerQueue) (old : t < s.nextThread) :
    Placed (insertInRunQueueHead (setState s t .ready) t) settled running := by
  have same : ∀ u, running = some u ↔ running = some u ∧ u ≠ t := by
    intro u
    constructor
    · intro runs
      refine ⟨runs, ?_⟩
      rintro rfl
      exact notRunning runs
    · exact fun both => both.1
  have declared := placed.declare_ready notReady notBlocked noTimer old same
  exact limbo_of_single id (declared.insert_head (by simp) (Or.inl rfl))

theorem Placed.add_sleep_timer (placed : Placed s limbo running)
    (sleeping : s.state t = .sleeping) (noTimer : .sleep t ∉ s.timerQueue)
    (scheduled periodic : TimerId → Time) :
    Placed
      { s with
        timerQueue := insertTimerInQueue scheduled (.sleep t) s.timerQueue
        scheduledTime := scheduled
        periodicTime := periodic } limbo running := by
  refine { placed with sleep_timer := ?_, sleep_once := ?_ }
  · intro u member
    rcases mem_insertTimerInQueue.mp member with same | member
    · obtain rfl := TimerId.sleep.inj same
      exact sleeping
    · exact placed.sleep_timer u member
  · intro u
    have bound := placed.sleep_once u
    rw [insertTimerInQueue_count, List.count_cons]
    obtain rfl | same := eq_or_ne u t
    · have none := List.count_eq_zero_of_not_mem noTimer
      simp [none]
    · simpa [Ne.symm same] using bound

theorem Placed.create (placed : Placed s settled running) (priority : Priority) :
    Placed
      { s with
        nextThread := s.nextThread + 1
        priority := Function.update s.priority s.nextThread priority
        state := Function.update s.state s.nextThread .suspended
        blockingWaitQueue := Function.update s.blockingWaitQueue s.nextThread none
        threadList := s.nextThread :: s.threadList } settled running := by
  have suspended := placed.fresh s.nextThread le_rfl
  have state : Function.update s.state s.nextThread .suspended = s.state := by
    rw [← suspended, Function.update_eq_self]
  refine ⟨?_, ?_, placed.runQueue_nodup, placed.bitmap, ?_, ?_, placed.waitList_nodup,
    placed.waitCount_eq, ?_, placed.sleep_once, ?_, ?_⟩
  · simpa only [state] using placed.running_iff
  · intro u p
    have before := placed.mem_runQueue u p
    obtain rfl | same := eq_or_ne u s.nextThread
    · simpa [suspended] using before
    · simpa [same] using before
  · intro u w
    have before := placed.mem_waitList u w
    obtain rfl | same := eq_or_ne u s.nextThread
    · simpa [suspended] using before
    · simpa [same] using before
  · intro u blocked
    simp only [state] at blocked
    obtain ⟨w, on⟩ := placed.blocked_on u blocked
    have different := ne_of_state blocked suspended (by decide)
    exact ⟨w, by simpa [different] using on⟩
  · simpa only [state] using placed.sleep_timer
  · intro u young
    simp only [state]
    exact placed.fresh u ((Nat.le_succ _).trans young)
  · intro u member
    rcases List.mem_cons.mp member with same | member
    · simp [same]
    · exact (placed.listed u member).trans (Nat.lt_succ_self _)

theorem Placed.set_priority (placed : Placed s settled (some t)) (priority : Priority) :
    Placed { s with priority := Function.update s.priority t priority } settled (some t) := by
  refine { placed with mem_runQueue := fun u p => ?_ }
  have before := placed.mem_runQueue u p
  obtain rfl | same := eq_or_ne u t
  · have running := placed.state_running
    simpa [running] using before
  · simpa [same] using before

theorem nextQueue_highest {bitmap : BitVec 32} (nonempty : bitmap ≠ 0) :
    bitmap.getLsbD (nextQueue bitmap).val = true ∧
      ∀ p : Priority, nextQueue bitmap < p → bitmap.getLsbD p.val = false := by
  have top := BitVec.getLsbD_true_clz_of_ne_zero (by decide : 0 < 32) nonempty
  have value : (nextQueue bitmap).val = 31 - bitmap.clz.toNat := by
    simp only [nextQueue, Fin.ofNat]
    omega
  refine ⟨by rw [value]; exact top, ?_⟩
  intro p higher
  have above : 31 - bitmap.clz.toNat < p.val := by
    rw [← value]
    exact higher
  have small : bitmap.toNat < 2 ^ p.val :=
    lt_of_lt_of_le BitVec.toNat_lt_two_pow_sub_clz (Nat.pow_le_pow_right (by decide) (by omega))
  exact Nat.testBit_lt_two_pow small

end AndroidBoot.LittleKernel.SchedulerInvariant
