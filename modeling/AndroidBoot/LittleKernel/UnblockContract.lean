/- source: bootable/lk/kernel/thread.c
   digest: What thread_unblock_from_wait_queue does to the thread that calls it. -/

import AndroidBoot.LittleKernel.Scheduler

set_option autoImplicit false

namespace AndroidBoot.LittleKernel.UnblockContract

open State Thread Machine SchedulerInvariant KernelView Refinement Simulation Scheduler
open AndroidBoot.Foundation.Run

variable {m : Machine} {t : Tid} {reschedule : Bool} {code : Status}

def Runnable (st : ThreadState) : Prop := st = .ready ∨ st = .running

/-- The thread runs, or `thread_resched` can find it. -/
def Findable (k : Kernel) (t : Tid) : Prop :=
  k.state t = .running ∧ k.currentThread = t ∨
    k.state t = .ready ∧ t ∈ k.runQueue (k.priority t)

/-- The machine when `thread_unblock_from_wait_queue` has returned, or has switched to another
thread. -/
def afterUnblock (m : Machine) (t : Tid) (reschedule : Bool) (code : Status) : Option Machine :=
  match step m (.call (.threadUnblockFromWaitQueue t reschedule code)) with
  | some ⟨k, .resched⟩ => step ⟨k, .resched⟩ .kernel
  | next => next

def LosesNobody (m : Machine) (t : Tid) (reschedule : Bool) (code : Status) : Prop :=
  ∃ m', afterUnblock m t reschedule code = some m' ∧
    (∀ u, Runnable (m.kernel.state u) → Findable m'.kernel u) ∧ Runnable (m'.kernel.state t)

theorem findable_of_placed {k : Kernel} {u : Tid}
    (placed : Placed k.toSched settled (some k.currentThread)) (runnable : Runnable (k.state u)) :
    Findable k u := by
  rcases runnable with ready | running
  · exact Or.inr ⟨ready, (placed.mem_runQueue u _).mpr ⟨ready, rfl, id⟩⟩
  · exact Or.inl ⟨running, Option.some.inj ((placed.running_iff u).mp running)⟩

def woken (k : Kernel) (w : WaitQueueId) (t : Tid) (code : Status) : Kernel :=
  onSched (releaseWaiter (enterCriticalSection (push k (.call k.criticalSectionCount))) w t
    .unblock code) fun s => insertInRunQueueHead s t

theorem woken_state (k : Kernel) (w : WaitQueueId) (t : Tid) (code : Status) :
    (woken k w t code).state = Function.update k.state t .ready := rfl

variable {w : WaitQueueId}

theorem step_unblock (user : m.control = .user)
    (listed : t ∈ m.kernel.threadList) (blocked : m.kernel.state t = .blocked)
    (on : m.kernel.blockingWaitQueue t = some w) :
    step m (.call (.threadUnblockFromWaitQueue t reschedule code)) =
      settle (if reschedule then .switch (woken m.kernel w t code) [.threadUnblockFromWaitQueue]
        else .done (exitCriticalSection (woken m.kernel w t code)) noError) := by
  obtain ⟨k, control⟩ := m
  obtain rfl : control = .user := user
  have possible : callable k (.threadUnblockFromWaitQueue t reschedule code) = true :=
    decide_eq_true listed
  dsimp only [step]
  rw [if_pos possible, callBody]
  have blocked' : ¬ ((enterCriticalSection (push k (.call k.criticalSectionCount))).state t ≠
      .blocked) := fun other => other blocked
  have on' : (enterCriticalSection (push k (.call k.criticalSectionCount))).blockingWaitQueue t =
      some w := on
  unfold threadUnblockFromWaitQueue
  rw [if_neg blocked', on']
  rfl

theorem threadResched_strays {k : Kernel} {c : Tid} (placed : Placed k.toSched settled (some c))
    (ready : k.state t = .ready) :
    ∃ k', threadResched k = .done k' 0 ∧ k'.state c = .running ∧ k'.currentThread ≠ c ∧
      (∀ p, c ∉ k'.runQueue p) ∧ ∀ w, c ∉ k'.waitList w := by
  obtain ⟨u, rest, queue, -, body⟩ := threadResched_picks placed ready
  have running : k.state c = .running := placed.state_running
  have unqueued : ∀ p, c ∉ k.runQueue p := by
    intro p member
    have ready := ((placed.mem_runQueue c p).mp member).1
    rw [running] at ready
    cases ready
  have other : c ≠ u := by
    rintro rfl
    have first : c ∈ k.runQueue (nextQueue k.runQueueBitmap) := by simp [queue]
    exact unqueued _ first
  obtain ⟨current, state, queues⟩ := contextSwitch_fields (onSched k fun s =>
    setState (dequeue s (nextQueue s.runQueueBitmap) rest) u .running) u
  refine ⟨_, body, ?_, ?_, ?_, ?_⟩
  · rw [state]
    exact (Function.update_of_ne other ..).trans running
  · rw [current]
    exact Ne.symm other
  · intro p member
    rw [queues] at member
    by_cases here : p = nextQueue k.runQueueBitmap
    · subst here
      have kept : c ∈ rest := by simpa [onSched, setState, dequeue] using member
      exact unqueued _ (queue ▸ List.mem_cons_of_mem _ kept)
    · exact unqueued p (by simpa [onSched, setState, dequeue, here] using member)
  · intro w member
    have waits : c ∈ k.waitList w := by
      unfold contextSwitch at member
      split at member <;> exact member
    have blocked := ((placed.mem_waitList c w).mp waits).1
    rw [running] at blocked
    cases blocked

section Contract

variable (user : m.control = .user) (listed : t ∈ m.kernel.threadList) (waits : t ∈ m.kernel.waitList w) (placed : Placed m.kernel.toSched settled (some m.kernel.currentThread))
include user listed waits placed

theorem unblock_losesNobody : LosesNobody m t false code := by
  obtain ⟨blocked, on⟩ := (placed.mem_waitList t w).mp waits
  have next : afterUnblock m t false code =
      some ⟨exitCriticalSection (woken m.kernel w t code), .ret noError⟩ := by
    rw [afterUnblock, step_unblock user listed blocked on]
    rfl
  have placed' : Placed (woken m.kernel w t code).toSched settled (some m.kernel.currentThread) :=
    placed.wake waits
  refine ⟨_, next, ?_, Or.inl (Function.update_self ..)⟩
  intro u runnable
  have other : u ≠ t := by
    rintro rfl
    rw [blocked] at runnable
    rcases runnable with never | never <;> cases never
  have same : (woken m.kernel w t code).state u = m.kernel.state u := by
    rw [woken_state, Function.update_of_ne other]
  exact findable_of_placed placed' (same ▸ runnable)

theorem unblock_loses_caller : ∃ m', afterUnblock m t true code = some m' ∧
      m'.kernel.state m.kernel.currentThread = .running ∧
      m'.kernel.currentThread ≠ m.kernel.currentThread ∧
      (∀ p, m.kernel.currentThread ∉ m'.kernel.runQueue p) ∧
      ∀ w, m.kernel.currentThread ∉ m'.kernel.waitList w := by
  obtain ⟨blocked, on⟩ := (placed.mem_waitList t w).mp waits
  have placed' : Placed (pushAll (woken m.kernel w t code) [.threadUnblockFromWaitQueue]).toSched
      settled (some m.kernel.currentThread) := placed.wake waits
  have ready : (pushAll (woken m.kernel w t code) [.threadUnblockFromWaitQueue]).state t = .ready :=
    Function.update_self ..
  obtain ⟨k', body, lost⟩ := threadResched_strays placed' ready
  refine ⟨⟨k', .ret 0⟩, ?_, lost⟩
  have entered : afterUnblock m t true code =
      settle (threadResched (pushAll (woken m.kernel w t code) [.threadUnblockFromWaitQueue])) := by
    rw [afterUnblock, step_unblock user listed blocked on]
    rfl
  rw [entered, body]
  rfl

theorem not_losesNobody_true : ¬ LosesNobody m t true code := by
  rintro ⟨m', next, found, -⟩
  have lost := @unblock_loses_caller m t code w user listed waits placed
  obtain ⟨m'', next', running, other, -, -⟩ := lost
  rw [next] at next'
  cases next'
  rcases found _ (Or.inr placed.state_running) with ⟨-, current⟩ | ⟨ready, -⟩
  · exact other current
  · rw [running] at ready
    cases ready

end Contract

section Runs

variable {initial : Nat → Bool} {flags : Nat → BitVec 32}

theorem blocked_placed
    (reach : Reach step (fun s l => proper s l = true) (threadInitEarly initial flags) m)
    (user : m.control = .user) (blocked : m.kernel.state t = .blocked) :
    Placed m.kernel.toSched settled (some m.kernel.currentThread) ∧
      ∃ w, t ∈ m.kernel.waitList w := by
  have consistent := reach_consistent (fun _ _ => id) reach
  obtain ⟨k, control⟩ := m
  obtain rfl : control = .user := user
  have placed := (Live.sound consistent).placed
  obtain ⟨w, on⟩ := placed.blocked_on t blocked
  exact ⟨placed, w, (placed.mem_waitList t w).mpr ⟨blocked, on⟩⟩

/-- `thread_unblock_from_wait_queue` loses nobody if and only if it does not reschedule. -/
theorem unblock_losesNobody_iff
    (reach : Reach step (fun s l => proper s l = true) (threadInitEarly initial flags) m)
    (user : m.control = .user) (listed : t ∈ m.kernel.threadList)
    (blocked : m.kernel.state t = .blocked) :
    LosesNobody m t reschedule code ↔ reschedule = false := by
  obtain ⟨placed, w, waits⟩ := blocked_placed reach user blocked
  cases reschedule with
  | false => exact iff_of_true (unblock_losesNobody user listed waits placed) rfl
  | true => exact iff_of_false (not_losesNobody_true user listed waits placed) (by decide)

theorem unblock_losesNobody_iff_quiet : ∃ m,
    Reach step (fun s l => proper s l = true) (threadInitEarly (fun _ => false) (fun _ => 0)) m ∧
      m.kernel.state 1 = .blocked ∧ LosesNobody m 1 false noError := by
  obtain ⟨m, reach, user, listed, blocked⟩ := blocked_one_reached
  exact ⟨m, reach, blocked, (unblock_losesNobody_iff reach user listed blocked).mpr rfl⟩

theorem caller_lost : ∃ m,
    Reach step (fun s l => proper s l = true) (threadInitEarly (fun _ => false) (fun _ => 0)) m ∧
      m.control = .user ∧ 1 ∈ m.kernel.threadList ∧ m.kernel.state 1 = .blocked ∧
      ¬ LosesNobody m 1 true noError := by
  obtain ⟨m, reach, user, listed, blocked⟩ := blocked_one_reached
  obtain ⟨placed, w, waits⟩ := blocked_placed reach user blocked
  exact ⟨m, reach, user, listed, blocked, not_losesNobody_true user listed waits placed⟩

end Runs

end AndroidBoot.LittleKernel.UnblockContract
