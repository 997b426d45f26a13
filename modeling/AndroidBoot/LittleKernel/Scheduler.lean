/- source: bootable/lk/kernel/thread.c
   digest: The scheduler invariant along every run, and what thread_resched picks. -/

import AndroidBoot.LittleKernel.Simulation

set_option autoImplicit false

namespace AndroidBoot.LittleKernel.Scheduler

open State Thread Machine SchedulerInvariant KernelView Refinement Simulation Foundation.Run

structure QueuesAgree (k : Kernel) : Prop where
  bitmap : ∀ p : Priority, k.runQueueBitmap.getLsbD p = true ↔ k.runQueue p ≠ []
  ready : ∀ t, k.state t = .ready →
    (∀ p, (k.runQueue p).count t = if p = k.priority t then 1 else 0) ∧
      ∀ w, t ∉ k.waitList w
  blocked : ∀ t, k.state t = .blocked → ∃ w, k.blockingWaitQueue t = some w ∧
    (∀ w', (k.waitList w').count t = if w' = w then 1 else 0) ∧ ∀ p, t ∉ k.runQueue p
  count : ∀ w, k.waitCount w = (k.waitList w).length
  others : ∀ t, k.state t ≠ .ready → k.state t ≠ .blocked →
    (∀ p, t ∉ k.runQueue p) ∧ ∀ w, t ∉ k.waitList w

/-- `thread_resched` in `k` switches to the head of the highest queue that is not empty. -/
def PicksHighest (m : Machine) : Prop :=
  ∃ p t rest m', m.kernel.runQueue p = t :: rest ∧ (∀ q, p < q → m.kernel.runQueue q = []) ∧
    step m .kernel = some m' ∧ m'.kernel.currentThread = t ∧ m'.kernel.state t = .running ∧
    m'.kernel.runQueue = Function.update m.kernel.runQueue p rest

def idleStays (s : Machine) (l : Label) : Bool :=
  proper s l &&
    match step s l with
    | none => true
    | some s' => s'.kernel.state 0 = .running || s'.kernel.state 0 = .ready

variable {k : Kernel}

theorem queuesAgree {running : Option Tid}
    (placed : Placed k.toSched settled running) : QueuesAgree k where
  bitmap := placed.bitmap
  ready := by
    intro t ready
    constructor
    · intro p
      split
      case isTrue home =>
        refine List.count_eq_one_of_mem (placed.runQueue_nodup p) ?_
        exact (placed.mem_runQueue t p).mpr ⟨ready, home.symm, id⟩
      case isFalse away =>
        refine List.count_eq_zero_of_not_mem fun member => away ?_
        exact ((placed.mem_runQueue t p).mp member).2.1.symm
    · intro w member
      have blocked := ((placed.mem_waitList t w).mp member).1
      simp [ready] at blocked
  blocked := by
    intro t blocked
    obtain ⟨w, on⟩ := placed.blocked_on t blocked
    refine ⟨w, on, ?_, ?_⟩
    · intro w'
      split
      case isTrue home =>
        subst home
        exact List.count_eq_one_of_mem (placed.waitList_nodup _)
          ((placed.mem_waitList t _).mpr ⟨blocked, on⟩)
      case isFalse away =>
        refine List.count_eq_zero_of_not_mem fun member => away ?_
        exact Option.some.inj (((placed.mem_waitList t w').mp member).2.symm.trans on)
    · intro p member
      have ready := ((placed.mem_runQueue t p).mp member).1
      simp [blocked] at ready
  count := placed.waitCount_eq
  others := by
    intro t notReady notBlocked
    exact ⟨fun p member => notReady ((placed.mem_runQueue t p).mp member).1,
      fun w member => notBlocked ((placed.mem_waitList t w).mp member).1⟩

theorem contextSwitch_fields (k : Kernel) (t : Tid) :
    (contextSwitch k t).currentThread = t ∧ (contextSwitch k t).state = k.state ∧
      (contextSwitch k t).runQueue = k.runQueue := by
  unfold contextSwitch
  split
  case isTrue same => exact ⟨same.symm, rfl, rfl⟩
  case isFalse => exact ⟨rfl, rfl, rfl⟩

theorem threadResched_picks {t : Tid} {running : Option Tid}
    (placed : Placed k.toSched settled running) (ready : k.state t = .ready) :
    ∃ u rest, k.runQueue (nextQueue k.runQueueBitmap) = u :: rest ∧
      (∀ q, nextQueue k.runQueueBitmap < q → k.runQueue q = []) ∧
      threadResched k = .done (contextSwitch (onSched k fun s =>
        setState (dequeue s (nextQueue s.runQueueBitmap) rest) u .running) u) 0 := by
  have home := (placed.mem_runQueue t (k.priority t)).mpr ⟨ready, rfl, id⟩
  have bit := (placed.bitmap (k.priority t)).mpr (List.ne_nil_of_mem home)
  have nonempty : k.runQueueBitmap ≠ 0 := by
    intro zero
    simp [zero] at bit
  obtain ⟨top, highest⟩ := nextQueue_highest nonempty
  obtain ⟨u, rest, queue⟩ := List.exists_cons_of_ne_nil ((placed.bitmap _).mp top)
  have above : ∀ q, nextQueue k.runQueueBitmap < q → k.runQueue q = [] := by
    intro q higher
    by_contra filled
    have set := (placed.bitmap q).mpr filled
    rw [highest q higher] at set
    simp at set
  refine ⟨u, rest, queue, above, ?_⟩
  unfold threadResched
  rw [if_neg nonempty, queue]

theorem picksHighest {t : Tid} (placed : Placed k.toSched settled none)
    (ready : k.state t = .ready) : PicksHighest ⟨k, .resched⟩ := by
  obtain ⟨u, rest, queue, above, body⟩ := threadResched_picks placed ready
  have next : step ⟨k, .resched⟩ .kernel = settle (threadResched k) := rfl
  rw [body] at next
  obtain ⟨current, state, queues⟩ := contextSwitch_fields (onSched k fun s =>
      setState (dequeue s (nextQueue s.runQueueBitmap) rest) u .running) u
  refine ⟨_, u, rest, _, queue, above, next, current, ?_, queues⟩
  rw [state]
  exact Function.update_self _ _ _

/-- Along every run in which the idle thread never blocks, outside `thread_resched`
exactly the current thread runs, all queues agree with the thread states, and
`thread_resched` always finds the highest ready thread. -/
theorem scheduler_invariant {initial : Nat → Bool} {flags : Nat → BitVec 32} {m : Machine}
    (reach : Reach step (fun s l => idleStays s l = true) (threadInitEarly initial flags) m) :
    (m.control ≠ .resched → ∀ t, m.kernel.state t = .running ↔ t = m.kernel.currentThread) ∧
      QueuesAgree m.kernel ∧
      (m.control = .resched → (∀ t, m.kernel.state t ≠ .running) ∧ PicksHighest m) := by
  have legal : ∀ s l, idleStays s l = true → proper s l = true := by
    intro s l ok
    exact (Bool.and_eq_true_iff.mp ok).1
  have consistent := reach_consistent legal reach
  have idle : m.kernel.state 0 = .running ∨ m.kernel.state 0 = .ready := by
    refine reach.invariant (fun m => m.kernel.state 0 = .running ∨ m.kernel.state 0 = .ready)
      (Or.inl rfl) ?_
    intro s l s' _ ok next
    have stays := (Bool.and_eq_true_iff.mp ok).2
    simpa [next] using stays
  obtain ⟨k, control⟩ := m
  have runs : ∀ sound : Sound k (some k.currentThread),
      ∀ t, k.state t = .running ↔ t = k.currentThread := by
    intro sound t
    rw [sound.placed.running_iff, Option.some.injEq, eq_comm]
  cases control with
  | user =>
    have sound : Sound k (some k.currentThread) := Live.sound consistent
    exact ⟨fun _ => runs sound, queuesAgree sound.placed, fun never => by simp at never⟩
  | ret r =>
    have sound : Sound k (some k.currentThread) := consistent
    exact ⟨fun _ => runs sound, queuesAgree sound.placed, fun never => by simp at never⟩
  | resched =>
    have sound : Sound k none := consistent
    have nobody : ∀ t, k.state t ≠ .running := by
      intro t running
      have impossible := (sound.placed.running_iff t).mp running
      simp at impossible
    refine ⟨fun never => absurd rfl never, queuesAgree sound.placed, fun _ => ⟨nobody, ?_⟩⟩
    rcases idle with running | ready
    · exact absurd running (nobody 0)
    · exact picksHighest sound.placed ready

theorem scheduler_invariant_resume : ∃ m,
    Reach step (fun s l => idleStays s l = true)
      (threadInitEarly (fun _ => false) (fun _ => 0)) m ∧
      m.kernel.runQueue 10 = [1] ∧ QueuesAgree m.kernel ∧ PicksHighest m := by
  refine exists_reach_of_replay
    [.exitCriticalSection, .call .threadBecomeIdle, .kernel, .call (.threadCreate 10 true),
      .kernel, .call (.threadResume 1)]
    (fun m => m.control = .resched ∧ m.kernel.runQueue 10 = [1]) (by decide +kernel) ?_
  intro m reach ⟨resched, queue⟩
  obtain ⟨-, agree, picks⟩ := scheduler_invariant reach
  exact ⟨queue, agree, (picks resched).2⟩

theorem blocked_one_reached : ∃ m,
    Reach step (fun s l => proper s l = true) (threadInitEarly (fun _ => false) (fun _ => 0)) m ∧
      m.control = .user ∧ 1 ∈ m.kernel.threadList ∧ m.kernel.state 1 = .blocked :=
  exists_reach_of_replay (Label.idleAndOne ++ Label.block infiniteTime) _ (by decide +kernel)
    fun _ _ => id

end AndroidBoot.LittleKernel.Scheduler
