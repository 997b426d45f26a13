/- source: bootable/lk/kernel/thread.c, bootable/lk/include/list.h
   digest: Which threads thread_resume refuses, and what it does to the queues of the others. -/

import AndroidBoot.Foundation.Ring
import AndroidBoot.LittleKernel.Scheduler

/-!
The queues of the kernel are rings of list nodes through which a thread is in at
most one queue. The lists of the model stand for them as long as every node is
linked once, which `thread_resume` of a waiting thread ends.
-/

set_option autoImplicit false

namespace AndroidBoot.LittleKernel.ResumeContract

open State Thread Machine SchedulerInvariant KernelView Refinement Simulation Scheduler
open Foundation.Run Foundation.Ring

variable {m : Machine} {t : Tid}

def Refused (m : Machine) (t : Tid) : Prop :=
  ∃ m', step m (.call (.threadResume t)) = some m' ∧ m'.control = .ret errNotSuspended ∧
    m'.kernel.toSched = m.kernel.toSched ∧ step m' .kernel = some m

theorem pop_push (k : Kernel) (f : Frame) : pop (push k f) = k := by
  simp [pop, push]

theorem step_threadResume (user : m.control = .user) (listed : t ∈ m.kernel.threadList) :
    step m (.call (.threadResume t)) =
      settle (threadResume (push m.kernel (.call m.kernel.criticalSectionCount)) t) := by
  obtain ⟨k, control⟩ := m
  obtain rfl : control = .user := user
  have possible : callable k (.threadResume t) = true := decide_eq_true listed
  dsimp only [step]
  rw [if_pos possible, callBody]

def resumed (s : Sched) (t : Tid) : Sched :=
  insertInRunQueueTail
    (setState (insertInRunQueueHead (setState s t .ready) t) s.currentThread .ready)
    s.currentThread

theorem threadResume_resumed {k : Kernel} (idle : ¬ (k.state t = .ready ∨ k.state t = .running)) :
    ∃ k', settle (threadResume k t) = some ⟨k', .resched⟩ ∧ k'.toSched = resumed k.toSched t := by
  unfold threadResume
  rw [if_neg idle]
  exact ⟨_, rfl, rfl⟩

/-- `thread_resume` refuses the ready and the running threads only. -/
theorem resume_refused_iff (user : m.control = .user) (listed : t ∈ m.kernel.threadList) :
    Refused m t ↔ m.kernel.state t = .ready ∨ m.kernel.state t = .running := by
  unfold Refused
  rw [step_threadResume user listed]
  constructor
  · rintro ⟨m', next, returned, -⟩
    by_contra idle
    obtain ⟨k', next', -⟩ :=
      threadResume_resumed (k := push m.kernel (.call m.kernel.criticalSectionCount)) idle
    rw [next] at next'
    cases next'
    cases returned
  · intro refused
    have body : threadResume (push m.kernel (.call m.kernel.criticalSectionCount)) t =
        .done (push m.kernel (.call m.kernel.criticalSectionCount)) errNotSuspended :=
      if_pos refused
    rw [body]
    refine ⟨_, rfl, rfl, rfl, ?_⟩
    obtain ⟨k, control⟩ := m
    obtain rfl : control = .user := user
    have top : (push k (.call k.criticalSectionCount)).stack k.currentThread =
        .call k.criticalSectionCount :: k.stack k.currentThread := Function.update_self ..
    dsimp only [step]
    rw [show (push k (.call k.criticalSectionCount)).currentThread = k.currentThread from rfl, top]
    dsimp only [resumeFrame]
    rw [pop_push]

theorem resume_refused_iff_ready : ∃ m,
    Reach step (fun s l => proper s l = true) (threadInitEarly (fun _ => false) (fun _ => 0)) m ∧
      m.control = .user ∧ m.kernel.state 0 = .ready ∧ Refused m 0 := by
  refine exists_reach_of_replay Label.idleAndOne
    (fun m => m.control = .user ∧ 0 ∈ m.kernel.threadList ∧ m.kernel.state 0 = .ready)
    (by decide +kernel) ?_
  intro m reach ⟨user, listed, ready⟩
  exact ⟨user, ready, (resume_refused_iff user listed).mpr (Or.inl ready)⟩

section Damage

variable {initial : Nat → Bool} {flags : Nat → BitVec 32}

theorem resumed_fields (s : Sched) (t : Tid) :
    t ∈ (resumed s t).runQueue (s.priority t) ∧ (resumed s t).state t = .ready ∧
      (resumed s t).waitList = s.waitList ∧ (resumed s t).timerQueue = s.timerQueue := by
  refine ⟨?_, ?_, rfl, rfl⟩
  · by_cases same : s.priority t = s.priority s.currentThread <;>
      simp [resumed, insertInRunQueueTail, insertInRunQueueHead, setState, same]
  · by_cases same : t = s.currentThread <;>
      simp [resumed, insertInRunQueueTail, insertInRunQueueHead, setState, same]

theorem resume_leaves_behind
    (reach : Reach step (fun s l => proper s l = true) (threadInitEarly initial flags) m)
    (user : m.control = .user) (listed : t ∈ m.kernel.threadList)
    (idle : ¬ (m.kernel.state t = .ready ∨ m.kernel.state t = .running)) :
    ∃ m', step m (.call (.threadResume t)) = some m' ∧ m'.control = .resched ∧
      m'.kernel.state t = .ready ∧ t ∈ m'.kernel.runQueue (m.kernel.priority t) ∧
      (m.kernel.state t = .blocked → ∃ w, t ∈ m'.kernel.waitList w) ∧
      (.sleep t ∈ m.kernel.timerQueue → .sleep t ∈ m'.kernel.timerQueue) ∧
      (m.kernel.state t = .blocked → ¬ QueuesAgree m'.kernel) := by
  obtain ⟨running, sound⟩ := Consistent.sound (reach_consistent (fun _ _ => id) reach)
  obtain ⟨k', next, same⟩ :=
    threadResume_resumed (k := push m.kernel (.call m.kernel.criticalSectionCount)) idle
  have fields : t ∈ k'.runQueue (m.kernel.priority t) ∧ k'.state t = .ready ∧
      k'.waitList = m.kernel.waitList ∧ k'.timerQueue = m.kernel.timerQueue := by
    rw [same]
    exact resumed_fields m.kernel.toSched t
  obtain ⟨queued, ready, waits, timers⟩ := fields
  have still (blocked : m.kernel.state t = .blocked) : ∃ w, t ∈ k'.waitList w := by
    obtain ⟨w, on⟩ := sound.placed.blocked_on t blocked
    exact ⟨w, waits ▸ (sound.placed.mem_waitList t w).mpr ⟨blocked, on⟩⟩
  refine ⟨⟨k', .resched⟩, (step_threadResume user listed).trans next, rfl, ready, queued,
    still, fun armed => timers ▸ armed, fun blocked agree => ?_⟩
  obtain ⟨w, member⟩ := still blocked
  exact (agree.ready t ready).2 w member

theorem blocked_thread_resumed : ∃ m m',
    Reach step (fun s l => proper s l = true) (threadInitEarly (fun _ => false) (fun _ => 0)) m ∧
      m.control = .user ∧ 1 ∈ m.kernel.threadList ∧ m.kernel.state 1 = .blocked ∧
      step m (.call (.threadResume 1)) = some m' ∧ m'.kernel.state 1 = .ready ∧
      1 ∈ m'.kernel.runQueue (m.kernel.priority 1) ∧ (∃ w, 1 ∈ m'.kernel.waitList w) ∧
      ¬ Refused m 1 := by
  obtain ⟨m, reach, user, listed, blocked⟩ := blocked_one_reached
  obtain ⟨m', next, control, ready, queued, waits, -, -⟩ :=
    resume_leaves_behind reach user listed (by simp [blocked])
  refine ⟨m, m', reach, user, listed, blocked, next, ready, queued, waits blocked, ?_⟩
  rintro ⟨m'', next', returned, -⟩
  rw [next] at next'
  cases next'
  rw [control] at returned
  cases returned

/-- A list node: the heads of the queues, and the `queue_node` of each thread. -/
inductive Node where
  | runQueue (p : Priority)
  | waitQueue (w : WaitQueueId)
  | thread (t : Tid)
  deriving DecidableEq

structure Represents (h : Pointers Node) (s : Sched) : Prop where
  run : ∀ p, Pointers.lists.Holds h (.runQueue p) ((s.runQueue p).map .thread)
  wait : ∀ w, Pointers.lists.Holds h (.waitQueue w) ((s.waitList w).map .thread)

theorem resume_breaks_wait_queue {h : Pointers Node} {running : Option Tid} {s : Sched}
    (placed : Placed s settled running) (stands : Represents h s) (blocked : s.state t = .blocked) :
    Pointers.lists.Holds (h.listAddHead (.runQueue (s.priority t)) (.thread t))
        (.runQueue (s.priority t))
        (((insertInRunQueueHead s t).runQueue (s.priority t)).map .thread) ∧
      ∀ s', ¬ Represents (h.listAddHead (.runQueue (s.priority t)) (.thread t)) s' := by
  have absent {u : Tid} {p : Priority} (waiting : s.state u = .blocked) : u ∉ s.runQueue p := by
    intro member
    have ready := ((placed.mem_runQueue u p).mp member).1
    rw [waiting] at ready
    cases ready
  constructor
  · have added : (insertInRunQueueHead s t).runQueue (s.priority t) =
        t :: s.runQueue (s.priority t) := Function.update_self ..
    rw [added, List.map_cons]
    refine Pointers.addHead_holds (stands.run _) ?_
    simpa using absent blocked
  · intro s' stands'
    obtain ⟨w, on⟩ := placed.blocked_on t blocked
    have member : t ∈ s.waitList w := (placed.mem_waitList t w).mpr ⟨blocked, on⟩
    have ring := stands.wait w
    have apart : ∀ n ∈ Node.waitQueue w :: (s.waitList w).map .thread,
        n ∉ Node.runQueue (s.priority t) :: (s.runQueue (s.priority t)).map .thread := by
      intro n inside outside
      rcases List.mem_cons.mp inside with rfl | inside
      · simp at outside
      · obtain ⟨u, waiting, rfl⟩ := List.mem_map.mp inside
        simp only [List.mem_cons, reduceCtorEq, List.mem_map, Node.thread.injEq, exists_eq_right,
          false_or] at outside
        exact absent ((placed.mem_waitList u w).mp waiting).1 outside
    obtain ⟨before, after, split⟩ := List.append_of_mem member
    rw [split, List.map_append, List.map_cons] at ring apart
    exact Pointers.addHead_strays ring (stands.run _) apart (stands'.wait w)

end Damage

end AndroidBoot.LittleKernel.ResumeContract
