/- source: bootable/lk/kernel/thread.c, bootable/lk/kernel/timer.c
   digest: What wait_queue_block returns, along every run of the kernel. -/

import AndroidBoot.LittleKernel.Simulation
import AndroidBoot.LittleKernel.WaitHistory

set_option autoImplicit false

namespace AndroidBoot.LittleKernel.WaitResults

open State Machine SyncModel KernelView Refinement Simulation WaitHistory Foundation.Run

variable {initial : Nat → Bool} {flags : Nat → BitVec 32} {m : Machine}

def inWait (k : Kernel) (t : Tid) : Bool :=
  match k.stack t with
  | .waitQueueBlock _ _ :: _ => true
  | _ => false

theorem chronicled_threadInitEarly :
    Chronicled (view (threadInitEarly initial flags).kernel) [] := by
  refine ⟨_, .start, fun w => rfl, fun t => ?_⟩
  have idle : (view (threadInitEarly initial flags).kernel).phase t = .idle := by
    simp only [view, threadInitEarly]
    split <;> rfl
  rw [idle]
  trivial

/-- Every removal and every return in the history of a run is answered, the queues
are what the history says, and no timer of a wait outlives it. -/
theorem wait_queue_results
    (reach : Reach step (fun s l => proper s l = true) (threadInitEarly initial flags) m) :
    Answered m.kernel.trace ∧ (∀ w, m.kernel.waitList w = waitingIn w m.kernel.trace) ∧
      ∀ t, inWait m.kernel t = false → .wait t ∉ m.kernel.timerQueue := by
  obtain ⟨consistent, stage, lived, line, -⟩ := reach_sync (I := Chronicled)
    (fun _ _ => id) chronicled_threadInitEarly
    (fun s l os σ consistent _ chronicled action =>
      chronicled.step (Consistent.coherent consistent) action) reach
  obtain ⟨running, sound⟩ := Consistent.sound consistent
  refine ⟨lived.answered, fun w => (line w).symm, fun t outside member => ?_⟩
  obtain ⟨timeout, caller, rest, stack, -⟩ := sound.stacked.armed t member
  simp [inWait, stack] at outside

theorem wait_queue_results_timeout : ∃ m,
    Reach step (fun s l => proper s l = true) (threadInitEarly (fun _ => false) (fun _ => 0)) m ∧
      m.kernel.trace = [.blocked 1 (.plain 0) 5, .removed 1 (.plain 0) .timer errTimedOut,
        .returned 1 (.plain 0) 5 errTimedOut] ∧
      .wait 1 ∉ m.kernel.timerQueue :=
  exists_reach_of_replay
    (List.flatten [Label.idleAndOne, Label.block 5, Label.upTo (.timerIrq 100) 6])
    (fun m => m.kernel.trace = [.blocked 1 (.plain 0) 5, .removed 1 (.plain 0) .timer errTimedOut,
      .returned 1 (.plain 0) 5 errTimedOut] ∧ inWait m.kernel 1 = false) (by decide +kernel)
    fun _ reach ⟨trace, outside⟩ => ⟨trace, (wait_queue_results reach).2.2 1 outside⟩

theorem waker_passes_timeout : ∃ m,
    Reach step (fun s l => proper s l = true) (threadInitEarly (fun _ => false) (fun _ => 0)) m ∧
      m.kernel.trace = [.blocked 1 (.plain 0) infiniteTime,
        .removed 1 (.plain 0) .wakeOne errTimedOut,
        .returned 1 (.plain 0) infiniteTime errTimedOut] :=
  exists_reach_of_replay
    (List.flatten [Label.idleAndOne, Label.block infiniteTime, [.enterCriticalSection],
      Label.upTo (.call (.waitQueueWakeOne 0 true errTimedOut)) 3]) _ (by decide +kernel)
    fun _ _ => id

end AndroidBoot.LittleKernel.WaitResults
