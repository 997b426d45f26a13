/- source: bootable/lk/kernel/event.c, bootable/lk/kernel/thread.c
   digest: Signals of the kernel's events are neither lost nor duplicated. -/

import AndroidBoot.LittleKernel.EventProtocol
import AndroidBoot.LittleKernel.WaitResults

set_option autoImplicit false

namespace AndroidBoot.LittleKernel.EventSafety

open State Machine SyncModel KernelView Refinement Simulation WaitHistory WaitResults EventProtocol
open Foundation.Run

variable {initial : Nat → Bool} {flags : Nat → BitVec 32} {m : Machine} {n : Nat}

def eventKept (n : Nat) (s : Machine) (l : Label) : Bool :=
  proper s l &&
    match l with
    | .call (.eventDestroy n') => n' ≠ n
    | .call (.threadUnblockFromWaitQueue t _ _) =>
      s.kernel.blockingWaitQueue t ≠ some (.event (.user n))
    | _ => true

def signalCalls (e : EventId) (os : List Observation) : Nat :=
  os.count (.signal e false) + os.count (.signal e true)

def successfulWaits (e : EventId) (os : List Observation) : Nat :=
  os.count (.passed e) + os.count (.consumed e) + os.countP (succeeds e)

theorem eventKept_intends {s : Machine} {l : Label} (kept : eventKept n s l = true) :
    ¬ intends s.kernel l (.destroyEvent (.user n)) ∧
      ¬ intends s.kernel l (.unblock (.event (.user n))) := by
  have allowed := (Bool.and_eq_true_iff.mp kept).2
  constructor
  all_goals
    intro intended
    rcases l with c | _ | _ | r | now | _ | _
    · cases c <;> first | exact intended | simp_all [intends]
    all_goals exact intended

theorem proper_of_eventKept {s : Machine} {l : Label} (kept : eventKept n s l = true) :
    proper s l = true := (Bool.and_eq_true_iff.mp kept).1

/-- Along every run a signalled event has no waiters. If the event unsignals itself,
every signal that finds it clear is stored or releases exactly one waiter, stored
signals are consumed or cleared once, and no more waits succeed than signals came. -/
theorem signals_accounted
    (reach : Reach step (fun s l => eventKept n s l = true) (threadInitEarly initial flags) m) :
    (∀ e, m.kernel.signalled e = true → m.kernel.waitList (.event e) = []) ∧
      (flags n &&& 1#32 ≠ 0#32 →
        Tally (.user n) (initial n) (m.kernel.signalled (.user n)) m.kernel.trace ∧
          successfulWaits (.user n) m.kernel.trace ≤
            (initial n).toNat + signalCalls (.user n) m.kernel.trace) := by
  have legal : ∀ s l, eventKept n s l = true → proper s l = true := fun _ _ => proper_of_eventKept
  refine ⟨?_, fun autounsignal => ?_⟩
  · obtain ⟨-, cleared⟩ := reach_sync (I := fun σ _ => Cleared σ) legal (fun _ _ => rfl)
      (fun s l os σ _ _ cleared action => cleared.step action) reach
    exact cleared
  · have start : (view (threadInitEarly initial flags).kernel).auto (.user n) = true := by
      simpa [view, threadInitEarly, Event.autoUnsignal] using autounsignal
    obtain ⟨-, ⟨auto, tally⟩, stage, lived, -, -⟩ := reach_sync
      (I := fun σ os => (σ.auto (.user n) = true ∧
        Tally (.user n) (initial n) (σ.signalled (.user n)) os) ∧ Chronicled σ os)
      legal
      ⟨⟨start, rfl, Nat.add_comm 0 _, rfl, followed_of_silent (by simp)⟩,
        chronicled_threadInitEarly⟩
      (fun s l os σ consistent kept both action => by
        obtain ⟨⟨auto, tally⟩, chronicled⟩ := both
        obtain ⟨undestroyed, left⟩ := eventKept_intends kept
        obtain ⟨event, stays⟩ := eventStep_of_action auto undestroyed left action
        exact ⟨⟨stays, tally.step event⟩, chronicled.step (Consistent.coherent consistent) action⟩)
      reach
    refine ⟨tally, ?_⟩
    obtain ⟨pending, -, counted⟩ := succeeds_le_releases (e := .user n) lived
    have effective := tally.effective
    have kept := tally.kept
    have unpassed := tally.unpassed
    unfold successfulWaits signalCalls
    omega

theorem signals_accounted_twice : ∃ m,
    Reach step (fun s l => eventKept 0 s l = true)
      (threadInitEarly (fun _ => false) (fun _ => 1)) m ∧
      m.kernel.signalled (.user 0) = true ∧ m.kernel.waitList (.event (.user 0)) = [] ∧
      Tally (.user 0) false true m.kernel.trace ∧
      successfulWaits (.user 0) m.kernel.trace ≤ signalCalls (.user 0) m.kernel.trace := by
  refine exists_reach_of_replay
    (List.flatten [Label.idleAndOne, Label.upTo (.call (.eventWait 0 0)) 4,
      Label.upTo (.call (.eventSignal 0 true)) 3, Label.upTo (.call (.eventSignal 0 false)) 1])
    (fun m => m.kernel.signalled (.user 0) = true) (by decide +kernel) ?_
  intro m reach signalled
  obtain ⟨empty, counted⟩ := signals_accounted reach
  obtain ⟨tally, bound⟩ := counted (by decide)
  rw [signalled] at tally
  exact ⟨signalled, empty _ signalled, tally, by simpa using bound⟩

end AndroidBoot.LittleKernel.EventSafety
