/- source: bootable/lk/kernel/timer.c
   digest: With dynamic timers the hardware is armed for the head of the queue. -/

import AndroidBoot.LittleKernel.TimerOrder

/-!
No platform in the sources has the one-shot timer that `timer.c` asks for under
`PLATFORM_HAS_DYNAMIC_TIMER`. `Contract` is what its two functions are named for.
-/

set_option autoImplicit false

namespace AndroidBoot.LittleKernel.TimerArming

open State TimerQueue
open Timer (timeGt timeLt)
open TimerOrder (Windowed Fits update_queued)
open Foundation.Run Foundation.HalfRange

/-- A one-shot timer: it is armed to expire after the `remaining` ms or not at all, and its
interrupt, once raised, is `pending` until the processor takes it. -/
structure Contract {H : Type} (platform : Platform H) where
  remaining : H → Option Nat
  pending : H → Bool
  set_arms : ∀ h delay, pending (platform.setOneshotTimer h delay) = true ∨
    remaining (platform.setOneshotTimer h delay) = some delay.toNat
  stays_pending : ∀ h elapsed, pending h = true → pending (platform.elapse h elapsed) = true
  counts_down : ∀ h elapsed ms, remaining h = some ms → elapsed < ms →
    pending (platform.elapse h elapsed) = true ∨
      remaining (platform.elapse h elapsed) = some (ms - elapsed)
  expires : ∀ h elapsed ms, remaining h = some ms → ms ≤ elapsed →
    pending (platform.elapse h elapsed) = true

section Arithmetic

theorem toNat_eq_toInt {x : Time} (nonneg : ¬ x.toInt < 0) : (x.toNat : Int) = x.toInt := by
  have cond := BitVec.toInt_eq_toNat_cond x
  split at cond
  · exact cond.symm
  · omega

theorem toInt_sub_clock {deadline : Time} {time elapsed : Nat}
    (before : (elapsed : Int) ≤ (deadline - clock time).toInt) :
    (deadline - clock (time + elapsed)).toInt = (deadline - clock time).toInt - elapsed := by
  have shifted : deadline - clock (time + elapsed) =
      (deadline - clock time) - BitVec.ofNat 32 elapsed := by
    unfold clock
    rw [BitVec.ofNat_add]
    grind
  have half : 2 * (deadline - clock time).toInt < 2 ^ 32 := BitVec.two_mul_toInt_lt
  rw [shifted, BitVec.toInt_sub, BitVec.toInt_ofNat', Int.sub_bmod_bmod]
  apply Int.bmod_eq_of_le_mul_two
  · omega
  · omega

end Arithmetic

section Armed

variable {T K H : Type} {platform : Platform H}

def Armed (contract : Contract platform) (s : Timers T K H) (now : Time) : Prop :=
  ∀ timer rest, s.queue = timer :: rest → contract.pending s.hardware = true ∨
    ∃ ms, contract.remaining s.hardware = some ms ∧
      (ms : Int) ≤ max 0 (s.scheduledTime timer - now).toInt

variable {contract : Contract platform} {s : Timers T K H} {now : Time}

theorem armed_of_program {delay : Time}
    (inTime : ∀ timer rest, s.queue = timer :: rest →
      (delay.toNat : Int) ≤ max 0 (s.scheduledTime timer - now).toInt) :
    Armed contract (program (some platform) s delay) now := by
  intro timer rest queue
  rcases contract.set_arms s.hardware delay with raised | armed
  · exact Or.inl raised
  · exact Or.inr ⟨delay.toNat, armed, inTime timer rest queue⟩

theorem Armed.elapse {m : Machine T K H} (armed : Armed contract m.timers (clock m.time))
    (elapsed : Nat) :
    Armed contract (m.elapse (some platform) elapsed).timers (clock (m.time + elapsed)) := by
  intro timer rest queue
  rcases armed timer rest queue with raised | ⟨ms, left, inTime⟩
  · exact Or.inl (contract.stays_pending _ elapsed raised)
  · rcases Nat.lt_or_ge elapsed ms with before | expired
    · rcases contract.counts_down _ elapsed ms left before with raised | less
      · exact Or.inl raised
      · refine Or.inr ⟨ms - elapsed, less, ?_⟩
        show ((ms - elapsed : Nat) : Int) ≤
          max 0 (m.timers.scheduledTime timer - clock (m.time + elapsed)).toInt
        rw [toInt_sub_clock (by omega)]
        omega
    · exact Or.inl (contract.expires _ elapsed ms left expired)

variable [DecidableEq T]

section

variable (armed : Armed contract s now)
include armed

theorem Armed.timerSet {timer : T} {delay period : Time} {callback : K} {s' : Timers T K H} (short : 2 * delay.toNat < 2 ^ 32)
    (set : timerSet (some platform) s timer delay period callback now = some s') :
    Armed contract s' now := by
  unfold TimerQueue.timerSet at set
  split at set
  case isTrue => cases set
  case isFalse fresh =>
    cases set
    split
    case isTrue first =>
      refine armed_of_program fun head rest queue => ?_
      rw [queue] at first
      obtain rfl := Option.some.inj first
      show (delay.toNat : Int) ≤
        max 0 (Function.update s.scheduledTime head (now + delay) head - now).toInt
      have after : now + delay - now = delay := by grind
      rw [Function.update_self, after, BitVec.toInt_eq_toNat_of_lt short]
      exact le_max_right ..
    case isFalse behind =>
      intro head rest queue
      have unchanged := (insertTimerInQueue_head _ timer s.queue).resolve_left behind
      have first : s.queue.head? = some head := by
        rw [← unchanged]
        exact congrArg List.head? queue
      obtain ⟨more, old⟩ := List.head?_eq_some_iff.mp first
      have queued : head ∈ s.queue := by
        rw [old]
        exact List.mem_cons_self
      have same : (place s timer (now + delay) period (some callback)).scheduledTime head =
          s.scheduledTime head := update_queued fresh queued
      rw [same]
      exact armed head more old

theorem Armed.timerCancel {timer : T} :
    Armed contract (timerCancel (some platform) s timer now) now := by
  unfold TimerQueue.timerCancel
  dsimp only
  split
  case h_1 empty =>
    intro head rest queue
    rw [show (unprogram (some platform) (remove s timer)).queue = [] from empty] at queue
    cases queue
  case h_2 newhead rest queue =>
    split
    case isTrue =>
      refine armed_of_program fun head more same => ?_
      rw [queue] at same
      obtain ⟨rfl, rfl⟩ := List.cons.inj same
      by_cases past : timeLt ((remove s timer).scheduledTime newhead) now = true
      · rw [if_pos past]
        exact le_max_left ..
      · rw [if_neg past, toNat_eq_toInt fun negative => past (decide_eq_true negative)]
        exact le_max_right ..
    case isFalse kept =>
      intro head more same
      rw [queue] at same
      obtain ⟨rfl, rfl⟩ := List.cons.inj same
      obtain ⟨old, before⟩ := List.head?_eq_some_iff.mp (not_not.mp kept).symm
      exact armed newhead old before

theorem Armed.perform {op : Op T K} {s' : Timers T K H}
    (short : 2 * op.delay.toNat < 2 ^ 32) (performed : perform (some platform) s now op = some s') :
    Armed contract s' now := by
  cases op with
  | setOneshot | setPeriodic => exact armed.timerSet short performed
  | cancel timer =>
    cases performed
    exact armed.timerCancel

end

end Armed

section Runs

variable {T K H : Type} {platform : Platform H}

def Still (m : Machine T K H) (e : Event T K) : Prop :=
  ∀ tick round, m.phase = .callback tick round → e.elapsed = 0

/-- Outside of ticks the hardware is armed; a tick ends at the time at which it began. -/
structure Attended (contract : Contract platform) (m : Machine T K H) : Prop where
  armed : m.phase = .idle → Armed contract m.timers (clock m.time)
  now_eq : During (fun tick _ => tick.now = m.time) m.phase

variable {contract : Contract platform} {m m' : Machine T K H} {tick : Tick T K H}

theorem armed_timerTickEnd (now : tick.now = m.time)
    (idle : (timerTickEnd (some platform) m tick).phase = .idle) :
    Armed contract (timerTickEnd (some platform) m tick).timers (clock m.time) := by
  unfold timerTickEnd at idle ⊢
  cases queue : m.timers.queue with
  | nil =>
    intro timer rest same
    rw [show m.timers.queue = timer :: rest from same] at queue
    cases queue
  | cons timer rest =>
    rw [queue] at idle
    dsimp only at idle ⊢
    by_cases future : timeGt (m.timers.scheduledTime timer) (clock tick.now) = true
    · rw [if_pos future]
      refine armed_of_program fun head more same => ?_
      obtain ⟨rfl, rfl⟩ := List.cons.inj (queue.symm.trans same)
      have positive := of_decide_eq_true future
      rw [toNat_eq_toInt (by omega), now]
      exact le_max_right ..
    · rw [if_neg future] at idle
      cases idle

theorem Attended.timerTick (now : tick.now = m.time) :
    Attended contract (timerTick (some platform) m tick) := by
  rcases timerTick_cases (some platform) m tick with
    ⟨-, ended⟩ | ⟨-, -, -, -, stopped⟩ | ⟨timer, rest, callback, -, -, -, taken⟩
  · rw [ended]
    rcases timerTickEnd_cases (some platform) m tick with ⟨timers, -, left⟩ | ⟨-, -, -, -, left⟩
    · have armed : Armed contract (timerTickEnd (some platform) m tick).timers (clock m.time) :=
        armed_timerTickEnd now (by rw [left])
      rw [left] at armed ⊢
      exact ⟨fun _ => armed, trivial⟩
    · rw [left]
      exact ⟨fun idle => (by cases idle), trivial⟩
  · rw [stopped]
    exact ⟨fun idle => (by cases idle), trivial⟩
  · rw [taken]
    exact ⟨fun idle => (by cases idle), now⟩

theorem Attended.elapse {e : Event T K} (attended : Attended contract m) (still : Still m e) :
    Attended contract (m.elapse (some platform) e.elapsed) := by
  refine ⟨fun idle => (attended.armed idle).elapse e.elapsed, ?_⟩
  refine attended.now_eq.imp fun tick round phase now => ?_
  rw [still tick round phase]
  exact now

variable [DecidableEq T]

theorem Attended.call {op : Op T K} (attended : Attended contract m)
    (short : 2 * op.delay.toNat < 2 ^ 32) : Attended contract (m.call (some platform) op) := by
  rcases call_cases (some platform) m op with halted | ⟨timers, performed, called⟩
  · rw [halted]
    exact ⟨fun idle => (by cases idle), trivial⟩
  · rw [called]
    refine ⟨fun idle => ?_, .of_note attended.now_eq⟩
    cases phase : m.phase with
    | idle => exact (attended.armed phase).perform short performed
    | callback | halted =>
      rw [phase] at idle
      cases idle

theorem Attended.step {e : Event T K} (attended : Attended contract m) (windowed : Windowed m e)
    (still : Still m e) (taken : step (some platform) m e = some m') : Attended contract m' := by
  obtain ⟨b, -, fits⟩ := windowed
  have later := attended.elapse still
  unfold Fits at fits
  rcases step_cases taken with
    ⟨op, action, -, rfl⟩ | ⟨action, idle, rfl⟩ | ⟨tick, round, action, running, rfl⟩
  · rw [action] at fits
    exact later.call (by omega)
  · exact Attended.timerTick rfl
  · have now := later.now_eq
    rw [show (m.elapse (some platform) e.elapsed).phase = .callback tick round from running] at now
    exact Attended.timerTick now

/-- No timer is stranded: outside of ticks, the hardware is armed for the head of the queue. -/
theorem armed_of_reach (contract : Contract platform) {start : Machine T K H}
    (initial : Initial start)
    (reach : Reach (TimerQueue.step (some platform)) (fun m e => Windowed m e ∧ Still m e) start m)
    (idle : m.phase = .idle) : Armed contract m.timers (clock m.time) := by
  have attended : Attended contract m := by
    refine reach.invariant (Attended contract) ⟨fun _ timer rest queue => ?_, ?_⟩ ?_
    · rw [initial.empty] at queue
      cases queue
    · rw [initial.idle]
      trivial
    · intro m e m' kept allowed taken
      exact kept.step allowed.1 allowed.2 taken
  exact attended.armed idle

end Runs

section Examples

structure Counter where
  left : Option Nat
  raised : Bool

def counter : Platform Counter where
  setOneshotTimer _ delay := ⟨some delay.toNat, false⟩
  stopTimer _ := ⟨none, false⟩
  elapse c elapsed :=
    match c.left with
    | none => c
    | some ms => if elapsed < ms then ⟨some (ms - elapsed), c.raised⟩ else ⟨none, true⟩
  interrupt c := ⟨c.left, false⟩

def counts : Contract counter where
  remaining := Counter.left
  pending := Counter.raised
  set_arms _ _ := Or.inr rfl
  stays_pending c elapsed raised := by
    unfold counter
    dsimp only
    split
    · exact raised
    · split
      · exact raised
      · rfl
  counts_down c elapsed ms left before := by
    refine Or.inr ?_
    unfold counter
    dsimp only
    rw [left]
    dsimp only
    rw [if_pos before]
  expires c elapsed ms left expired := by
    unfold counter
    dsimp only
    rw [left]
    dsimp only
    rw [if_neg (Nat.not_lt.mpr expired)]

def unarmed : Machine Bool Unit Counter :=
  ⟨0, ⟨[], fun _ => 0, fun _ => 0, fun _ => none, ⟨none, false⟩⟩, .idle, []⟩

theorem armed_of_reach_cancelled :
    ∃ m, Reach (TimerQueue.step (some counter)) (fun m e => Windowed m e ∧ Still m e) unarmed m ∧
      m.timers.queue = [true] ∧ m.timers.hardware.left = some 4 ∧
      Armed counts m.timers (clock m.time) := by
  have quiet {m : Machine Bool Unit Counter} {e : Event Bool Unit} (idle : m.phase = .idle) :
      Still m e := by
    intro tick round running
    rw [idle] at running
    cases running
  have second : Reach (TimerQueue.step (some counter)) (fun m e => Windowed m e ∧ Still m e)
      unarmed _ :=
    .next (l := ⟨0, .call (.setOneshot true 7 ())⟩) .start
      ⟨⟨0, ⟨by decide, by decide, by decide, by decide⟩, by show _ < _; decide⟩, quiet rfl⟩ rfl
  have both := Reach.next (l := ⟨0, .call (.setPeriodic false 5 ())⟩) second
      ⟨⟨0, ⟨by decide, by decide, by decide, by decide⟩, by show _ < _; decide⟩, quiet rfl⟩ rfl
  have cancelled := Reach.next (l := ⟨3, .call (.cancel false)⟩) both
      ⟨⟨0, ⟨by decide, by decide, by decide, by decide⟩, by show _ < _; decide⟩, quiet rfl⟩ rfl
  exact ⟨_, cancelled, rfl, rfl, armed_of_reach counts ⟨rfl, rfl, rfl⟩ cancelled rfl⟩

end Examples

end AndroidBoot.LittleKernel.TimerArming
