/- source: none
   digest: What waiting, mutexes, events and deferred calls are for, as atomic actions. -/

import AndroidBoot.LittleKernel.State

/-!
The abstract model that the kernel refines. A thread is idle, waits in a queue
for a caller of `wait_queue_block`, or has been taken off the queue with a code
and not run yet. An action is what one kernel call, expiry or return does, with
the observations it leaves in the history. Scheduling is invisible here.
-/

set_option autoImplicit false

namespace AndroidBoot.LittleKernel.SyncModel

open Function State

inductive Phase where
  | idle
  | waiting (timeout : Time) (caller : Waiter)
  | released (timeout : Time) (caller : Waiter) (code : Status)

/-- The phase of a thread that is taken off its queue with `code`. -/
def Phase.release (code : Status) : Phase → Phase
  | .waiting timeout caller => .released timeout caller code
  | phase => phase

@[ext] structure Sync where
  phase : Tid → Phase
  queue : WaitQueueId → List Tid
  armed : Tid → Prop
  count : Nat → Int
  holder : Nat → Option Tid
  signalled : EventId → Bool
  auto : EventId → Bool
  dpcs : List Dpc
  dead : Tid → Prop

namespace Sync

def join (σ : Sync) (t : Tid) (timeout : Time) (caller : Waiter) : Sync :=
  { σ with
    phase := update σ.phase t (.waiting timeout caller)
    queue := update σ.queue caller.queue (σ.queue caller.queue ++ [t])
    armed := update σ.armed t (timeout ≠ infiniteTime) }

def drop (σ : Sync) (w : WaitQueueId) (t : Tid) (code : Status) : Sync :=
  { σ with
    phase := update σ.phase t ((σ.phase t).release code)
    queue := update σ.queue w ((σ.queue w).erase t) }

def dropAll (σ : Sync) (w : WaitQueueId) (code : Status) : Sync :=
  { σ with
    phase := fun t => if t ∈ σ.queue w then (σ.phase t).release code else σ.phase t
    queue := update σ.queue w [] }

def disarm (σ : Sync) (t : Tid) : Sync := { σ with armed := update σ.armed t False }

def leave (σ : Sync) (t : Tid) : Sync :=
  { σ with
    phase := update σ.phase t .idle
    armed := update σ.armed t False }

def addCount (σ : Sync) (m : Nat) (n : Int) : Sync :=
  { σ with count := update σ.count m (σ.count m + n) }

def setHolder (σ : Sync) (m : Nat) (holder : Option Tid) : Sync :=
  { σ with holder := update σ.holder m holder }

def setSignalled (σ : Sync) (e : EventId) (b : Bool) : Sync :=
  { σ with signalled := update σ.signalled e b }

def unlock (σ : Sync) (m : Nat) : Sync := (σ.addCount m (-1)).setHolder m none

def enlist (σ : Sync) : Waiter → Sync
  | .plain _ => σ
  | .mutexAcquire m => σ.addCount m 1
  | .mutexAcquireTimeout m => σ.addCount m 1
  | .eventWaitTimeout _ => σ

/-- What the caller of `wait_queue_block` does with the code it got. -/
def conclude (σ : Sync) (t : Tid) (code : Status) : Waiter → Sync
  | .plain _ => σ
  | .mutexAcquire m => if code < 0 then σ else σ.setHolder m (some t)
  | .mutexAcquireTimeout m =>
    if code = errTimedOut then σ.addCount m (-1) else σ.setHolder m (some t)
  | .eventWaitTimeout _ => σ

/-- A deferred call is queued; the cleanup of a thread is queued when it dies. -/
def enqueue (σ : Sync) (d : Dpc) : Sync :=
  { σ with
    dpcs := σ.dpcs ++ [d]
    dead := match d with
      | .threadCleanup t => update σ.dead t True
      | .device _ => σ.dead }

def mustWait (σ : Sync) (timeout : Time) : Waiter → Prop
  | .plain _ => True
  | .mutexAcquire m => timeout = infiniteTime ∧ 1 < σ.count m + 1
  | .mutexAcquireTimeout m => timeout ≠ infiniteTime ∧ 1 < σ.count m + 1
  | .eventWaitTimeout e => σ.signalled e = false

def removals (σ : Sync) (w : WaitQueueId) (code : Status) : List Observation :=
  (σ.queue w).map fun t => .removed t w .wakeAll code

end Sync

theorem Sync.enlist_same (σ : Sync) (caller : Waiter) :
    (σ.enlist caller).phase = σ.phase ∧ (σ.enlist caller).queue = σ.queue ∧
      (σ.enlist caller).holder = σ.holder ∧ (σ.enlist caller).signalled = σ.signalled ∧
      (σ.enlist caller).auto = σ.auto ∧ (σ.enlist caller).dpcs = σ.dpcs ∧
      (σ.enlist caller).dead = σ.dead := by
  cases caller <;> exact ⟨rfl, rfl, rfl, rfl, rfl, rfl, rfl⟩

theorem Sync.conclude_same (σ : Sync) (t : Tid) (code : Status) (caller : Waiter) :
    (σ.conclude t code caller).phase = σ.phase ∧ (σ.conclude t code caller).queue = σ.queue ∧
      (σ.conclude t code caller).signalled = σ.signalled ∧
      (σ.conclude t code caller).auto = σ.auto ∧ (σ.conclude t code caller).dpcs = σ.dpcs ∧
      (σ.conclude t code caller).dead = σ.dead := by
  cases caller with
  | plain | eventWaitTimeout => exact ⟨rfl, rfl, rfl, rfl, rfl, rfl⟩
  | mutexAcquire m => by_cases failed : code < 0 <;> simp [conclude, setHolder, failed]
  | mutexAcquireTimeout m =>
    by_cases expired : code = errTimedOut <;> simp [conclude, setHolder, addCount, expired]

inductive Signal (σ : Sync) (e : EventId) : List Observation → Sync → Prop where
  | ignored (signalled : σ.signalled e = true) : Signal σ e [.signal e true] σ
  | stored (clear : σ.signalled e = false) (auto : σ.auto e = true)
      (empty : σ.queue (.event e) = []) :
      Signal σ e [.signal e false, .stored e] (σ.setSignalled e true)
  | one {t : Tid} {rest : List Tid} (clear : σ.signalled e = false) (auto : σ.auto e = true)
      (first : σ.queue (.event e) = t :: rest) :
      Signal σ e [.signal e false, .removed t (.event e) .wakeOne noError]
        (σ.drop (.event e) t noError)
  | all (clear : σ.signalled e = false) (manual : σ.auto e = false) :
      Signal σ e (.signal e false :: σ.removals (.event e) noError)
        ((σ.dropAll (.event e) noError).setSignalled e true)

theorem Signal.of_enqueue {σ σ' : Sync} {e : EventId} {d : Dpc} {os : List Observation}
    (signal : Signal (σ.enqueue d) e os σ') : ∃ τ, Signal σ e os τ ∧ σ' = τ.enqueue d := by
  cases signal with
  | ignored signalled => exact ⟨_, .ignored signalled, rfl⟩
  | stored clear auto empty => exact ⟨_, .stored clear auto empty, rfl⟩
  | one clear auto first => exact ⟨_, .one clear auto first, rfl⟩
  | all clear manual => exact ⟨_, .all clear manual, rfl⟩

inductive Intent where
  | join (caller : Waiter)
  | destroyMutex (m : Nat)
  | destroyEvent (e : EventId)
  | unblock (w : WaitQueueId)

/-- One action, by code that may do what `may` says. -/
inductive Action (may : Intent → Prop) (σ : Sync) : List Observation → Sync → Prop where
  | wait {t : Tid} {timeout : Time} {caller : Waiter} (intent : may (.join caller))
      (idle : σ.phase t = .idle) (positive : timeout ≠ 0) (must : σ.mustWait timeout caller)
      (other : ∀ m, caller.queue = .mutex m → σ.holder m ≠ some t) :
      Action may σ [.blocked t caller.queue timeout] ((σ.enlist caller).join t timeout caller)
  | refuse {t : Tid} {caller : Waiter} (idle : σ.phase t = .idle) :
      Action may σ [.returned t caller.queue 0 errTimedOut] σ
  | finish {t : Tid} {timeout : Time} {caller : Waiter} {code : Status}
      (released : σ.phase t = .released timeout caller code) :
      Action may σ [.returned t caller.queue timeout code] ((σ.leave t).conclude t code caller)
  | wakeOne {n : Nat} {t : Tid} {rest : List Tid} {code : Status}
      (first : σ.queue (.plain n) = t :: rest) :
      Action may σ [.removed t (.plain n) .wakeOne code] (σ.drop (.plain n) t code)
  | wakeAll {n : Nat} {code : Status} :
      Action may σ (σ.removals (.plain n) code) (σ.dropAll (.plain n) code)
  | unblock {t : Tid} {w : WaitQueueId} {code : Status} (intent : may (.unblock w))
      (waits : t ∈ σ.queue w) :
      Action may σ [.removed t w .unblock code] (σ.drop w t code)
  | timeout {t : Tid} {w : WaitQueueId} (armed : σ.armed t) (waits : t ∈ σ.queue w) :
      Action may σ [.removed t w .timer errTimedOut] ((σ.drop w t errTimedOut).disarm t)
  | expire {t : Tid} (armed : σ.armed t) (out : ∀ w, t ∉ σ.queue w) :
      Action may σ [] (σ.disarm t)
  | acquire {t : Tid} {m : Nat} (free : ¬ 1 < σ.count m + 1) (other : σ.holder m ≠ some t)
      (idle : σ.phase t = .idle) :
      Action may σ [] ((σ.addCount m 1).setHolder m (some t))
  | release {t : Tid} {m : Nat} (holds : σ.holder m = some t)
      (nobody : σ.count m - 1 < 1 ∨ σ.queue (.mutex m) = []) :
      Action may σ [] (σ.unlock m)
  | handOver {t u : Tid} {m : Nat} {rest : List Tid} (holds : σ.holder m = some t)
      (first : σ.queue (.mutex m) = u :: rest) (counted : 1 ≤ σ.count m - 1) :
      Action may σ [.removed u (.mutex m) .wakeOne noError]
        ((σ.unlock m).drop (.mutex m) u noError)
  | destroyMutex {m : Nat} (intent : may (.destroyMutex m)) :
      Action may σ (σ.removals (.mutex m) errObjectDestroyed)
        ((σ.addCount m (-σ.count m)).dropAll (.mutex m) errObjectDestroyed)
  | pass {e : EventId} (signalled : σ.signalled e = true) (manual : σ.auto e = false) :
      Action may σ [.passed e] σ
  | consume {e : EventId} (signalled : σ.signalled e = true) (auto : σ.auto e = true) :
      Action may σ [.consumed e] (σ.setSignalled e false)
  | signal {n : Nat} {os : List Observation} {σ' : Sync} (signal : Signal σ (.user n) os σ') :
      Action may σ os σ'
  | unsignal {e : EventId} (drained : e = .dpc → σ.dpcs = []) :
      Action may σ [.unsignal e (σ.signalled e)] (σ.setSignalled e false)
  | destroyEvent {n : Nat} (intent : may (.destroyEvent (.user n))) :
      Action may σ (σ.removals (.event (.user n)) errObjectDestroyed)
        { (σ.setSignalled (.user n) false).dropAll (.event (.user n)) errObjectDestroyed with
          auto := update σ.auto (.user n) false }
  | dpcQueue {d : Dpc} {os : List Observation} {σ' : Sync}
      (alive : ∀ t, d = .threadCleanup t → ¬ σ.dead t) (signal : Signal σ .dpc os σ') :
      Action may σ (.queued d :: os) (σ'.enqueue d)
  | dpcStart {d : Dpc} {rest : List Dpc} (first : σ.dpcs = d :: rest) :
      Action may σ [.started d] { σ with dpcs := rest }

def Phase.At (w : WaitQueueId) : Phase → Prop
  | .idle => False
  | .waiting _ caller => caller.queue = w
  | .released _ caller _ => caller.queue = w

theorem Phase.at_release {w : WaitQueueId} {phase : Phase} {code : Status} :
    (phase.release code).At w ↔ phase.At w := by
  cases phase <;> rfl

structure Coherent (σ : Sync) : Prop where
  mem_queue : ∀ t w, t ∈ σ.queue w ↔ ∃ timeout caller,
    σ.phase t = .waiting timeout caller ∧ caller.queue = w
  queue_nodup : ∀ w, (σ.queue w).Nodup
  armed : ∀ t, σ.armed t → ∃ timeout caller, timeout ≠ infiniteTime ∧
    (σ.phase t = .waiting timeout caller ∨ ∃ code, σ.phase t = .released timeout caller code)

/-- Nothing changes for the threads inside `wait_queue_block` on `w`. -/
structure Apart (w : WaitQueueId) (σ σ' : Sync) : Prop where
  queue : σ'.queue w = σ.queue w
  phase : ∀ t, σ'.phase t = σ.phase t ∨ (¬ (σ.phase t).At w ∧ ¬ (σ'.phase t).At w)

theorem Apart.refl (w : WaitQueueId) (σ : Sync) : Apart w σ σ := ⟨rfl, fun _ => Or.inl rfl⟩

section Apart

variable {σ : Sync} {w w' : WaitQueueId} {t : Tid} {code : Status}

theorem Coherent.not_at (coherent : Coherent σ) (member : t ∈ σ.queue w') (other : w' ≠ w) :
    ¬ (σ.phase t).At w := by
  obtain ⟨timeout, caller, phase, queue⟩ := (coherent.mem_queue t w').mp member
  rw [phase]
  exact fun same => other (queue.symm.trans same)

theorem Coherent.apart_drop (coherent : Coherent σ) (member : t ∈ σ.queue w')
    (other : w' ≠ w) : Apart w σ (σ.drop w' t code) where
  queue := by simp [Sync.drop, other.symm]
  phase := by
    intro u
    obtain rfl | same := eq_or_ne u t
    · have away := coherent.not_at member other
      refine Or.inr ⟨away, ?_⟩
      simpa [Sync.drop, Phase.at_release] using away
    · exact Or.inl (by simp [Sync.drop, same])

theorem Coherent.apart_dropAll (coherent : Coherent σ) (other : w' ≠ w) :
    Apart w σ (σ.dropAll w' code) where
  queue := by simp [Sync.dropAll, other.symm]
  phase := by
    intro u
    by_cases member : u ∈ σ.queue w'
    · have away := coherent.not_at member other
      refine Or.inr ⟨away, ?_⟩
      simpa [Sync.dropAll, member, Phase.at_release] using away
    · exact Or.inl (by simp [Sync.dropAll, member])

theorem apart_join {timeout : Time} {caller : Waiter} (idle : σ.phase t = .idle)
    (other : caller.queue ≠ w) : Apart w σ (σ.join t timeout caller) where
  queue := by simp [Sync.join, other.symm]
  phase := by
    intro u
    obtain rfl | same := eq_or_ne u t
    · refine Or.inr ⟨by simp [idle, Phase.At], ?_⟩
      simpa [Sync.join, Phase.At] using other
    · exact Or.inl (by simp [Sync.join, same])

theorem apart_leave {timeout : Time} {caller : Waiter}
    (released : σ.phase t = .released timeout caller code) (other : caller.queue ≠ w) :
    Apart w σ (σ.leave t) where
  queue := rfl
  phase := by
    intro u
    obtain rfl | same := eq_or_ne u t
    · exact Or.inr ⟨by simpa [released, Phase.At] using other, by simp [Sync.leave, Phase.At]⟩
    · exact Or.inl (by simp [Sync.leave, same])

end Apart

end AndroidBoot.LittleKernel.SyncModel
