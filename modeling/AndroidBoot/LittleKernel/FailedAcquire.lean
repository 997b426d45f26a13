/- source: bootable/lk/kernel/mutex.c, bootable/lk/kernel/thread.c
   digest: When an acquire that returns an error has made its caller the holder. -/

import AndroidBoot.LittleKernel.WaitResults

set_option autoImplicit false

namespace AndroidBoot.LittleKernel.FailedAcquire

open State Thread Mutex Machine SyncModel KernelView Refinement Simulation WaitQueue WaitHistory
  WaitResults
open Foundation.Run

variable {t : Tid} {w : WaitQueueId} {timeout : Time} {code : Status} {caller : Waiter}

variable {mx : Nat} {os os' : List Observation} {σ σ' : Sync}

section Histories

/-- How the last wait of the thread that was ended so far was ended. -/
def lastRemoval (t : Tid) (os : List Observation) : Option (WaitQueueId × Cause × Status) :=
  os.foldl (fun last o => match o with
    | .removed u w cause code => if u = t then some (w, cause, code) else last
    | _ => last) none

theorem lastRemoval_snoc (t : Tid) (os : List Observation) (o : Observation) :
    lastRemoval t (os ++ [o]) = match o with
      | .removed u w cause code => if u = t then some (w, cause, code) else lastRemoval t os
      | _ => lastRemoval t os := by
  rw [lastRemoval, List.foldl_append]
  rfl

theorem lastRemoval_quiet {quiet : List Observation} (silent : Quiet t quiet) :
    lastRemoval t (os ++ quiet) = lastRemoval t os := by
  induction quiet using List.reverseRecOn with
  | nil => rw [List.append_nil]
  | append_singleton rest o ih =>
    have before := ih (List.forall_mem_append.mp silent).1
    have here := silent o (List.mem_append_right _ (List.mem_singleton_self o))
    rw [← List.append_assoc, lastRemoval_snoc, before]
    cases o with
    | removed u w cause code => exact if_neg here
    | _ => rfl

theorem Told.lastRemoval {cause : Cause} (told : Told t os (.removed w timeout cause code)) :
    lastRemoval t os = some (w, cause, code) := by
  obtain ⟨-, -, a, b, c, rfl, -, silent⟩ := told
  have split : a ++ .blocked t w timeout :: (b ++ .removed t w cause code :: c) =
      (a ++ .blocked t w timeout :: b) ++ [.removed t w cause code] ++ c := by simp
  rw [split, lastRemoval_quiet silent, lastRemoval_snoc]
  exact if_pos rfl

def Coded (mx : Nat) : Observation → Prop
  | .removed _ (.mutex m) .wakeOne code => m = mx → code = noError
  | .removed _ (.mutex m) .wakeAll code => m = mx → code = errObjectDestroyed
  | .removed _ (.mutex m) .timer code => m = mx → code = errTimedOut
  | _ => True

theorem coded_removals (destroyed : w = .mutex mx → code = errObjectDestroyed) :
    ∀ o ∈ σ.removals w code, Coded mx o := by
  intro o member
  obtain ⟨t, -, rfl⟩ := List.mem_map.mp member
  cases w with
  | mutex m => exact fun same => destroyed (congrArg _ same)
  | _ => trivial

theorem coded_signal {e : EventId} (signal : Signal σ e os' σ') : ∀ o ∈ os', Coded mx o := by
  cases signal with
  | all clear manual =>
    intro o member
    rcases List.mem_cons.mp member with rfl | removal
    · trivial
    · exact coded_removals (fun same => by cases same) o removal
  | _ => simp [Coded]

theorem coded_action {may : Intent → Prop} (action : Action may σ os' σ') :
    ∀ o ∈ os', Coded mx o := by
  cases action with
  | wakeAll | destroyEvent => exact coded_removals fun same => by cases same
  | @unblock t w code intent waits => cases w <;> simp [Coded]
  | @timeout t w armed waits => cases w <;> simp [Coded]
  | destroyMutex intent => exact coded_removals fun _ => rfl
  | signal signal => exact coded_signal signal
  | dpcQueue alive signal =>
    intro o member
    rcases List.mem_cons.mp member with rfl | later
    · trivial
    · exact coded_signal signal o later
  | _ => simp [Coded]

end Histories

section Holders

def NotOwner (mx : Nat) (σ : Sync) : Prop :=
  ∀ t, (σ.phase t).At (.mutex mx) → σ.holder mx ≠ some t

attribute [local simp] Sync.setHolder Sync.addCount Sync.leave

theorem NotOwner.mono (apart : NotOwner mx σ)
    (inside : ∀ t, (σ'.phase t).At (.mutex mx) → (σ.phase t).At (.mutex mx))
    (holder : σ'.holder mx = σ.holder mx ∨ σ'.holder mx = none) : NotOwner mx σ' := by
  intro t at_
  rcases holder with same | free
  · rw [same]
    exact apart t (inside t at_)
  · rw [free]
    nofun

theorem at_of_drop {w' : WaitQueueId} {u : Tid} (inside : ((σ.drop w t code).phase u).At w') :
    (σ.phase u).At w' := by
  obtain rfl | same := eq_or_ne u t
  · simpa [Sync.drop, Phase.at_release] using inside
  · simpa [Sync.drop, same] using inside

theorem at_of_dropAll {w' : WaitQueueId} {u : Tid} (inside : ((σ.dropAll w code).phase u).At w') :
    (σ.phase u).At w' := by
  by_cases member : u ∈ σ.queue w
  · simpa [Sync.dropAll, member, Phase.at_release] using inside
  · simpa [Sync.dropAll, member] using inside

theorem NotOwner.signal {e : EventId} (apart : NotOwner mx σ) (signal : Signal σ e os' σ') :
    NotOwner mx σ' := by
  cases signal with
  | ignored | stored => exact apart
  | one => exact apart.mono (fun _ => at_of_drop) (Or.inl rfl)
  | all => exact apart.mono (fun _ => at_of_dropAll) (Or.inl rfl)

theorem NotOwner.finish (code : Status) (apart : NotOwner mx σ) :
    NotOwner mx ((σ.leave t).conclude t code caller) := by
  intro u inside
  rw [((σ.leave t).conclude_same t code caller).1] at inside
  have other : u ≠ t := by
    rintro rfl
    simp [Phase.At] at inside
  have before : (σ.phase u).At (.mutex mx) := by simpa [other] using inside
  have holder : ((σ.leave t).conclude t code caller).holder mx = σ.holder mx ∨
      ((σ.leave t).conclude t code caller).holder mx = some t := by
    cases caller with
    | plain | eventWaitTimeout => exact Or.inl rfl
    | mutexAcquire m =>
      by_cases failed : code < 0 <;> by_cases same : mx = m <;> simp [Sync.conclude, failed, same]
    | mutexAcquireTimeout m =>
      by_cases expired : code = errTimedOut <;> by_cases same : mx = m <;>
        simp [Sync.conclude, expired, same]
  rcases holder with same | taken
  · rw [same]
    exact apart u before
  · rw [taken]
    exact fun equal => other (Option.some.inj equal).symm

theorem NotOwner.step {may : Intent → Prop} (apart : NotOwner mx σ)
    (action : Action may σ os' σ') : NotOwner mx σ' := by
  cases action with
  | @wait t timeout caller intent idle positive must other =>
    obtain ⟨phase, -, holder, -⟩ := σ.enlist_same caller
    intro u inside
    show (σ.enlist caller).holder mx ≠ some u
    rw [holder]
    obtain rfl | same := eq_or_ne u t
    · refine other mx ?_
      simpa [Sync.join, Phase.At] using inside
    · refine apart u ?_
      simpa [Sync.join, phase, same] using inside
  | refuse | expire | pass | consume | unsignal | dpcStart => exact apart
  | @finish t timeout caller code released => exact apart.finish code
  | wakeOne | unblock => exact apart.mono (fun _ => at_of_drop) (Or.inl rfl)
  | wakeAll => exact apart.mono (fun _ => at_of_dropAll) (Or.inl rfl)
  | @timeout t w armed waits => exact apart.mono (fun _ => at_of_drop (w := w)) (Or.inl rfl)
  | @acquire t m free other idle =>
    intro u inside
    have before : (σ.phase u).At (.mutex mx) := inside
    have different : u ≠ t := by
      rintro rfl
      simp [idle, Phase.At] at before
    obtain rfl | same := eq_or_ne mx m
    · simpa [eq_comm] using different
    · have kept := apart u before
      simpa [same] using kept
  | @release t m holds nobody =>
    refine apart.mono (fun _ => id) ?_
    by_cases same : mx = m <;> simp [Sync.unlock, same]
  | @handOver t u m rest holds first counted =>
    refine apart.mono (fun _ => at_of_drop (σ := σ.unlock m)) ?_
    by_cases same : mx = m <;> simp [Sync.drop, Sync.unlock, same]
  | @destroyMutex m intent =>
    exact apart.mono (fun _ => at_of_dropAll (σ := σ.addCount m (-σ.count m))) (Or.inl rfl)
  | signal signal => exact apart.signal signal
  | @destroyEvent n intent =>
    exact apart.mono (fun _ => at_of_dropAll (σ := σ.setSignalled (.user n) false)) (Or.inl rfl)
  | dpcQueue alive signal =>
    have signalled := apart.signal signal
    exact signalled

end Holders

section Bodies

variable {k : Kernel} {m' : Machine}

theorem mutexAcquire_cases {now : Time} (next : settle (mutexAcquire k mx now) = some m') :
    (m'.control = .resched ∧ m'.kernel.mutexHolder = k.mutexHolder) ∨
      m'.control = .ret noError := by
  unfold mutexAcquire at next
  split at next
  · cases next
  · dsimp only at next
    split at next
    · cases next
      exact Or.inl ⟨rfl, rfl⟩
    · cases next
      exact Or.inr rfl

theorem mutexHolder_enterWait (w : WaitQueueId) (timeout now : Time) :
    (enterWait k w timeout now).mutexHolder = k.mutexHolder := by
  unfold enterWait
  split <;> rfl

theorem mutexAcquireTimeout_cases {now : Time}
    (next : settle (mutexAcquireTimeout k mx timeout now) = some m') :
    (m'.control = .resched ∧ m'.kernel.mutexHolder = k.mutexHolder) ∨
      m'.control = .ret noError ∨
      (m'.control = .ret errTimedOut ∧ m'.kernel.mutexHolder mx ≠ some k.currentThread) := by
  unfold mutexAcquireTimeout at next
  split at next
  · cases next
  · rename_i other
    split at next
    · rcases mutexAcquire_cases next with blocked | done
      · exact Or.inl blocked
      · exact Or.inr (Or.inl done)
    · dsimp only at next
      split at next
      · unfold waitQueueBlock at next
        split at next
        · cases next
          exact Or.inr (Or.inr ⟨rfl, other⟩)
        · cases next
          exact Or.inl ⟨rfl, mutexHolder_enterWait _ _ _⟩
      · cases next
        exact Or.inr (Or.inl rfl)

theorem mutexHolder_leaveWait (k : Kernel) (w : WaitQueueId) (timeout : Time) :
    (leaveWait (pop k) w timeout).mutexHolder = k.mutexHolder := by
  unfold leaveWait
  split <;> rfl

theorem mutexAcquireWoken_cases
    (next : settle (waitQueueUnblocked (pop k) timeout (.mutexAcquire mx)
      (mutexAcquireWoken mx)) = some m') :
    m'.control = .ret (k.waitQueueBlockRet k.currentThread) ∧
      (k.waitQueueBlockRet k.currentThread < 0 → m'.kernel.mutexHolder = k.mutexHolder) := by
  unfold waitQueueUnblocked mutexAcquireWoken at next
  split at next
  · cases next
    exact ⟨rfl, fun _ => mutexHolder_leaveWait k (.mutex mx) timeout⟩
  · rename_i success
    cases next
    exact ⟨rfl, fun failed => absurd failed success⟩

theorem mutexAcquireTimeoutWoken_cases
    (next : settle (waitQueueUnblocked (pop k) timeout (.mutexAcquireTimeout mx)
      (mutexAcquireTimeoutWoken mx)) = some m') :
    m'.control = .ret (k.waitQueueBlockRet k.currentThread) ∧
      (k.waitQueueBlockRet k.currentThread = errTimedOut → m'.kernel.mutexHolder = k.mutexHolder) ∧
      (k.waitQueueBlockRet k.currentThread ≠ errTimedOut →
        m'.kernel.mutexHolder mx = some k.currentThread) := by
  unfold waitQueueUnblocked mutexAcquireTimeoutWoken at next
  split at next
  · rename_i expired
    cases next
    exact ⟨rfl, fun _ => mutexHolder_leaveWait k (.mutex mx) timeout,
      fun other => absurd expired.2 other⟩
  · rename_i other
    cases next
    refine ⟨rfl, fun expired => ?_, fun _ => ?_⟩
    · have negative : k.waitQueueBlockRet k.currentThread < noError := by
        rw [expired]
        decide
      exact absurd ⟨negative, expired⟩ other
    · exact (Function.update_self ..).trans
        (congrArg some (current_leaveWait k (.mutex mx) timeout))

end Bodies

/-- The running thread is back from the wait that `caller` made. -/
def Woken (caller : Waiter) (m : Machine) : Prop :=
  ∃ r timeout below, m.control = .ret r ∧
    m.kernel.stack m.kernel.currentThread = .waitQueueBlock timeout caller :: below

/-- The step runs code of `mutex_acquire` or `mutex_acquire_timeout`, from its call to
its wait or from its wait to its return. -/
def InAcquire (mx : Nat) (m : Machine) : Label → Prop
  | .call (.mutexAcquire n _) => n = mx
  | .call (.mutexAcquireTimeout n _ _) => n = mx
  | .kernel => Woken (.mutexAcquire mx) m ∨ Woken (.mutexAcquireTimeout mx) m
  | _ => False

def Disowned (mx : Nat) (m m' : Machine) : Prop :=
  ∀ code, m'.control = .ret code → code < 0 →
    m'.kernel.mutexHolder mx ≠ some m.kernel.currentThread

/-- The last wait of the thread was for the mutex and was ended by `mutex_destroy`, or from
outside with an error that is not the timeout. -/
def Evicted (mx : Nat) (t : Tid) (os : List Observation) : Prop :=
  ∃ cause code, lastRemoval t os = some (.mutex mx, cause, code) ∧
    (cause = .wakeAll ∨ (cause = .unblock ∧ code < 0 ∧ code ≠ errTimedOut))

variable {initial : Nat → Bool} {flags : Nat → BitVec 32} {m m' : Machine} {l : Label}

theorem step_call {c : Call} (next : step m (.call c) = some m') :
    m.control = .user ∧
      settle (callBody (push m.kernel (.call m.kernel.criticalSectionCount)) c) = some m' := by
  obtain ⟨k, control⟩ := m
  cases control with
  | user =>
    dsimp only [step] at next
    split at next
    · exact ⟨rfl, next⟩
    · cases next
  | ret | resched => cases next

theorem acquire_call_cases {c : Call} (acquire : InAcquire mx m (.call c))
    (next : step m (.call c) = some m') :
    m.control = .user ∧
      ((m'.control = .resched ∧ m'.kernel.mutexHolder = m.kernel.mutexHolder) ∨
        m'.control = .ret noError ∨ (m'.control = .ret errTimedOut ∧
          m'.kernel.mutexHolder mx ≠ some m.kernel.currentThread)) := by
  obtain ⟨user, body⟩ := step_call next
  refine ⟨user, ?_⟩
  cases c with
  | mutexAcquire n now =>
    rcases mutexAcquire_cases body with blocked | done
    · exact Or.inl blocked
    · exact Or.inr (Or.inl done)
  | mutexAcquireTimeout n timeout now =>
    obtain rfl : n = mx := acquire
    have ways := mutexAcquireTimeout_cases body
    exact ways
  | _ => exact acquire.elim

theorem step_woken (woken : Woken caller m) (next : step m .kernel = some m') :
    ∃ timeout, settle (waitQueueUnblocked (pop m.kernel) timeout caller
      (waiterGoesOn caller)) = some m' := by
  obtain ⟨k, control⟩ := m
  obtain ⟨r, timeout, below, rfl, top⟩ := woken
  dsimp only [step] at next
  rw [top] at next
  exact ⟨timeout, next⟩

section Reached

variable (reach : Reach step (fun s l => proper s l = true) (threadInitEarly initial flags) m)
include reach

theorem reach_acquire (mx : Nat) : Consistent m ∧ Chronicled (view m.kernel) m.kernel.trace ∧
      (∀ o ∈ m.kernel.trace, Coded mx o) ∧ NotOwner mx (view m.kernel) := by
  refine reach_sync
    (I := fun σ os => Chronicled σ os ∧ (∀ o ∈ os, Coded mx o) ∧ NotOwner mx σ)
    (fun _ _ => id) ⟨chronicled_threadInitEarly, by simp,
      fun t _ => by simp [view, threadInitEarly]⟩ ?_ reach
  rintro s l os σ consistent - ⟨chronicled, coded, apart⟩ action
  refine ⟨chronicled.step (Consistent.coherent consistent) action, fun o member => ?_,
    apart.step action⟩
  rcases List.mem_append.mp member with old | new
  · exact coded o old
  · exact coded_action action o new

theorem woken_removed (woken : Woken caller m) (acquires : caller.queue = .mutex mx) :
    m.kernel.mutexHolder mx ≠ some m.kernel.currentThread ∧ ∃ cause,
      lastRemoval m.kernel.currentThread m.kernel.trace = some (.mutex mx, cause,
        m.kernel.waitQueueBlockRet m.kernel.currentThread) ∧
      Coded mx (.removed m.kernel.currentThread (.mutex mx) cause
        (m.kernel.waitQueueBlockRet m.kernel.currentThread)) := by
  obtain ⟨consistent, ⟨stage, lived, -, tells⟩, coded, apart⟩ := reach_acquire reach mx
  obtain ⟨r, timeout, below, control, top⟩ := woken
  have sound : Sound m.kernel (some m.kernel.currentThread) := by
    simpa only [Consistent, control] using consistent
  have phase := phase_released sound top
  obtain ⟨cause, removed⟩ := Tells.removed (phase ▸ tells m.kernel.currentThread)
  have told := lived.told m.kernel.currentThread
  rw [removed, acquires] at told
  refine ⟨apart _ ?_, cause, Told.lastRemoval told, ?_⟩
  · rw [phase]
    exact acquires
  · obtain ⟨-, -, a, b, c, split, -, -⟩ := told
    refine coded _ ?_
    rw [split]
    simp

theorem woken_acquire (woken : Woken (.mutexAcquire mx) m) (next : step m .kernel = some m') :
    m'.control ≠ .resched ∧ Disowned mx m m' := by
  obtain ⟨other, -⟩ := woken_removed reach woken rfl
  obtain ⟨timeout, body⟩ := step_woken woken next
  obtain ⟨returned, kept⟩ := mutexAcquireWoken_cases body
  refine ⟨by simp [returned], fun code control failed => ?_⟩
  rw [returned] at control
  cases control
  rw [kept failed]
  exact other

theorem woken_acquireTimeout
    (woken : Woken (.mutexAcquireTimeout mx) m) (next : step m .kernel = some m') :
    m'.control ≠ .resched ∧
      (Disowned mx m m' ↔ ¬ Evicted mx m.kernel.currentThread m.kernel.trace) := by
  obtain ⟨other, cause, removal, coded⟩ := woken_removed reach woken rfl
  obtain ⟨timeout, body⟩ := step_woken woken next
  obtain ⟨returned, kept, taken⟩ := mutexAcquireTimeoutWoken_cases body
  refine ⟨by simp [returned], ?_, ?_⟩
  · rintro disowned ⟨cause', code, same, ending⟩
    rw [removal] at same
    cases same
    have failed : m.kernel.waitQueueBlockRet m.kernel.currentThread < 0 ∧
        m.kernel.waitQueueBlockRet m.kernel.currentThread ≠ errTimedOut := by
      rcases ending with rfl | ⟨-, failed⟩
      · rw [coded rfl]
        decide
      · exact failed
    exact disowned _ returned failed.1 (taken failed.2)
  · intro spared code control failed
    rw [returned] at control
    cases control
    by_cases expired : m.kernel.waitQueueBlockRet m.kernel.currentThread = errTimedOut
    · rw [kept expired]
      exact other
    · refine absurd ⟨cause, _, removal, ?_⟩ spared
      cases cause with
      | wakeOne =>
        rw [coded rfl] at failed
        cases failed
      | wakeAll => exact Or.inl rfl
      | timer => exact absurd (coded rfl) expired
      | unblock => exact Or.inr ⟨rfl, failed, expired⟩

end Reached

theorem Woken.caller_eq {caller' : Waiter} (woken : Woken caller m) (woken' : Woken caller' m) :
    caller = caller' := by
  obtain ⟨r, timeout, below, -, top⟩ := woken
  obtain ⟨r', timeout', below', -, top'⟩ := woken'
  rw [top] at top'
  exact (Frame.waitQueueBlock.inj (List.cons.inj top').1).2

/-- Along every run, an acquire that returns an error has not made its caller the holder,
unless it is `mutex_acquire_timeout` and its wait was ended by `mutex_destroy` or from
outside. An acquire that starts to wait leaves the holder. -/
theorem failed_acquire_disowned_iff
    (reach : Reach step (fun s l => proper s l = true) (threadInitEarly initial flags) m)
    (acquire : InAcquire mx m l) (next : step m l = some m') :
    (Disowned mx m m' ↔ ¬ (Woken (.mutexAcquireTimeout mx) m ∧
      Evicted mx m.kernel.currentThread m.kernel.trace)) ∧
    (m'.control = .resched → m'.kernel.mutexHolder = m.kernel.mutexHolder) := by
  rcases l with call | _ | _ | _ | _ | _ | _
  · obtain ⟨user, ways⟩ := acquire_call_cases acquire next
    have fresh : ¬ Woken (.mutexAcquireTimeout mx) m := by
      rintro ⟨r, timeout, below, control, -⟩
      rw [user] at control
      cases control
    rcases ways with ⟨blocked, same⟩ | done | ⟨expired, other⟩
    · refine ⟨iff_of_true ?_ fun evicted => fresh evicted.1, fun _ => same⟩
      intro code control
      rw [blocked] at control
      cases control
    · refine ⟨iff_of_true ?_ fun evicted => fresh evicted.1, by simp [done]⟩
      intro code control failed
      rw [done] at control
      cases control
      cases failed
    · exact ⟨iff_of_true (fun _ _ _ => other) fun evicted => fresh evicted.1, by simp [expired]⟩
  case kernel =>
    rcases acquire with woken | woken
    · obtain ⟨returned, disowned⟩ := woken_acquire reach woken next
      refine ⟨iff_of_true disowned fun evicted => ?_, fun blocked => absurd blocked returned⟩
      cases woken.caller_eq evicted.1
    · obtain ⟨returned, disowned⟩ := woken_acquireTimeout reach woken next
      refine ⟨disowned.trans ?_, fun blocked => absurd blocked returned⟩
      rw [and_iff_right woken]
  all_goals exact acquire.elim

def heldAndWanted : List Label :=
  List.flatten [Label.idleAndOne, Label.upTo (.call (.threadCreate 20 true)) 1,
    Label.upTo (.call (.threadResume 2)) 2,
    Label.upTo (.call (.mutexAcquire 0 0)) 1, Label.upTo (.call (.threadSleep 1000 0)) 4,
    Label.upTo (.call (.mutexAcquireTimeout 0 5 0)) 4]

/-- The running thread, its frames and how its last wait was ended, and the control and the
holder of mutex 0 after one step. -/
structure Ending where
  control : Control
  thread : Tid
  frames : List Frame
  removal : Option (WaitQueueId × Cause × Status)
  next : Option (Control × Option Tid)
  deriving DecidableEq

def backFromWait (m : Machine) : Ending where
  control := m.control
  thread := m.kernel.currentThread
  frames := m.kernel.stack m.kernel.currentThread
  removal := lastRemoval m.kernel.currentThread m.kernel.trace
  next := (step m .kernel).map fun m' => (m'.control, m'.kernel.mutexHolder 0)

theorem exists_woken_of_replay (ls : List Label) (cause : Cause) (code : Status) (holder : Option Tid)
    (run : (guardedReplay step proper (threadInitEarly (fun _ => false) (fun _ => 0)) ls).any
      (fun m => backFromWait m = ⟨.ret 0, 1,
        [.waitQueueBlock 5 (.mutexAcquireTimeout 0), .call 0, .threadEntry],
        some (.mutex 0, cause, code), some (.ret code, holder)⟩) = true) :
    ∃ m m', Reach step (fun s l => proper s l = true)
        (threadInitEarly (fun _ => false) (fun _ => 0)) m ∧
      InAcquire 0 m .kernel ∧ step m .kernel = some m' ∧ m.kernel.currentThread = 1 ∧
      lastRemoval m.kernel.currentThread m.kernel.trace = some (.mutex 0, cause, code) ∧
      m'.control = .ret code ∧ m'.kernel.mutexHolder 0 = holder := by
  obtain ⟨m, reach, ended⟩ := exists_reach_of_replay ls _ run fun _ _ => id
  simp only [backFromWait, Ending.mk.injEq, Prod.mk.injEq, Option.map_eq_some_iff] at ended
  obtain ⟨control, current, stack, removal, m', next, control', holder'⟩ := ended
  exact ⟨m, m', reach, Or.inr ⟨0, 5, _, control, stack⟩, next, current, removal, control', holder'⟩

theorem failed_acquire_disowned_iff_timeout : ∃ m m',
    Reach step (fun s l => proper s l = true) (threadInitEarly (fun _ => false) (fun _ => 0)) m ∧
      InAcquire 0 m .kernel ∧ step m .kernel = some m' ∧ m'.control = .ret errTimedOut ∧
      Disowned 0 m m' := by
  obtain ⟨m, m', reach, acquire, next, -, removal, returned, -⟩ :=
    exists_woken_of_replay (heldAndWanted ++ Label.upTo (.timerIrq 100) 4) .timer errTimedOut
      (some 2) (by decide +kernel)
  refine ⟨m, m', reach, acquire, next, returned,
    (failed_acquire_disowned_iff reach acquire next).1.mpr ?_⟩
  rintro ⟨-, cause, code, last, ending⟩
  rw [removal] at last
  cases last
  rcases ending with destroyed | ⟨outside, -⟩
  · cases destroyed
  · cases outside

theorem destroyed_acquire_claims : ∃ m m',
    Reach step (fun s l => proper s l = true) (threadInitEarly (fun _ => false) (fun _ => 0)) m ∧
      InAcquire 0 m .kernel ∧ step m .kernel = some m' ∧ m'.control = .ret errObjectDestroyed ∧
      ¬ Disowned 0 m m' := by
  obtain ⟨m, m', reach, acquire, next, current, -, returned, holder⟩ :=
    exists_woken_of_replay (heldAndWanted ++ Label.upTo (.call (.mutexDestroy 0)) 1) .wakeAll
      errObjectDestroyed (some 1) (by decide +kernel)
  refine ⟨m, m', reach, acquire, next, returned, fun disowned => ?_⟩
  refine disowned errObjectDestroyed returned (by decide) ?_
  rw [holder, current]

end AndroidBoot.LittleKernel.FailedAcquire
