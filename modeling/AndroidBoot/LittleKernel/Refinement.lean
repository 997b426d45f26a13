/- source: bootable/lk/kernel/*.c
   digest: Every kernel function keeps the invariant and is at most one abstract action. -/

import AndroidBoot.LittleKernel.WaitQueue

set_option autoImplicit false

namespace AndroidBoot.LittleKernel.Refinement

open Function
open State Timer Thread Mutex Event Machine SchedulerInvariant SyncModel KernelView WaitQueue
open Foundation.Resumption

variable {σ : Sync} {os : List Observation} {k' : Kernel} {now : Time} {m n : Nat} {e : EventId}

variable {k : Kernel} {running : Option Tid} {may : Intent → Prop}

/-- The view and the history are those of `k`, or one action later. -/
def Reaches (may : Intent → Prop) (k : Kernel) (σ : Sync) (os : List Observation) : Prop :=
  (σ = view k ∧ os = k.trace) ∨ ∃ new, Action may (view k) new σ ∧ os = k.trace ++ new

theorem Reaches.unseen (same : σ = view k) (trace : os = k.trace) : Reaches may k σ os :=
  Or.inl ⟨same, trace⟩

theorem Reaches.act {new : List Observation} (action : Action may (view k) new σ)
    (trace : os = k.trace ++ new) : Reaches may k σ os :=
  Or.inr ⟨new, action, trace⟩

theorem Reaches.act_silent (action : Action may (view k) [] σ) (trace : os = k.trace) :
    Reaches may k σ os :=
  .act action (by rw [trace, List.append_nil])

theorem Reaches.congr {σ' : Sync} (reaches : Reaches may k σ' os) (same : σ = σ') :
    Reaches may k σ os :=
  same ▸ reaches

attribute [local simp] enterCriticalSection servesDpc calm waits

theorem keeps_switch {frames : List Frame} (moved : Live k' none ∧ view k' = view k)
    (trace : k'.trace = k.trace) (quiet : ∀ f ∈ frames, calm f = true) :
    Keeps k running (Reaches may k) (.switch k' frames) :=
  ⟨moved.1, quiet, .unseen moved.2 trace⟩

theorem keeps_done {r : Int} (moved : Live k' running ∧ view k' = view k)
    (current : k'.currentThread = k.currentThread) (trace : k'.trace = k.trace) :
    Keeps k running (Reaches may k) (.done k' r) :=
  ⟨moved.1, current, .unseen moved.2 trace⟩

theorem keeps_from {o : Result} (keeps : Keeps k' running (Reaches may k') o)
    (current : k'.currentThread = k.currentThread) (same : view k' = view k)
    (trace : k'.trace = k.trace) : Keeps k running (Reaches may k) o := by
  have reaches : ∀ σ os, Reaches may k' σ os → Reaches may k σ os := by
    unfold Reaches
    rw [same, trace]
    exact fun _ _ post => post
  exact keeps.from_start current reaches

section Yielding

variable (live : Live k (some k.currentThread))
include live

theorem keeps_threadYield : Keeps k (some k.currentThread) (Reaches may k) (threadYield k) := by
  refine keeps_switch (live.moved ?_ ?_ rfl (fun _ => rfl) rfl rfl rfl) rfl ?_
  · exact live.sound.placed.requeue_tail (by simp [settled])
  · exact live.set_current_state .ready (by simp [Awake])
  · simp

theorem keeps_threadPreempt : Keeps k (some k.currentThread) (Reaches may k) (threadPreempt k) := by
  have quiet : ∀ f ∈ [Frame.threadPreempt], calm f = true := by simp
  have awake := live.set_current_state .ready (by simp [Awake])
  dsimp only [threadPreempt]
  split <;> refine keeps_switch (live.moved ?_ awake rfl (fun _ => rfl) rfl rfl rfl) rfl quiet
  · exact live.sound.placed.requeue_head (by simp [settled])
  · exact live.sound.placed.requeue_tail (by simp [settled])

theorem keeps_threadResume {t : Tid} (suspended : k.state t = .suspended) (old : t < k.nextThread) :
    Keeps k (some k.currentThread) (Reaches may k) (threadResume k t) := by
  have runs := live.sound.placed.state_running
  have different : k.currentThread ≠ t := by
    rintro rfl
    simp [suspended] at runs
  have noTimer : .sleep t ∉ k.timerQueue := by
    intro member
    have sleeping := live.sound.placed.sleep_timer t member
    simp [suspended] at sleeping
  have started := live.sound.placed.start (t := t) (by simp [suspended]) (by simp [suspended])
    (by simpa using different) noTimer old
  have state : ∀ u, update k.state t .ready u = k.state u ∨
      (Awake (k.state u) ∧ Awake (update k.state t .ready u)) := by
    intro u
    obtain rfl | same := eq_or_ne u t
    · exact Or.inr ⟨by simp [Awake, suspended], by simp [Awake]⟩
    · exact Or.inl (by simp [same])
  have moved : Live (onSched (enterCriticalSection k) fun s =>
        insertInRunQueueHead (setState s t .ready) t) (some k.currentThread) ∧
      view (onSched (enterCriticalSection k) fun s =>
        insertInRunQueueHead (setState s t .ready) t) = view k :=
    live.moved started state rfl (fun _ => rfl) rfl rfl rfl
  unfold threadResume
  rw [if_neg (by simp [suspended])]
  exact keeps_from ((keeps_threadYield moved.1).andThen_exit rfl) rfl moved.2 rfl

theorem keeps_threadSleep {delay : Time} :
    Keeps k (some k.currentThread) (Reaches may k) (threadSleep k delay now) := by
  have runs := live.sound.placed.state_running
  have noTimer : .sleep k.currentThread ∉ k.timerQueue := by
    intro member
    have sleeping := live.sound.placed.sleep_timer _ member
    simp [runs] at sleeping
  have left := live.sound.placed.leave .sleeping (by simp) (by simp) (by simp)
  refine keeps_switch (live.moved ?_ ?_ rfl ?_ rfl rfl rfl) rfl ?_
  · exact left.add_sleep_timer (by simp [setState]) noTimer _ _
  · exact live.set_current_state .sleeping (by simp [Awake])
  · intro t
    refine (insertTimerInQueue_count _ _ _ _).trans ?_
    exact List.count_cons_of_ne (by simp)
  · simp

end Yielding

def Consistent (m : Machine) : Prop :=
  match m.control with
  | .user => Live m.kernel (some m.kernel.currentThread)
  | .ret _ => Sound m.kernel (some m.kernel.currentThread)
  | .resched => Sound m.kernel none

/-- The machine that kernel code started in `k` leads to, if any, is consistent
and at most one action further. -/
def Follows (may : Intent → Prop) (k : Kernel) (o : Option Machine) : Prop :=
  ∀ m, o = some m → Consistent m ∧ Reaches may k (view m.kernel) m.kernel.trace

theorem follows_user (live : Live k' (some k'.currentThread))
    (reaches : Reaches may k (view k') k'.trace) : Follows may k (some ⟨k', .user⟩) := by
  rintro m ⟨⟩
  exact ⟨live, reaches⟩

theorem follows_ret {r : Int} (live : Live k' (some k'.currentThread))
    (reaches : Reaches may k (view k') k'.trace) : Follows may k (some ⟨k', .ret r⟩) := by
  rintro m ⟨⟩
  exact ⟨live.sound, reaches⟩

theorem follows_settle {o : Result} (keeps : Keeps k (some k.currentThread) (Reaches may k) o) :
    Follows may k (settle o) := by
  cases o with
  | done k' r =>
    obtain ⟨live, current, reaches⟩ := keeps
    rw [← current] at live
    exact follows_ret live reaches
  | switch k' frames =>
    obtain ⟨live, calm, reaches⟩ := keeps
    rintro m ⟨⟩
    refine ⟨(live.pushAll frames calm).sound, ?_⟩
    rw [live.view_pushAll frames calm]
    exact reaches
  | halt =>
    rintro m ⟨⟩

variable {timeout : Time}

/-- A caller of `wait_queue_block` that has entered `k` from `k₀` by counting itself. -/
theorem follows_waitQueueBlock {k₀ : Kernel} {caller : Waiter}
    {rest : Kernel → Status → Result} (live : Live k (some k.currentThread))
    (enlisted : view k = (view k₀).enlist caller) (trace : k.trace = k₀.trace)
    (intent : timeout ≠ 0 → may (.join caller)) (must : (view k₀).mustWait timeout caller)
    (other : ∀ m, caller.queue = .mutex m → k₀.mutexHolder m ≠ some k.currentThread)
    (served : caller = .eventWaitTimeout .dpc → k.dpcThread ≠ none)
    (refused : timeout = 0 → Follows may k₀ (settle
      (rest (observe k (.returned k.currentThread caller.queue timeout errTimedOut))
        errTimedOut))) : Follows may k₀ (settle (waitQueueBlock k timeout now caller rest)) := by
  have idle : (view k₀).phase k.currentThread = .idle := by
    have idle := live.phase_idle
    rw [enlisted] at idle
    cases caller <;> exact idle
  unfold waitQueueBlock
  split_ifs with zero
  · exact refused zero
  · rintro m ⟨⟩
    refine ⟨sound_enterWait live served, ?_⟩
    rw [view_enterWait live, enlisted]
    refine .act (.wait (intent zero) idle zero must other) ?_
    rw [← trace]
    exact trace_enterWait k caller.queue timeout now

section

variable (live : Live k (some k.currentThread))
include live

theorem follows_mutexAcquire
    (intent : may (.join (.mutexAcquire m))) : Follows may k (settle (mutexAcquire k m now)) := by
  unfold mutexAcquire
  split_ifs with owner
  · rintro m ⟨⟩
  · dsimp only
    split
    case isTrue contended =>
      refine follows_waitQueueBlock { live with } rfl rfl (fun _ => intent)
        ⟨rfl, ?_⟩ ?_ (by simp) (fun zero => absurd zero (by decide))
      · simpa [view] using contended
      · rintro _ ⟨⟩
        exact owner
    case isFalse free =>
      refine follows_ret { live with } (.act_silent (.acquire ?_ owner live.phase_idle) rfl)
      simpa [view] using free

/-- `mutex_acquire_timeout`; a zero timeout on a contended mutex counts and uncounts itself. -/
theorem follows_mutexAcquireTimeout
    (intent : timeout = infiniteTime → may (.join (.mutexAcquire m)))
    (intent' : timeout ≠ 0 → may (.join (.mutexAcquireTimeout m))) :
    Follows may k (settle (mutexAcquireTimeout k m timeout now)) := by
  unfold mutexAcquireTimeout
  by_cases owner : k.mutexHolder m = some k.currentThread
  · rw [if_pos owner]
    rintro m ⟨⟩
  · rw [if_neg owner]
    by_cases forever : timeout = infiniteTime
    · rw [if_pos forever]
      exact follows_mutexAcquire live (intent forever)
    · rw [if_neg forever]
      dsimp only
      split
      case isTrue contended =>
        refine follows_waitQueueBlock { live with } rfl rfl intent' ⟨forever, ?_⟩ ?_ (by simp) ?_
        · simpa [view] using contended
        · rintro _ ⟨⟩
          exact owner
        · rintro rfl
          refine follows_ret { live with } ?_
          refine Reaches.congr (.act (.refuse live.phase_idle) rfl)
            (Sync.ext rfl rfl rfl ?_ rfl rfl rfl rfl rfl)
          simp [view, observe, exitCriticalSection]
      case isFalse free =>
        refine follows_ret { live with } (.act_silent (.acquire ?_ owner live.phase_idle) rfl)
        simpa [view] using free

theorem keeps_mutexRelease : Keeps k (some k.currentThread) (Reaches may k) (mutexRelease k m) := by
  unfold mutexRelease
  by_cases owner : k.mutexHolder m = some k.currentThread
  · rw [if_neg (not_not_intro owner)]
    have live' : Live (giveBack (enterCriticalSection k) m) (some k.currentThread) := { live with }
    have count : (giveBack (enterCriticalSection k) m).mutexCount m = (view k).count m - 1 := by
      simp [giveBack, view]
    dsimp only
    rw [count]
    split
    case isTrue more =>
      rcases queue : (giveBack (enterCriticalSection k) m).waitList (.mutex m) with
        _ | ⟨t, rest⟩
      · rw [waitQueueWakeOne_nil queue]
        exact ⟨{ live with }, rfl, .act_silent (.release owner (Or.inr queue)) rfl⟩
      · obtain ⟨k', seen, trace, -, ⟨⟨⟩, -⟩ | ⟨-, live', body⟩⟩ :=
          waitQueueWakeOne_cons true noError live' (fun _ => rfl) queue
        rw [body]
        refine ⟨live', by simp, ?_⟩
        rw [seen]
        exact .act (.handOver owner queue more) trace
    case isFalse last =>
      exact ⟨{ live with }, rfl, .act_silent (.release owner (Or.inl (not_le.mp last))) rfl⟩
  · rw [if_pos owner]
    trivial

theorem keeps_mutexDestroy (intent : may (.destroyMutex m)) :
    Keeps k (some k.currentThread) (Reaches may k) (mutexDestroy k m) := by
  refine Keeps.andThen_exit ?_ rfl
  refine Keeps.from_start (keeps_waitQueueWakeAll { live with } fun _ => rfl) rfl ?_
  rintro σ os ⟨rfl, rfl⟩
  refine Reaches.congr (.act (.destroyMutex intent) rfl) ?_
  refine congrArg (Sync.dropAll · _ _) (Sync.ext rfl rfl rfl ?_ rfl rfl rfl rfl rfl)
  simp [view, Sync.addCount]

theorem follows_eventWaitTimeout (intent : timeout ≠ 0 → may (.join (.eventWaitTimeout e)))
    (served : e = .dpc → k.dpcThread ≠ none) :
    Follows may k (settle (eventWaitTimeout k e timeout now)) := by
  have auto : autoUnsignal (enterCriticalSection k) e = (view k).auto e := rfl
  unfold eventWaitTimeout
  rcases signalled : k.signalled e with _ | _
  · rw [if_neg (by simp [signalled])]
    refine follows_waitQueueBlock { live with } rfl rfl intent signalled
      (by simp [Waiter.queue]) (fun equal => served (Waiter.eventWaitTimeout.inj equal)) ?_
    rintro rfl
    exact follows_ret { live with } (.act (.refuse live.phase_idle) rfl)
  · rw [if_pos (by simp [signalled])]
    rcases kind : (view k).auto e with _ | _
    · rw [auto, kind, if_neg (by simp)]
      exact follows_ret { live with } (.act (.pass signalled kind) rfl)
    · rw [auto, kind, if_pos rfl]
      have dpc := live.sound.dpc.set_signalled (e := e) (b := false) (by simp)
      exact follows_ret { live with sound := { live.sound with dpc } }
        (.act (.consume signalled kind) rfl)

end

theorem Live.setSignalled {b : Bool} (live : Live k running)
    (ready : b = true → e = .dpc → k.dpcThread ≠ none) : Live (setSignalled k e b) running :=
  { live with sound := { live.sound with dpc := live.sound.dpc.set_signalled ready } }

theorem keeps_signalOne {reschedule : Bool} (live : Live k running)
    (runs : reschedule = true → running = some k.currentThread)
    (ready : e = .dpc → k.dpcThread ≠ none) (clear : k.signalled e = false)
    (auto : (view k).auto e = true) :
    Keeps k running (fun σ os => ∃ new, Signal (view k) e new σ ∧ os = k.trace ++ new)
      ((waitQueueWakeOne (enterCriticalSection (observe k (.signal e false))) (.event e)
        reschedule noError).absorb (.eventSignalOne e) (eventSignalOneDone e)) := by
  have entered : Live (enterCriticalSection (observe k (.signal e false))) running := { live with }
  rcases queue : (enterCriticalSection (observe k (.signal e false))).waitList (.event e) with
    _ | ⟨t, rest⟩
  · rw [waitQueueWakeOne_nil queue]
    have stored := Live.setSignalled (b := true) entered fun _ => ready
    exact ⟨{ stored with }, rfl, _, .stored clear auto queue, List.append_assoc _ _ _⟩
  · obtain ⟨k', seen, trace, current, woken⟩ :=
      waitQueueWakeOne_cons reschedule noError entered runs queue
    have reached : ∃ new, Signal (view k) e new (view k') ∧ k'.trace = k.trace ++ new := by
      rw [seen, trace]
      exact ⟨_, .one clear auto queue, List.append_assoc _ _ _⟩
    rcases woken with ⟨-, live', body⟩ | ⟨-, live', body⟩
    · rw [body]
      exact ⟨{ live' with }, current, reached⟩
    · rw [body]
      exact ⟨live', by simp, reached⟩

theorem keeps_eventSignal {reschedule : Bool} (live : Live k running)
    (runs : reschedule = true → running = some k.currentThread)
    (ready : e = .dpc → k.dpcThread ≠ none) :
    Keeps k running (fun σ os => ∃ new, Signal (view k) e new σ ∧ os = k.trace ++ new)
      (eventSignal k e reschedule) := by
  have kindOf : ∀ o, autoUnsignal (enterCriticalSection (observe k o)) e = (view k).auto e :=
    fun _ => rfl
  unfold eventSignal
  rcases clear : k.signalled e with _ | _
  · rw [if_neg (by simp [observe, clear]), kindOf]
    rcases kind : (view k).auto e with _ | _
    · refine Keeps.andThen_exit ?_ rfl
      refine Keeps.from_start (keeps_waitQueueWakeAll
        (Live.setSignalled { live with } fun _ => ready) runs) rfl ?_
      rintro σ os ⟨rfl, rfl⟩
      exact ⟨_, .all clear kind, List.append_assoc _ _ _⟩
    · exact keeps_signalOne live runs ready clear kind
  · rw [if_pos (by simp [observe, clear])]
    exact ⟨{ live with }, rfl, _, .ignored clear, rfl⟩

theorem live_eventUnsignal (live : Live k running) : Live (eventUnsignal k e) running := by
  have cleared := Live.setSignalled (e := e) (b := false) live (by simp)
  exact { cleared with }

theorem reaches_eventUnsignal (drained : e = .dpc → k.dpcList = []) :
    Reaches may k (view (eventUnsignal k e)) (eventUnsignal k e).trace :=
  .act (.unsignal drained) rfl

theorem keeps_eventDestroy (live : Live k (some k.currentThread))
    (intent : may (.destroyEvent (.user n))) :
    Keeps k (some k.currentThread) (Reaches may k) (eventDestroy k (.user n)) := by
  refine Keeps.andThen_exit ?_ rfl
  have cleared := Live.setSignalled (e := .user n) (b := false) live (by simp)
  refine Keeps.from_start (keeps_waitQueueWakeAll { cleared with
    sound := { cleared.sound with dpc := { cleared.sound.dpc with flags := ?_ } } }
    fun _ => rfl) rfl ?_
  · exact live.sound.dpc.flags
  · rintro σ os ⟨rfl, rfl⟩
    refine Reaches.congr (.act (.destroyEvent intent) rfl)
      (Sync.ext rfl rfl rfl rfl rfl rfl ?_ rfl rfl)
    funext e
    by_cases same : e = .user n <;> simp [Sync.dropAll, view, autoUnsignal,
      State.enterCriticalSection, Event.setSignalled, same]

/-- `dpc_queue`, where `σ` is the view before the call and the death it belongs to. -/
theorem keeps_dpcQueue {d : Dpc} (noresched : Bool) (live : Live k running)
    (runs : noresched = false → running = some k.currentThread)
    (queued : view (appendDpc k d) = σ.enqueue d) (alive : ∀ t, d = .threadCleanup t → ¬ σ.dead t) :
    Keeps k running (fun σ' os => ∃ new, Action may σ new σ' ∧ os = k.trace ++ new)
      (dpcQueue k d noresched) := by
  unfold dpcQueue
  split_ifs with unready
  · trivial
  · refine Keeps.andThen_exit ?_ rfl
    refine Keeps.from_start (keeps_eventSignal { live with }
      (fun asked => runs (by simpa using asked)) fun _ => unready) rfl ?_
    rintro σ' os ⟨new, signal, rfl⟩
    have onAppended : Signal (σ.enqueue d) .dpc new σ' := by
      rw [← queued]
      exact signal
    obtain ⟨τ, onSigma, rfl⟩ := onAppended.of_enqueue
    exact ⟨_, .dpcQueue alive onSigma, List.append_assoc _ _ _⟩

theorem keeps_dpcQueueDevice {noresched : Bool} (live : Live k (some k.currentThread)) :
    Keeps k (some k.currentThread) (Reaches may k) (dpcQueue k (.device n) noresched) := by
  have queued : Keeps k (some k.currentThread)
      (fun σ os => ∃ new, Action may (view k) new σ ∧ os = k.trace ++ new) _ :=
    keeps_dpcQueue noresched live (fun _ => rfl)
      (show _ = (view k).enqueue (.device n) from rfl) (by simp)
  refine queued.from_start rfl ?_
  rintro σ os ⟨new, action, trace⟩
  exact .act action trace

theorem eventSignal_stays (k : Kernel) (e : EventId) :
    (eventSignal k e false).Sat (fun _ _ => True) (fun _ _ => False) := by
  unfold eventSignal
  dsimp only
  split
  · trivial
  · split
    · unfold waitQueueWakeOne
      split <;> trivial
    · unfold waitQueueWakeAll
      simp

theorem dpcQueue_stays (k : Kernel) (d : Dpc) :
    (dpcQueue k d true).Sat (fun _ _ => True) (fun _ _ => False) := by
  unfold dpcQueue
  split
  · trivial
  · exact (eventSignal_stays _ _).andThen (fun _ _ _ => trivial) fun _ _ never => never.elim

variable {retcode : Int}

section

variable (live : Live k (some k.currentThread))
include live

theorem live_die : Live (die k retcode) none := by
  have died := live.sound.placed.leave .death (by simp) (by simp) (by simp)
  refine { live.reschedule died ?_ (fun _ => le_rfl) le_rfl rfl with }
  intro t blocked
  have blocked : update k.state k.currentThread .death t = .blocked := blocked
  obtain rfl | same := eq_or_ne t k.currentThread
  · simp at blocked
  · exact ⟨by simpa [same] using blocked, rfl⟩

theorem view_die :
    view (appendDpc (die k retcode) (.threadCleanup k.currentThread)) =
      (view k).enqueue (.threadCleanup k.currentThread) := by
  have phase : ∀ t, phaseOf (update k.state k.currentThread .death t)
      (k.waitQueueBlockRet t) (k.stack t) = (view k).phase t := by
    intro t
    obtain rfl | same := eq_or_ne t k.currentThread
    · rw [live.phase_idle, phaseOf_idle live.clean]
    · simp [view, same]
  have dead : ∀ t, (update k.state k.currentThread .death t = .death) =
      update (view k).dead k.currentThread True t := by
    intro t
    obtain rfl | same := eq_or_ne t k.currentThread
    · simp
    · simp [view, same]
  exact Sync.ext (funext phase) rfl rfl rfl rfl rfl rfl rfl (funext dead)

/-- `thread_exit`: the thread dies and its cleanup is queued, without a reschedule in between. -/
theorem keeps_threadExit :
    Keeps k (some k.currentThread) (Reaches may k) (threadExit k retcode) := by
  have alive : ∀ t, Dpc.threadCleanup k.currentThread = .threadCleanup t → ¬ (view k).dead t := by
    rintro t ⟨⟩
    show ¬ k.state k.currentThread = .death
    simp [live.sound.placed.state_running]
  have entered : Live (enterCriticalSection k) (some k.currentThread) := { live with }
  have queued : Keeps (die (enterCriticalSection k) retcode) none
      (fun σ os => ∃ new, Action may (view k) new σ ∧ os = k.trace ++ new) _ :=
    keeps_dpcQueue true (live_die entered) (by simp) (view_die entered) alive
  refine Outcome.Sat.andThen (queued.and (dpcQueue_stays _ _)) ?_ ?_
  · rintro k' r ⟨⟨live', -, new, action, trace⟩, -⟩
    exact ⟨live', by simp, .act action trace⟩
  · rintro k' frames ⟨-, ⟨⟩⟩

end

theorem live_threadCreate (entry : Entry) (priority : Priority) (dpcThread : Option Tid)
    (live : Live k running)
    (served : dpcThread = none →
      k.dpcThread = none ∧ servesDpc (.initialThreadFunc entry) = false) :
    Live { threadCreate k entry priority with dpcThread := dpcThread } running ∧
      view { threadCreate k entry priority with dpcThread := dpcThread } = view k := by
  have suspended := live.sound.placed.fresh k.nextThread le_rfl
  have empty := live.sound.stacked.fresh k.nextThread le_rfl
  have state : update k.state k.nextThread .suspended = k.state := by
    rw [← suspended, update_eq_self]
  have notArmed : .wait k.nextThread ∉ k.timerQueue := by
    intro member
    obtain ⟨timeout, caller, rest, stack, -⟩ := live.sound.stacked.armed _ member
    simp [empty] at stack
  have different : k.currentThread ≠ k.nextThread := live.old.ne
  constructor
  · refine ⟨⟨live.sound.placed.create priority, ?_, ?_⟩, ?_, live.old.trans (Nat.lt_succ_self _)⟩
    · refine Stacked.set_stack ?_ ?_ notArmed (Nat.lt_succ_self _) (by simp)
      · refine live.sound.stacked.mono ?_ (fun _ => le_rfl) (Nat.le_succ _)
        intro t blocked
        have blocked : update k.state k.nextThread .suspended t = .blocked := blocked
        rw [state] at blocked
        refine ⟨blocked, update_of_ne ?_ _ _⟩
        rintro rfl
        simp [suspended] at blocked
      · show update k.state k.nextThread .suspended k.nextThread ≠ .blocked
        simp
    · have dpc : DpcReady k.stack k.eventFlags k.signalled dpcThread :=
        ⟨live.sound.dpc.flags, fun none => live.sound.dpc.unsignalled (served none).1,
          fun t f member => ⟨(live.sound.dpc.frames t f member).1,
            fun none => (live.sound.dpc.frames t f member).2 (served none).1⟩⟩
      refine dpc.set_stack fun f member => ?_
      rw [List.mem_singleton.mp member]
      exact ⟨by simp, fun none => (served none).2⟩
    · show ∀ f ∈ update k.stack k.nextThread _ k.currentThread, waits f = false
      rw [update_of_ne different]
      exact live.clean
  · have phase : ∀ t, phaseOf (update k.state k.nextThread .suspended t)
        (update k.waitQueueBlockRet k.nextThread noError t)
        (update k.stack k.nextThread [.initialThreadFunc entry] t) = (view k).phase t := by
      intro t
      obtain rfl | same := eq_or_ne t k.nextThread
      · simp [view, phaseOf, empty]
      · simp [view, same]
    have dead : ∀ t, (update k.state k.nextThread .suspended t = .death) =
        (view k).dead t := by
      intro t
      rw [state]
      rfl
    exact Sync.ext (funext phase) rfl rfl rfl rfl rfl rfl rfl (funext dead)

theorem dpc_queue_empty (sound : Sound k running) (unready : k.dpcThread = none) :
    k.waitList (.event .dpc) = [] := by
  rw [List.eq_nil_iff_forall_not_mem]
  intro t member
  obtain ⟨-, timeout, caller, rest, stack, queue⟩ := sound.waiter member
  have unserved := (sound.dpc.frames t (.waitQueueBlock timeout caller) (by simp [stack])).2 unready
  cases caller with
  | eventWaitTimeout e =>
    obtain rfl := WaitQueueId.event.inj queue
    simp at unserved
  | _ => simp [Waiter.queue] at queue

theorem eventInit_dpc (sound : Sound k running) (unready : k.dpcThread = none) :
    eventInit k .dpc false 0 = k := by
  have empty := dpc_queue_empty sound unready
  have count := sound.placed.waitCount_eq (.event .dpc)
  rw [empty] at count
  have signalled : update k.signalled .dpc false = k.signalled := by
    rw [← sound.dpc.unsignalled unready, update_eq_self]
  have flags : update k.eventFlags .dpc 0 = k.eventFlags := by
    rw [← sound.dpc.flags, update_eq_self]
  have waitList : update k.waitList (.event .dpc) [] = k.waitList := by
    rw [← empty, update_eq_self]
  have waitCount : update k.waitCount (.event .dpc) 0 = k.waitCount := by
    rw [show (0 : Int) = k.waitCount (.event .dpc) from count.symm, update_eq_self]
  unfold eventInit
  rw [signalled, flags, waitList, waitCount]

theorem keeps_dpcInit (live : Live k (some k.currentThread)) (unready : k.dpcThread = none) :
    Keeps k (some k.currentThread) (Reaches may k) (dpcInit k) := by
  obtain ⟨created, seen⟩ := live_threadCreate .dpcThreadRoutine dpcPriority (some k.nextThread)
    live (by simp)
  unfold dpcInit
  rw [eventInit_dpc live.sound unready]
  refine keeps_from (keeps_threadResume created ?_ (Nat.lt_succ_self _)) rfl seen rfl
  show update k.state k.nextThread .suspended k.nextThread = .suspended
  simp

theorem live_deviceTimers (queue : List TimerId) {scheduled periodic : TimerId → Time}
    (live : Live k running)
    (counts : ∀ x, (∀ n, x ≠ .device n) → queue.count x = k.timerQueue.count x) :
    Live { k with
        timerQueue := queue
        scheduledTime := scheduled
        periodicTime := periodic } running ∧
      view { k with
        timerQueue := queue
        scheduledTime := scheduled
        periodicTime := periodic } = view k := by
  refine live.moved ?_ (fun _ => Or.inl rfl) rfl (fun t => counts _ (by simp)) rfl rfl rfl
  exact live.sound.placed.set_timers fun t => (counts _ (by simp)).le

theorem keeps_timerSet {delay period : Time} (live : Live k running) :
    Keeps k running (Reaches may k) (.done (timerSet k (.device n) delay period now) 0) := by
  obtain ⟨live', seen⟩ := live_deviceTimers (insertTimerInQueue _ (.device n) k.timerQueue) live
    (fun x other => (insertTimerInQueue_count _ _ _ _).trans
      (List.count_cons_of_ne (Ne.symm (other n))))
  exact ⟨{ live' with }, rfl, .unseen seen rfl⟩

theorem keeps_timerCancel (live : Live k running) :
    Keeps k running (Reaches may k) (.done (timerCancel k (.device n)) 0) := by
  obtain ⟨live', seen⟩ := live_deviceTimers (k.timerQueue.erase (.device n)) live
    (fun x other => List.count_erase_of_ne (other n))
  exact ⟨{ live' with }, rfl, .unseen seen rfl⟩

end AndroidBoot.LittleKernel.Refinement
