/- source: bootable/lk/kernel/*.c, arch/arm/exceptions.S
   digest: Every step of the machine keeps it consistent and is at most one abstract action. -/

import AndroidBoot.LittleKernel.Refinement

set_option autoImplicit false

namespace AndroidBoot.LittleKernel.Simulation

open State Timer Thread Mutex Event Machine SchedulerInvariant SyncModel KernelView WaitQueue
  Refinement
open AndroidBoot.Foundation.Run AndroidBoot.Foundation.Resumption

variable {k : Kernel} {running : Option Tid} {may : Intent → Prop}

theorem follows_from {k' : Kernel} {o : Option Machine} (follows : Follows may k' o)
    (same : view k' = view k) (trace : k'.trace = k.trace) : Follows may k o := by
  intro m result
  obtain ⟨consistent, reaches⟩ := follows m result
  refine ⟨consistent, ?_⟩
  unfold Reaches at *
  rwa [same, trace] at reaches

variable {t : Tid}

theorem sound_contextSwitch (sound : Sound k running) :
    Sound (contextSwitch k t) running ∧ view (contextSwitch k t) = view k ∧
      (contextSwitch k t).currentThread = t ∧ (contextSwitch k t).trace = k.trace := by
  unfold contextSwitch
  by_cases same : t = k.currentThread
  · rw [if_pos same]
    exact ⟨sound, rfl, same.symm, rfl⟩
  · rw [if_neg same]
    refine ⟨⟨?_, ?_, sound.dpc⟩, rfl, rfl, rfl⟩
    · exact { sound.placed with }
    · exact sound.stacked.mono (fun _ blocked => ⟨blocked, rfl⟩) (fun _ => le_rfl) le_rfl

theorem follows_threadResched (sound : Sound k none) :
    Follows may k (settle (threadResched k)) := by
  unfold threadResched
  split_ifs with idle
  · rintro m ⟨⟩
  · rcases queue : k.runQueue (nextQueue k.runQueueBitmap) with _ | ⟨t, rest⟩
    · rintro m ⟨⟩
    · have member : t ∈ k.runQueue (nextQueue k.runQueueBitmap) := by simp [queue]
      have ready := ((sound.placed.mem_runQueue t _).mp member).1
      have state : ∀ u st, st ≠ ThreadState.ready → st ≠ .running →
          (Function.update k.state t .running u = st ↔ k.state u = st) := by
        intro u st notReady notRunning
        obtain rfl | same := eq_or_ne u t
        · simp [ready, notReady.symm, notRunning.symm]
        · simp [same]
      have picked : Sound (onSched k fun s =>
          setState (dequeue s (nextQueue s.runQueueBitmap) rest) t .running) (some t) := by
        refine ⟨sound.placed.pick queue, ?_, sound.dpc⟩
        exact sound.stacked.mono
          (fun u blocked => ⟨(state u .blocked (by simp) (by simp)).mp blocked, rfl⟩)
          (fun _ => le_rfl) le_rfl
      obtain ⟨switched, seen, current, trace⟩ := sound_contextSwitch picked
      rintro m ⟨⟩
      constructor
      · show Sound _ (some (contextSwitch _ t).currentThread)
        rw [current]
        exact switched
      · refine .unseen (seen.trans ?_) trace
        exact view_congr (fun u => state u .blocked (by simp) (by simp))
          (fun u => state u .death (by simp) (by simp)) (fun _ => Iff.rfl) rfl rfl rfl rfl rfl rfl
          rfl rfl

variable {below : List Frame}

variable {f : Frame}

theorem live_pop (sound : Sound k (some k.currentThread))
    (top : k.stack k.currentThread = f :: below) (calm : waits f = false) :
    Live (pop k) (some k.currentThread) ∧ view (pop k) = view k := by
  have live : Live k (some k.currentThread) := by
    refine ⟨sound, ?_, sound.placed.running_lt⟩
    have below := sound.stacked.below k.currentThread
    rw [top] at below ⊢
    exact List.forall_mem_cons.mpr ⟨calm, below⟩
  have clean : ∀ g ∈ (k.stack k.currentThread).tail, waits g = false :=
    fun g member => live.clean g (List.mem_of_mem_tail member)
  exact ⟨live.set_stack clean fun g member =>
    live.sound.dpc.frames _ g (List.mem_of_mem_tail member), live.view_set_stack clean⟩

variable {now : Time}

section

variable (live : Live k (some k.currentThread))
include live

/-- Expired wait timers: a thread that still waits is unblocked, another one is left alone. -/
theorem follows_waitTimer {rest : List TimerId} (queue : k.timerQueue = .wait t :: rest) :
    Follows may k (settle (waitQueueTimeoutHandler (takeTimer k rest now) t)) := by
  have armed : (view k).armed t := by
    show .wait t ∈ k.timerQueue
    simp [queue]
  have once := live.sound.stacked.armed_once t
  have gone : .wait t ∉ rest := by
    rw [queue, List.count_cons_self] at once
    exact List.count_eq_zero.mp (by omega)
  have less : ∀ x, rest.count x ≤ k.timerQueue.count x := by
    intro x
    rw [queue]
    exact List.count_le_count_cons
  have live' : Live { k with timerQueue := rest } (some k.currentThread) := by
    refine live.reschedule ?_ (fun _ blocked => ⟨blocked, rfl⟩) (fun _ => less _) le_rfl rfl
    exact live.sound.placed.set_timers fun _ => less _
  have disarmed : view { k with timerQueue := rest } = (view k).disarm t := by
    refine Sync.ext rfl rfl (funext fun u => ?_) rfl rfl rfl rfl rfl rfl
    obtain rfl | same := eq_or_ne u t
    · simp [view, Sync.disarm, gone]
    · simp [view, Sync.disarm, same, queue]
  have pushed : Live (takeTimer k rest now) (some k.currentThread) := live'.push rfl
  have seen : view (takeTimer k rest now) = (view k).disarm t :=
    (live'.view_push rfl).trans disarmed
  unfold waitQueueTimeoutHandler
  rcases threadUnblockFromWaitQueue_cases t .timer errTimedOut pushed with
    ⟨awake, body⟩ | ⟨w, k', member, -, live'', current, dropped, trace, body⟩
  · rw [body]
    refine follows_ret { pushed with } ?_
    refine Reaches.congr (.act_silent (.expire armed ?_) rfl) seen
    intro w member
    exact awake ((live.sound.placed.mem_waitList t w).mp member).1
  · rw [body]
    refine follows_ret (by rw [current]; exact live'') ?_
    rw [dropped, seen]
    exact .act (.timeout armed member) trace

theorem follows_sleepTimer {rest : List TimerId} (queue : k.timerQueue = .sleep t :: rest) :
    Follows may k (some ⟨threadSleepHandler (takeTimer k rest now) t, .ret 1⟩) := by
  have sleeping : k.state t = .sleeping := live.sound.placed.sleep_timer t (by simp [queue])
  have runs := live.sound.placed.state_running
  have different : k.currentThread ≠ t := by
    rintro rfl
    simp [sleeping] at runs
  have once := live.sound.placed.sleep_once t
  have gone : .sleep t ∉ rest := by
    rw [queue, List.count_cons_self] at once
    exact List.count_eq_zero.mp (by omega)
  have old : t < k.nextThread := by
    by_contra young
    have fresh := live.sound.placed.fresh t (Nat.not_lt.mp young)
    simp [sleeping] at fresh
  have less : ∀ x, rest.count x ≤ k.timerQueue.count x := by
    intro x
    rw [queue]
    exact List.count_le_count_cons
  have pushed := live.push (f := .timerTick now) rfl
  have placed : Placed (takeTimer k rest now).toSched settled (some k.currentThread) :=
    live.sound.placed.set_timers fun _ => less _
  have started := placed.start (t := t) (by simp [takeTimer, push, sleeping])
    (by simp [takeTimer, push, sleeping]) (by simpa using different) gone old
  obtain ⟨live', seen⟩ : Live (threadSleepHandler (takeTimer k rest now) t)
      (some k.currentThread) ∧
        view (threadSleepHandler (takeTimer k rest now) t) = view (push k (.timerTick now)) := by
    refine pushed.moved started ?_ rfl ?_ rfl rfl rfl
    · intro u
      show Function.update k.state t .ready u = k.state u ∨
        (Awake (k.state u) ∧ Awake (Function.update k.state t .ready u))
      obtain rfl | same := eq_or_ne u t
      · exact Or.inr ⟨by simp [Awake, sleeping], by simp [Awake]⟩
      · exact Or.inl (by simp [same])
    · intro u
      show rest.count (.wait u) = k.timerQueue.count (.wait u)
      rw [queue, List.count_cons_of_ne (by simp)]
  exact follows_ret live' (.unseen (seen.trans (live.view_push rfl)) rfl)

theorem follows_timerTick : Follows may k (timerTick k now) := by
  have ticked : Follows may k (some ⟨threadTimerTick k, .ret 1⟩) := by
    unfold threadTimerTick
    split
    · exact follows_ret live (.unseen rfl rfl)
    · exact follows_ret { live with } (.unseen rfl rfl)
  unfold timerTick
  rcases queue : k.timerQueue with _ | ⟨timer, rest⟩
  · exact ticked
  · dsimp only
    split
    · exact ticked
    · rcases timer with t | t | n
      · exact follows_waitTimer live queue
      · exact follows_sleepTimer live queue
      · obtain ⟨live', seen⟩ := live_deviceTimers rest live fun x other => by
          rw [queue, List.count_cons_of_ne (Ne.symm (other n))]
        have taken : Live (takeTimer k rest now) (some k.currentThread) := live'.push rfl
        have same : view (takeTimer k rest now) = view k := (live'.view_push rfl).trans seen
        exact follows_user (taken.push rfl) (.unseen ((taken.view_push rfl).trans same) rfl)

end

/-- What a label lets the code outside the kernel do to mutexes, events and waiters. -/
def intends (k : Kernel) : Label → Intent → Prop
  | .call (.waitQueueBlock n timeout _), .join caller => timeout ≠ 0 ∧ caller = .plain n
  | .call (.mutexAcquire m _), .join caller => caller = .mutexAcquire m
  | .call (.mutexAcquireTimeout m timeout _), .join caller =>
    timeout ≠ 0 ∧ (caller = .mutexAcquire m ∨ caller = .mutexAcquireTimeout m)
  | .call (.eventWait n _), .join caller => caller = .eventWaitTimeout (.user n)
  | .call (.eventWaitTimeout n timeout _), .join caller =>
    timeout ≠ 0 ∧ caller = .eventWaitTimeout (.user n)
  | .proceed _, .join caller => caller = .eventWaitTimeout .dpc
  | .call (.mutexDestroy m), .destroyMutex m' => m' = m
  | .call (.eventDestroy n), .destroyEvent e => e = .user n
  | .call (.threadUnblockFromWaitQueue t _ _), .unblock w => k.blockingWaitQueue t = some w
  | _, _ => False

/-- The contracts of `thread_resume`, which is for suspended threads, and of
`thread_unblock_from_wait_queue`, whose reschedule loses the running thread. -/
def proper (s : Machine) : Label → Bool
  | .call (.threadResume t) => s.kernel.state t = .suspended
  | .call (.threadUnblockFromWaitQueue _ reschedule _) => !reschedule
  | _ => true

variable {code : Status}

theorem follows_unblock (live : Live k (some k.currentThread))
    (intent : ∀ w, k.blockingWaitQueue t = some w → may (.unblock w)) :
    Follows may k (settle (threadUnblockFromWaitQueue k t false .unblock code)) := by
  rcases threadUnblockFromWaitQueue_cases t .unblock code live with
    ⟨-, body⟩ | ⟨w, k', member, on, live', current, dropped, trace, body⟩
  · rw [body]
    exact follows_ret { live with } (.unseen rfl rfl)
  · rw [body]
    refine follows_ret (by rw [current]; exact live') ?_
    rw [dropped]
    exact .act (.unblock (intent w on) member) trace

variable {n : Nat}

theorem keeps_wakeOnePlain {reschedule : Bool}
    (live : Live k (some k.currentThread)) :
    Keeps k (some k.currentThread) (Reaches may k)
      (waitQueueWakeOne k (.plain n) reschedule code) := by
  rcases queue : k.waitList (.plain n) with _ | ⟨t, rest⟩
  · rw [waitQueueWakeOne_nil queue]
    exact keeps_done ⟨live, rfl⟩ rfl rfl
  · obtain ⟨k', seen, trace, current, woken⟩ :=
      waitQueueWakeOne_cons reschedule code live (fun _ => rfl) queue
    have reached : Reaches may k (view k') k'.trace := by
      rw [seen]
      exact .act (.wakeOne queue) trace
    rcases woken with ⟨-, live', body⟩ | ⟨-, live', body⟩
    · rw [body]
      exact ⟨live', current, reached⟩
    · rw [body]
      exact ⟨live', by simp [calm, waits, servesDpc], reached⟩

theorem keeps_wakeAllPlain {reschedule : Bool}
    (live : Live k (some k.currentThread)) :
    Keeps k (some k.currentThread) (Reaches may k)
      (waitQueueWakeAll k (.plain n) reschedule code) := by
  refine Keeps.from_start (keeps_waitQueueWakeAll live fun _ => rfl) rfl ?_
  rintro σ os ⟨rfl, rfl⟩
  exact .act .wakeAll rfl

theorem keeps_deviceTimerSet {set : Kernel → TimerId → Kernel}
    (keeps : Keeps k running (Reaches may k) (.done (set k (.device n)) 0)) :
    Keeps k running (Reaches may k) (deviceTimerSet k n set) := by
  unfold deviceTimerSet
  split
  · trivial
  · exact keeps

theorem live_setPriority {p : Int} (live : Live k (some k.currentThread)) :
    Live (threadSetPriority k p) (some k.currentThread) ∧ view (threadSetPriority k p) = view k :=
  live.moved (live.sound.placed.set_priority _) (fun _ => Or.inl rfl) rfl (fun _ => rfl) rfl rfl rfl

theorem follows_callBody {c : Call} (live : Live k (some k.currentThread))
    (callable : callable k c = true) (legal : proper ⟨k, .user⟩ (.call c) = true) :
    Follows (intends k (.call c)) k (settle (callBody k c)) := by
  cases c with
  | threadCreate priority allocated =>
    refine follows_settle ?_
    cases allocated with
    | false => exact keeps_done ⟨live, rfl⟩ rfl rfl
    | true =>
      exact keeps_done (live_threadCreate .user priority k.dpcThread live
        fun none => ⟨none, rfl⟩) rfl rfl
  | threadResume t =>
    have listed : t ∈ k.threadList := by simpa [Machine.callable] using callable
    exact follows_settle
      (keeps_threadResume live (of_decide_eq_true legal) (live.sound.placed.listed t listed))
  | threadYield => exact follows_settle (keeps_threadYield live)
  | threadPreempt => exact follows_settle (keeps_threadPreempt live)
  | threadSleep delay now => exact follows_settle (keeps_threadSleep live)
  | threadSetPriority p =>
    exact follows_settle (keeps_done (live_setPriority live) rfl rfl)
  | threadBecomeIdle =>
    obtain ⟨live', seen⟩ := live_setPriority (p := 0) live
    exact follows_settle (keeps_done ⟨{ live' with }, seen⟩ rfl rfl)
  | threadExit retcode => exact follows_settle (keeps_threadExit live)
  | waitQueueBlock n timeout now =>
    refine follows_waitQueueBlock live rfl rfl (fun positive => ⟨positive, rfl⟩) trivial
      (by simp [Waiter.queue]) (by simp) ?_
    rintro rfl
    exact follows_ret { live with } (.act (.refuse live.phase_idle) rfl)
  | waitQueueWakeOne n reschedule code => exact follows_settle (keeps_wakeOnePlain live)
  | waitQueueWakeAll | waitQueueDestroy => exact follows_settle (keeps_wakeAllPlain live)
  | threadUnblockFromWaitQueue t reschedule code =>
    obtain rfl : reschedule = false := by simpa [proper] using legal
    exact follows_unblock live fun w on => on
  | mutexAcquire m now => exact follows_mutexAcquire live rfl
  | mutexAcquireTimeout m timeout now =>
    refine follows_mutexAcquireTimeout live ?_ fun positive => ⟨positive, Or.inr rfl⟩
    rintro rfl
    exact ⟨by decide, Or.inl rfl⟩
  | mutexRelease m => exact follows_settle (keeps_mutexRelease live)
  | mutexDestroy m => exact follows_settle (keeps_mutexDestroy live rfl)
  | eventWait n now => exact follows_eventWaitTimeout live (fun _ => rfl) (by simp)
  | eventWaitTimeout n timeout now =>
    exact follows_eventWaitTimeout live (fun positive => ⟨positive, rfl⟩) (by simp)
  | eventSignal n reschedule =>
    refine follows_settle
      (Keeps.from_start (keeps_eventSignal live (fun _ => rfl) (by simp)) rfl ?_)
    rintro σ os ⟨new, signal, trace⟩
    exact .act (.signal signal) trace
  | eventUnsignal n =>
    exact follows_ret (live_eventUnsignal live) (reaches_eventUnsignal (by simp))
  | eventDestroy n => exact follows_settle (keeps_eventDestroy live rfl)
  | dpcInit => exact follows_settle (keeps_dpcInit live (by simpa [Machine.callable] using callable))
  | dpcQueue n noresched => exact follows_settle (keeps_dpcQueueDevice live)
  | timerSetOneshot | timerSetPeriodic =>
    unfold callBody
    exact follows_settle (keeps_deviceTimerSet (keeps_timerSet live))
  | timerCancel n => exact follows_settle (keeps_timerCancel live)

theorem phase_released {timeout : Time} {caller : Waiter}
    (sound : Sound k (some k.currentThread))
    (top : k.stack k.currentThread = .waitQueueBlock timeout caller :: below) :
    (view k).phase k.currentThread =
      .released timeout caller (k.waitQueueBlockRet k.currentThread) := by
  have runs := sound.placed.state_running
  simp [view, phaseOf, top, runs]

theorem view_takeMutex {m : Nat} (current : k.currentThread = t) :
    view (exitCriticalSection
        { k with mutexHolder := Function.update k.mutexHolder m (some k.currentThread) }) =
      (view k).setHolder m (some t) := by
  rw [current]
  rfl

theorem follows_waitQueueUnblocked {timeout : Time} {caller : Waiter}
    (sound : Sound k (some k.currentThread))
    (top : k.stack k.currentThread = .waitQueueBlock timeout caller :: below) :
    Follows may k (settle (waitQueueUnblocked (pop k) timeout caller (waiterGoesOn caller))) := by
  obtain ⟨live, left⟩ := live_leaveWait sound top
  have finish : ∀ {σ : Sync},
      σ = ((view k).leave k.currentThread).conclude k.currentThread
        (k.waitQueueBlockRet k.currentThread) caller →
      Reaches may k σ (leaveWait (pop k) caller.queue timeout).trace := by
    rintro σ rfl
    refine .act (.finish (phase_released sound top)) ?_
    exact trace_leaveWait k caller.queue timeout
  have current : (leaveWait (pop k) caller.queue timeout).currentThread = k.currentThread :=
    current_leaveWait k caller.queue timeout
  have live' : Live (leaveWait (pop k) caller.queue timeout)
      (some (leaveWait (pop k) caller.queue timeout).currentThread) := by
    rw [current]
    exact live
  unfold waitQueueUnblocked
  rcases caller with n | m | m | e
  · exact follows_ret live' (finish left)
  · dsimp only [waiterGoesOn, mutexAcquireWoken]
    split
    case isTrue failed =>
      refine follows_ret { live' with } (finish (left.trans ?_))
      exact (if_pos failed).symm
    case isFalse ok =>
      refine follows_ret { live' with } (finish ?_)
      refine Eq.trans ?_ (if_neg ok).symm
      rw [← left]
      exact view_takeMutex current
  · dsimp only [waiterGoesOn, mutexAcquireTimeoutWoken]
    split
    case isTrue failed =>
      refine follows_ret { live' with } (finish ?_)
      refine Eq.trans ?_ (if_pos failed.2).symm
      rw [← left]
      rfl
    case isFalse ok =>
      refine follows_ret { live' with } (finish ?_)
      refine Eq.trans ?_ (if_neg ?_).symm
      · rw [← left]
        exact view_takeMutex current
      · intro timedOut
        refine ok ⟨?_, timedOut⟩
        show k.waitQueueBlockRet k.currentThread < noError
        rw [timedOut]
        decide
  · exact follows_ret { live' with } (finish left)

variable {r : Int}

theorem follows_armIrqHandled (live : Live k (some k.currentThread)) :
    Follows may k (armIrqHandled k r) := by
  unfold armIrqHandled
  split
  · exact follows_from (follows_settle (keeps_threadPreempt (live.push rfl)))
      (live.view_push rfl) rfl
  · exact follows_user { live with } (.unseen rfl rfl)

theorem waits_entryFrame (entry : Entry) : waits (entryFrame entry) = false := by
  cases entry with
  | user => rfl
  | dpcThreadRoutine => rfl

theorem possible_entryFrame {entry : Entry} {dpcThread : Option Tid}
    (started : Possible dpcThread (.initialThreadFunc entry)) :
    Possible dpcThread (entryFrame entry) := by
  cases entry with
  | user => exact ⟨by simp [entryFrame], fun _ => rfl⟩
  | dpcThreadRoutine => exact ⟨by simp [entryFrame], started.2⟩

theorem follows_resumeFrame
    (sound : Sound k (some k.currentThread)) (top : k.stack k.currentThread = f :: below) :
    Follows may k (resumeFrame (pop k) f r) := by
  have leaves : waits f = false → ∀ control, (control = .user ∨ ∃ r, control = .ret r) →
      ∀ k' : Kernel, (Live (pop k) (some k.currentThread) → Live k' (some k'.currentThread)) →
        view k' = view (pop k) → k'.trace = k.trace → Follows may k (some ⟨k', control⟩) := by
    rintro outside control kind k' live' same trace
    obtain ⟨live, seen⟩ := live_pop sound top outside
    rcases kind with rfl | ⟨r, rfl⟩
    · exact follows_user (live' live) (.unseen (same.trans seen) trace)
    · exact follows_ret (live' live) (.unseen (same.trans seen) trace)
  have returns : waits f = false → ∀ r, Follows may k (some ⟨exitCriticalSection (pop k), .ret r⟩) :=
    fun outside r => leaves outside (.ret r) (Or.inr ⟨r, rfl⟩) _ (fun live => { live with }) rfl rfl
  have passes : waits f = false → ∀ r, Follows may k (some ⟨pop k, .ret r⟩) :=
    fun outside r => leaves outside (.ret r) (Or.inr ⟨r, rfl⟩) _ (fun live => live) rfl rfl
  cases f with
  | waitQueueBlock timeout caller => exact follows_waitQueueUnblocked sound top
  | call count => exact leaves rfl .user (Or.inl rfl) _ (fun live => live) rfl rfl
  | initialThreadFunc entry =>
    obtain ⟨live, seen⟩ := live_pop sound top rfl
    have exited : Live (exitCriticalSection (pop k)) (some k.currentThread) := { live with }
    have started := sound.dpc.frames _ _ (by rw [top]; exact .head _)
    obtain ⟨pushed, same⟩ := exited.push_possible (waits_entryFrame entry)
      (possible_entryFrame started)
    exact follows_user pushed (.unseen (same.trans seen) rfl)
  | threadResume | threadYield | threadPreempt | threadSleep | threadUnblockFromWaitQueue
  | mutexRelease | mutexDestroy | eventSignalOne | eventSignalAll | eventDestroy | dpcQueue =>
    exact returns rfl _
  | waitQueueWakeOne | waitQueueWakeAll => exact passes rfl _
  | timerTick now =>
    obtain ⟨live, seen⟩ := live_pop sound top rfl
    exact follows_from (follows_timerTick live) seen rfl
  | armTimerIrq count =>
    obtain ⟨live, seen⟩ := live_pop sound top rfl
    exact follows_from (follows_armIrqHandled live) seen rfl
  | armIrqPreempt count =>
    exact leaves rfl .user (Or.inl rfl) _ (fun live => { live with }) rfl rfl
  | threadExit =>
    exact absurd rfl (sound.dpc.frames _ .threadExit (by rw [top]; exact .head _)).1
  | threadExited | kmain | threadEntry | dpcRoutine | timerCallback | armIrq => rintro m ⟨⟩

theorem live_timerCallbackDone (n : Nat) (periodic : Bool) (now : Time) (live : Live k running) :
    Live (timerCallbackDone k n periodic now) running ∧
      view (timerCallbackDone k n periodic now) = view k ∧
      (timerCallbackDone k n periodic now).currentThread = k.currentThread ∧
      (timerCallbackDone k n periodic now).trace = k.trace := by
  unfold timerCallbackDone
  dsimp only
  split
  · obtain ⟨live', seen⟩ := live_deviceTimers (insertTimerInQueue _ (.device n) k.timerQueue) live
      (fun x other => (insertTimerInQueue_count _ _ _ _).trans
        (List.count_cons_of_ne (Ne.symm (other n))))
    exact ⟨live', seen, rfl, rfl⟩
  · exact ⟨live, rfl, rfl, rfl⟩

theorem live_dpcDequeue (may : Intent → Prop) (live : Live k running) :
    Live (dpcDequeue k).1 running ∧ (dpcDequeue k).1.currentThread = k.currentThread ∧
      (dpcDequeue k).1.dpcThread = k.dpcThread ∧
      Reaches may k (view (dpcDequeue k).1) (dpcDequeue k).1.trace := by
  have entered : Live (enterCriticalSection k) running := { live with }
  unfold dpcDequeue
  dsimp only
  rcases list : k.dpcList with _ | ⟨d, rest⟩
  · rw [show (enterCriticalSection k).dpcList = [] from list]
    have cleared : Live (eventUnsignal (enterCriticalSection k) .dpc) running :=
      live_eventUnsignal entered
    exact ⟨{ cleared with }, rfl, rfl, .act (.unsignal fun _ => list) rfl⟩
  · rw [show (enterCriticalSection k).dpcList = d :: rest from list]
    exact ⟨{ live with }, rfl, rfl, .act (.dpcStart list) rfl⟩

theorem follows_proceedFrame
    (live : Live k (some k.currentThread)) (top : k.stack k.currentThread = f :: below) :
    Follows (intends k (.proceed r)) k (proceedFrame (pop k) f r) := by
  have outside : waits f = false := live.clean f (by rw [top]; exact .head _)
  have possible := live.sound.dpc.frames k.currentThread f (by rw [top]; exact .head _)
  obtain ⟨popped, seen⟩ := live_pop live.sound top outside
  have serves : servesDpc f = true → ∀ point, Possible k.dpcThread (.dpcRoutine point) := by
    intro dpc point
    refine ⟨by simp, fun none => ?_⟩
    rw [possible.2 none] at dpc
    simp at dpc
  cases f with
  | threadEntry => exact follows_from (follows_settle (keeps_threadExit popped)) seen rfl
  | armIrq => exact follows_from (follows_armIrqHandled popped) seen rfl
  | timerCallback n periodic now count =>
    obtain ⟨live', same, current, trace⟩ := live_timerCallbackDone n periodic now popped
    refine follows_ret ?_ (.unseen (same.trans seen) trace)
    rw [current]
    exact live'
  | dpcRoutine point =>
    cases point with
    | wait =>
      obtain ⟨routine, same⟩ := popped.push_possible rfl (serves rfl .dequeue)
      refine follows_from (follows_eventWaitTimeout (routine.push rfl) (fun _ => rfl)
        fun _ none => ?_) ((routine.view_push rfl).trans (same.trans seen)) rfl
      exact absurd (possible.2 none) (by simp [servesDpc])
    | dequeue =>
      obtain ⟨live', current, dpcThread, reaches⟩ := live_dpcDequeue (intends k (.proceed r)) popped
      obtain ⟨routine, same⟩ := live'.push_possible (f := .dpcRoutine (dpcDequeue (pop k)).2)
        rfl (by rw [dpcThread]; exact serves rfl _)
      refine follows_from (follows_user ?_ ?_) seen rfl
      · show Live (push _ _) (some (dpcDequeue (pop k)).1.currentThread)
        rw [current]
        exact routine
      · exact reaches.congr same
    | callback d =>
      cases d with
      | threadCleanup t =>
        have placed : Placed (threadCleanupDpc (pop k) t).toSched settled (some k.currentThread) :=
          { popped.sound.placed with
            listed := fun u member => popped.sound.placed.listed u (List.mem_of_mem_erase member) }
        have cleaned : Live (threadCleanupDpc (pop k) t) (some k.currentThread) :=
          { popped with
            sound := { popped.sound with placed, stacked := { popped.sound.stacked with } } }
        obtain ⟨routine, same⟩ := cleaned.push_possible rfl (serves rfl .wait)
        exact follows_user routine (.unseen (same.trans seen) rfl)
      | device n =>
        obtain ⟨routine, same⟩ := popped.push_possible rfl (serves rfl .wait)
        exact follows_user routine (.unseen (same.trans seen) rfl)
  | _ => rintro m ⟨⟩

/-- A step leads to a consistent machine and is seen as at most one action. -/
theorem step_simulates {m m' : Machine} {l : Label} (consistent : Consistent m)
    (legal : proper m l = true) (next : step m l = some m') :
    Consistent m' ∧ Reaches (intends m.kernel l) m.kernel (view m'.kernel) m'.kernel.trace := by
  obtain ⟨k, control⟩ := m
  suffices follows : Follows (intends k l) k (step ⟨k, control⟩ l) from follows m' next
  cases control with
  | user =>
    have live : Live k (some k.currentThread) := consistent
    cases l with
    | call c =>
      have pushed := live.push (f := .call k.criticalSectionCount) rfl
      dsimp only [step]
      split
      case isTrue possible =>
        have body := follows_callBody pushed possible (by cases c <;> exact legal)
        exact follows_from body (live.view_push rfl) rfl
      case isFalse => rintro m ⟨⟩
    | enterCriticalSection | exitCriticalSection =>
      exact follows_user { live with } (.unseen rfl rfl)
    | proceed r =>
      dsimp only [step]
      rcases top : k.stack k.currentThread with _ | ⟨f, below⟩
      · rintro m ⟨⟩
      · exact follows_proceedFrame live top
    | timerIrq now =>
      dsimp only [step]
      split
      case isTrue =>
        have entered : Live (armIrqEnter k) (some k.currentThread) := { live with }
        have pushed := entered.push (f := .armTimerIrq (armIrqEnter k).criticalSectionCount) rfl
        exact follows_ret (pushed.push rfl)
          (.unseen ((pushed.view_push rfl).trans (entered.view_push rfl)) rfl)
      case isFalse => rintro m ⟨⟩
    | deviceIrq =>
      dsimp only [step]
      split
      case isTrue =>
        have entered : Live (armIrqEnter k) (some k.currentThread) := { live with }
        exact follows_user (entered.push rfl) (.unseen (entered.view_push rfl) rfl)
      case isFalse => rintro m ⟨⟩
    | kernel => rintro m ⟨⟩
  | resched =>
    cases l with
    | kernel => exact follows_threadResched consistent
    | _ => rintro m ⟨⟩
  | ret r =>
    cases l with
    | kernel =>
      dsimp only [step]
      rcases top : k.stack k.currentThread with _ | ⟨f, below⟩
      · rintro m ⟨⟩
      · exact follows_resumeFrame consistent top
    | _ => rintro m ⟨⟩

theorem consistent_threadInitEarly (initial : Nat → Bool) (flags : Nat → BitVec 32) :
    Consistent (threadInitEarly initial flags) := by
  have state : ∀ t : Tid, (if t = 0 then ThreadState.running else .suspended) = .running ↔
      t = 0 := by
    intro t
    split <;> simp_all
  refine ⟨⟨?_, ?_, ?_⟩, ?_, Nat.zero_lt_one⟩
  · refine ⟨?_, ?_, ?_, ?_, ?_, ?_, ?_, ?_, ?_, ?_, ?_, ?_⟩
    all_goals simp only [threadInitEarly]
    · intro t
      rw [state, Option.some.injEq, eq_comm]
    · intro t p
      split <;> simp
    · simp
    · simp
    · intro t w
      split <;> simp
    · intro t
      split <;> simp
    · simp
    · simp
    · simp
    · simp
    · intro t young
      rw [if_neg (Nat.ne_of_gt young)]
    · simp
  · refine ⟨?_, ?_, ?_, ?_, ?_⟩
    all_goals simp only [threadInitEarly]
    · intro t
      split <;> simp
    · intro t
      split <;> simp
    · simp
    · simp
    · intro t young
      rw [if_neg (Nat.ne_of_gt young)]
  · refine ⟨rfl, fun _ => rfl, ?_⟩
    simp only [threadInitEarly]
    intro t f member
    split at member
    · rw [List.mem_singleton.mp member]
      exact ⟨by simp, fun _ => rfl⟩
    · simp at member
  · simp [threadInitEarly, waits]

theorem Sound.coherent (sound : Sound k running) : Coherent (view k) where
  mem_queue := by
    intro t w
    constructor
    · intro member
      obtain ⟨blocked, timeout, caller, rest, stack, queue⟩ := sound.waiter member
      exact ⟨timeout, caller, by simp [view, phaseOf, stack, blocked], queue⟩
    · rintro ⟨timeout, caller, phase, rfl⟩
      obtain ⟨blocked, rest, stack⟩ := phaseOf_waiting phase
      obtain ⟨timeout', caller', rest', stack', on⟩ := sound.stacked.blocked t blocked
      rw [stack] at stack'
      obtain ⟨-, rfl⟩ := Frame.waitQueueBlock.inj (List.cons.inj stack').1
      exact (sound.placed.mem_waitList t _).mpr ⟨blocked, on⟩
  queue_nodup := sound.placed.waitList_nodup
  armed := by
    intro t member
    obtain ⟨timeout, caller, rest, stack, finite⟩ := sound.stacked.armed t member
    refine ⟨timeout, caller, finite, ?_⟩
    by_cases blocked : k.state t = .blocked
    · exact Or.inl (by simp [view, phaseOf, stack, blocked])
    · exact Or.inr ⟨k.waitQueueBlockRet t, by simp [view, phaseOf, stack, blocked]⟩

variable {m : Machine}

theorem Consistent.sound (consistent : Consistent m) : ∃ running, Sound m.kernel running := by
  obtain ⟨k, control⟩ := m
  cases control with
  | user => exact ⟨_, Live.sound consistent⟩
  | ret | resched => exact ⟨_, consistent⟩

theorem Consistent.coherent (consistent : Consistent m) : Coherent (view m.kernel) :=
  Sound.coherent (Consistent.sound consistent).choose_spec

variable {allowed : Machine → Label → Prop}

theorem reach_consistent {initial : Nat → Bool} {flags : Nat → BitVec 32}
    (legal : ∀ s l, allowed s l → proper s l = true)
    (reach : Reach step allowed (threadInitEarly initial flags) m) : Consistent m :=
  reach.invariant Consistent (consistent_threadInitEarly initial flags)
    fun s l _ consistent ok next => (step_simulates consistent (legal s l ok) next).1

theorem reach_sync {initial : Nat → Bool} {flags : Nat → BitVec 32}
    {I : Sync → List Observation → Prop}
    (legal : ∀ s l, allowed s l → proper s l = true)
    (base : I (view (threadInitEarly initial flags).kernel) [])
    (preserved : ∀ s l os σ, Consistent s → allowed s l →
      I (view s.kernel) s.kernel.trace →
      Action (intends s.kernel l) (view s.kernel) os σ → I σ (s.kernel.trace ++ os))
    (reach : Reach step allowed (threadInitEarly initial flags) m) :
    Consistent m ∧ I (view m.kernel) m.kernel.trace := by
  refine reach.invariant (fun m => Consistent m ∧ I (view m.kernel) m.kernel.trace)
    ⟨consistent_threadInitEarly initial flags, base⟩ ?_
  rintro s l t ⟨consistent, holds⟩ ok next
  obtain ⟨consistent', reaches⟩ := step_simulates consistent (legal s l ok) next
  refine ⟨consistent', ?_⟩
  rcases reaches with ⟨same, trace⟩ | ⟨os, action, trace⟩
  · rw [same, trace]
    exact holds
  · rw [trace]
    exact preserved s l os _ consistent ok holds action

/-- The runs of the abstract model, with everything that is observed on the way. -/
inductive Run (start : Sync) : Sync → List Observation → Prop
  | start : Run start start []
  | act {may : Intent → Prop} {σ τ : Sync} {os new : List Observation} :
      Run start σ os → Action may σ new τ → Run start τ (os ++ new)

/-- Every run of the kernel is a run of the abstract model with the same history, and ends where the
queues and timers mean what they should. -/
theorem kernel_refines_sync {initial : Nat → Bool} {flags : Nat → BitVec 32}
    (reach : Reach step (fun s l => proper s l = true) (threadInitEarly initial flags) m) :
    Run (view (threadInitEarly initial flags).kernel) (view m.kernel) m.kernel.trace ∧
      Coherent (view m.kernel) := by
  obtain ⟨consistent, run⟩ := reach_sync (I := Run (view (threadInitEarly initial flags).kernel))
    (fun _ _ => id) .start (fun _ _ _ _ _ _ run action => run.act action) reach
  exact ⟨run, Consistent.coherent consistent⟩

theorem kernel_refines_sync_block : ∃ m,
    Reach step (fun s l => proper s l = true) (threadInitEarly (fun _ => false) (fun _ => 0)) m ∧
      Run (view (threadInitEarly (fun _ => false) (fun _ => 0)).kernel) (view m.kernel)
        [.blocked 1 (.plain 0) 5] := by
  refine exists_reach_of_replay (Label.idleAndOne ++ Label.block 5)
    (fun m => m.kernel.trace = [.blocked 1 (.plain 0) 5]) (by decide +kernel) ?_
  intro m reach trace
  exact trace ▸ (kernel_refines_sync reach).1

end AndroidBoot.LittleKernel.Simulation
