/- source: bootable/lk/kernel/thread.c
   digest: What giving up the processor, blocking, waking and unblocking do to the abstract view. -/

import AndroidBoot.LittleKernel.KernelView

set_option autoImplicit false

namespace AndroidBoot.LittleKernel.WaitQueue

open State Timer Thread SchedulerInvariant SyncModel KernelView AndroidBoot.Foundation.Resumption

variable {w : WaitQueueId} {t : Tid} {timeout : Time} {caller : Waiter}

variable {k : Kernel} {running : Option Tid}

/-- Kernel code that starts in `k` keeps the invariant and reaches views and
histories in `R`, whether it returns or gives up the processor. -/
def Keeps (k : Kernel) (running : Option Tid) (R : Sync → List Observation → Prop)
    (o : Result) : Prop :=
  o.Sat
    (fun k' _ => Live k' running ∧ k'.currentThread = k.currentThread ∧ R (view k') k'.trace)
    (fun k' frames => Live k' none ∧ (∀ f ∈ frames, calm f = true) ∧ R (view k') k'.trace)

theorem Keeps.from_start {k' : Kernel} {R R' : Sync → List Observation → Prop} {o : Result}
    (keeps : Keeps k' running R o) (current : k'.currentThread = k.currentThread)
    (imp : ∀ σ os, R σ os → R' σ os) : Keeps k running R' o :=
  Outcome.Sat.mono keeps (fun _ _ post => ⟨post.1, post.2.1.trans current, imp _ _ post.2.2⟩)
    fun _ _ post => ⟨post.1, post.2.1, imp _ _ post.2.2⟩

theorem calm_append {frames : List Frame} {f : Frame} (inner : ∀ g ∈ frames, calm g = true)
    (outer : calm f = true) : ∀ g ∈ frames ++ [f], calm g = true :=
  List.forall_mem_append.mpr ⟨inner, List.forall_mem_singleton.mpr outer⟩

theorem Keeps.andThen_exit {R : Sync → List Observation → Prop} {o : Result} {f : Frame}
    {code : Int} (keeps : Keeps k running R o) (quiet : calm f = true) :
    Keeps k running R (o.andThen f fun k _ => .done (exitCriticalSection k) code) := by
  refine Outcome.Sat.andThen keeps ?_ ?_
  · intro k' r post
    exact ⟨{ post.1 with }, post.2.1, post.2.2⟩
  · intro k' frames post
    exact ⟨post.1, calm_append post.2.1 quiet, post.2.2⟩

theorem live_requeueCurrent (live : Live k (some k.currentThread)) :
    Live (requeueCurrent k) none ∧ view (requeueCurrent k) = view k :=
  live.moved (live.sound.placed.requeue_head (by simp [settled]))
    (live.set_current_state .ready (by simp [Awake])) rfl (fun _ => rfl) rfl rfl rfl

attribute [local simp] releaseWaiter observe onSched unqueueWaiter enqueueWaiter Sync.drop
  Sync.dropAll Sync.join Sync.leave

theorem view_releaseWaiter (cause : Cause) (code : Status) (sound : Sound k running)
    (member : t ∈ k.waitList w) :
    view (releaseWaiter k w t cause code) = (view k).drop w t code := by
  obtain ⟨blocked, timeout, caller, rest, stack, -⟩ := sound.waiter member
  have phase : (view (releaseWaiter k w t cause code)).phase =
      ((view k).drop w t code).phase := by
    funext u
    obtain rfl | same := eq_or_ne u t
    · simp [view, phaseOf, stack, blocked, Phase.release]
    · simp [view, same]
  have dead : (view (releaseWaiter k w t cause code)).dead = (view k).dead := by
    funext u
    obtain rfl | same := eq_or_ne u t
    · simp [view, blocked]
    · simp [view, same]
  exact Sync.ext phase rfl rfl rfl rfl rfl rfl rfl dead

theorem blocked_releaseWaiter (w : WaitQueueId) (cause : Cause) (code : Status) {u : Tid}
    (blocked : (releaseWaiter k w t cause code).state u = .blocked) :
    k.state u = .blocked ∧
      (releaseWaiter k w t cause code).blockingWaitQueue u = k.blockingWaitQueue u := by
  obtain rfl | same := eq_or_ne u t
  · simp at blocked
  · simpa [same] using blocked

theorem live_wakeThread (cause : Cause) (code : Status) (live : Live k running)
    (member : t ∈ k.waitList w) :
    Live (onSched (releaseWaiter k w t cause code) fun s => insertInRunQueueHead s t) running ∧
      view (onSched (releaseWaiter k w t cause code) fun s => insertInRunQueueHead s t) =
        (view k).drop w t code := by
  refine ⟨?_, view_releaseWaiter cause code live.sound member⟩
  have woken := live.reschedule (live.sound.placed.wake member)
    (fun u => blocked_releaseWaiter w cause code) (fun _ => le_rfl) le_rfl rfl
  exact { woken with }

theorem live_wakeFirst (code : Status) (live : Live k (some k.currentThread))
    (member : t ∈ k.waitList w) :
    Live (wakeFirst k w t true code) none ∧
      view (wakeFirst k w t true code) = (view k).drop w t code := by
  have runs := live.sound.placed.state_running
  have waits := (live.sound.waiter member).1
  have different : k.currentThread ≠ t := by
    rintro rfl
    rw [runs] at waits
    simp at waits
  have requeued := (live.sound.placed.unqueue_waiter member).requeue_head
    (by simp [settled, different])
  have inserted := requeued.insert_head (t := t)
    (by simp [setState, insertInRunQueueHead, different.symm]) (Or.inl rfl)
  have state : ∀ u st, st ≠ ThreadState.ready → st ≠ .running →
      ((wakeFirst k w t true code).state u = st ↔
        (releaseWaiter k w t .wakeOne code).state u = st) := by
    intro u st notReady notRunning
    show (Function.update (Function.update k.state t .ready) k.currentThread .ready u = st ↔
      Function.update k.state t .ready u = st)
    obtain rfl | same := eq_or_ne u k.currentThread
    · simp [different, runs, notReady.symm, notRunning.symm]
    · simp [same]
  constructor
  · have woken := live.reschedule (limbo_of_single id inserted) (fun u blocked =>
      blocked_releaseWaiter w .wakeOne code ((state u .blocked (by simp) (by simp)).mp blocked))
      (fun _ => le_rfl) le_rfl rfl
    exact { woken with }
  · rw [← view_releaseWaiter .wakeOne code live.sound member]
    exact view_congr (fun u => state u .blocked (by simp) (by simp))
      (fun u => state u .death (by simp) (by simp)) (fun _ => Iff.rfl) rfl rfl rfl rfl rfl rfl rfl
      rfl

variable {code : Status}

theorem dropAll_drop {σ : Sync} {rest : List Tid} (queue : σ.queue w = t :: rest)
    (once : t ∉ rest) : (σ.drop w t code).dropAll w code = σ.dropAll w code := by
  have phase : ((σ.drop w t code).dropAll w code).phase = (σ.dropAll w code).phase := by
    funext u
    obtain rfl | same := eq_or_ne u t
    · simp [queue, once]
    · simp [queue, same]
  have queues : ((σ.drop w t code).dropAll w code).queue = (σ.dropAll w code).queue := by
    simp
  exact Sync.ext phase queues rfl rfl rfl rfl rfl rfl rfl

theorem dropAll_nil {σ : Sync} (queue : σ.queue w = []) : σ.dropAll w code = σ := by
  have phase : (σ.dropAll w code).phase = σ.phase := by
    funext u
    simp [queue]
  have queues : (σ.dropAll w code).queue = σ.queue := by
    simp [← queue]
  exact Sync.ext phase queues rfl rfl rfl rfl rfl rfl rfl

/-- The loop of `wait_queue_wake_all`, by induction on the threads still queued. -/
theorem live_wakeEveryone {queue : List Tid} (code : Status) (live : Live k running)
    (waiting : k.waitList w = queue) :
    Live (queue.foldl (wakeThread w code) k) running ∧
      (queue.foldl (wakeThread w code) k).currentThread = k.currentThread ∧
      view (queue.foldl (wakeThread w code) k) = (view k).dropAll w code ∧
      (queue.foldl (wakeThread w code) k).trace = k.trace ++ (view k).removals w code := by
  induction queue generalizing k with
  | nil =>
    refine ⟨live, rfl, (dropAll_nil waiting).symm, ?_⟩
    simp [Sync.removals, view, waiting]
  | cons t rest ih =>
    have nodup := live.sound.placed.waitList_nodup w
    rw [waiting] at nodup
    obtain ⟨once, -⟩ := List.nodup_cons.mp nodup
    have member : t ∈ k.waitList w := by simp [waiting]
    have woken : Live (wakeThread w code k t) running ∧
        view (wakeThread w code k t) = (view k).drop w t code :=
      live_wakeThread .wakeAll code live member
    have left : (wakeThread w code k t).waitList w = rest := by
      simp [wakeThread, insertInRunQueueHead, waiting]
    obtain ⟨live', current, seen, trace⟩ := ih woken.1 left
    refine ⟨live', current, ?_, ?_⟩
    · refine seen.trans ?_
      rw [woken.2]
      exact dropAll_drop waiting once
    · refine trace.trans ?_
      have queueAfter : (view (wakeThread w code k t)).queue w = rest := left
      have queueBefore : (view k).queue w = t :: rest := waiting
      have grown : (wakeThread w code k t).trace = k.trace ++ [.removed t w .wakeAll code] := rfl
      simp [Sync.removals, queueAfter, queueBefore, grown]

theorem keeps_waitQueueWakeAll {reschedule : Bool} (live : Live k running)
    (runs : reschedule = true → running = some k.currentThread) :
    Keeps k running
      (fun σ os => σ = (view k).dropAll w code ∧ os = k.trace ++ (view k).removals w code)
      (waitQueueWakeAll k w reschedule code) := by
  have counted := live.sound.placed.waitCount_eq w
  by_cases moves : reschedule = true ∧ k.waitCount w > 0
  · obtain rfl := runs moves.1
    obtain ⟨requeued, seen⟩ := live_requeueCurrent live
    have positive : ((k.waitList w).length : Int) > 0 := by omega
    obtain ⟨live', -, seen', trace⟩ := live_wakeEveryone code requeued rfl
    rw [seen] at seen' trace
    have body : waitQueueWakeAll k w reschedule code =
        .switch ((k.waitList w).foldl (wakeThread w code) (requeueCurrent k))
          [.waitQueueWakeAll (k.waitList w).length] := by
      unfold waitQueueWakeAll
      simp only [moves, and_self, if_true, gt_iff_lt, true_and]
      exact if_pos positive
    rw [body]
    exact ⟨live', by simp [calm, waits, servesDpc], seen', trace⟩
  · obtain ⟨live', current, seen, trace⟩ := live_wakeEveryone code live rfl
    have still : ¬ (reschedule = true ∧ ((k.waitList w).length : Int) > 0) := by
      rw [← counted]
      exact moves
    have body : waitQueueWakeAll k w reschedule code =
        .done ((k.waitList w).foldl (wakeThread w code) k) (k.waitList w).length := by
      unfold waitQueueWakeAll
      simp only [if_neg moves]
      exact if_neg still
    rw [body]
    exact ⟨live', current, seen, trace⟩

theorem waitQueueWakeOne_nil {reschedule : Bool} (empty : k.waitList w = []) :
    waitQueueWakeOne k w reschedule code = .done k 0 := by
  simp [waitQueueWakeOne, empty]

theorem waitQueueWakeOne_cons (reschedule : Bool) (code : Status) {rest : List Tid}
    (live : Live k running) (runs : reschedule = true → running = some k.currentThread)
    (first : k.waitList w = t :: rest) :
    ∃ k', view k' = (view k).drop w t code ∧
      k'.trace = k.trace ++ [.removed t w .wakeOne code] ∧
      k'.currentThread = k.currentThread ∧
      ((reschedule = false ∧ Live k' running ∧
          waitQueueWakeOne k w reschedule code = .done k' 1) ∨
        (reschedule = true ∧ Live k' none ∧
          waitQueueWakeOne k w reschedule code = .switch k' [.waitQueueWakeOne])) := by
  have member : t ∈ k.waitList w := by simp [first]
  refine ⟨wakeFirst k w t reschedule code, ?_⟩
  cases reschedule with
  | false =>
    obtain ⟨live', seen⟩ := live_wakeThread .wakeOne code live member
    refine ⟨seen, rfl, rfl, Or.inl ⟨rfl, live', ?_⟩⟩
    simp [waitQueueWakeOne, first]
  | true =>
    obtain rfl := runs rfl
    obtain ⟨live', seen⟩ := live_wakeFirst code live member
    refine ⟨seen, rfl, rfl, Or.inr ⟨rfl, live', ?_⟩⟩
    simp [waitQueueWakeOne, first]

theorem threadUnblockFromWaitQueue_cases (t : Tid) (cause : Cause) (code : Status)
    (live : Live k running) :
    (k.state t ≠ .blocked ∧ threadUnblockFromWaitQueue k t false cause code =
        .done (enterCriticalSection k) errNotBlocked) ∨
      ∃ w k', t ∈ k.waitList w ∧ k.blockingWaitQueue t = some w ∧ Live k' running ∧
        k'.currentThread = k.currentThread ∧ view k' = (view k).drop w t code ∧
        k'.trace = k.trace ++ [.removed t w cause code] ∧
        threadUnblockFromWaitQueue k t false cause code = .done k' noError := by
  by_cases blocked : k.state t = .blocked
  · obtain ⟨w, on⟩ := live.sound.placed.blocked_on t blocked
    have member : t ∈ k.waitList w := (live.sound.placed.mem_waitList t w).mpr ⟨blocked, on⟩
    obtain ⟨live', seen⟩ := live_wakeThread cause code live member
    refine Or.inr ⟨w, exitCriticalSection (onSched
        (releaseWaiter (enterCriticalSection k) w t cause code) fun s => insertInRunQueueHead s t),
      member, on, { live' with }, rfl, seen, rfl, ?_⟩
    have on' : (enterCriticalSection k).blockingWaitQueue t = some w := on
    have blocked' : (enterCriticalSection k).state t = .blocked := blocked
    unfold threadUnblockFromWaitQueue
    simp only [blocked', ne_eq, not_true_eq_false, if_false, on', Bool.false_eq_true]
  · refine Or.inl ⟨blocked, ?_⟩
    have blocked' : (enterCriticalSection k).state t ≠ .blocked := blocked
    simp only [threadUnblockFromWaitQueue, if_pos blocked']

theorem Stacked.block {s : Sched} {stack : Tid → List Frame} {queue : List TimerId}
    {scheduled periodic : TimerId → Time} (stacked : Stacked s stack)
    (clean : ∀ f ∈ stack t, waits f = false) (notArmed : .wait t ∉ s.timerQueue)
    (old : t < s.nextThread) (timers : (timeout = infiniteTime ∧ queue = s.timerQueue) ∨
      (timeout ≠ infiniteTime ∧ ∀ x, queue.count x = (.wait t :: s.timerQueue).count x)) :
    Stacked
      { enqueueWaiter s caller.queue t with
        timerQueue := queue
        scheduledTime := scheduled
        periodicTime := periodic }
      (Function.update stack t (.waitQueueBlock timeout caller :: stack t)) where
  below := by
    intro u
    obtain rfl | same := eq_or_ne u t
    · simpa using clean
    · simpa [same] using stacked.below u
  blocked := by
    intro u blocked
    obtain rfl | same := eq_or_ne u t
    · exact ⟨timeout, caller, stack u, by simp, by simp⟩
    · have before : s.state u = .blocked := by simpa [same] using blocked
      simpa [same] using stacked.blocked u before
  armed := by
    intro u member
    obtain rfl | same := eq_or_ne u t
    · refine ⟨timeout, caller, stack u, by simp, ?_⟩
      rcases timers with ⟨-, equal⟩ | ⟨finite, -⟩
      · rw [equal] at member
        exact absurd member notArmed
      · exact finite
    · have before : .wait u ∈ s.timerQueue := by
        rcases timers with ⟨-, equal⟩ | ⟨-, counts⟩
        · rwa [equal] at member
        · have positive := List.count_pos_iff.mpr member
          rw [counts, List.count_cons_of_ne (by simp [Ne.symm same])] at positive
          exact List.count_pos_iff.mp positive
      simpa [same] using stacked.armed u before
  armed_once := by
    intro u
    have once := stacked.armed_once u
    rcases timers with ⟨-, equal⟩ | ⟨-, counts⟩
    · simpa [equal] using once
    · rw [counts]
      obtain rfl | same := eq_or_ne u t
      · simp [List.count_eq_zero_of_not_mem notArmed]
      · rw [List.count_cons_of_ne (by simp [Ne.symm same])]
        exact once
  fresh := by
    intro u young
    have different : u ≠ t := by
      rintro rfl
      exact absurd old (Nat.not_lt.mpr young)
    simpa [different] using stacked.fresh u young

private theorem enterWait_eq (k : Kernel) (w : WaitQueueId) (timeout now : Time) :
    ∃ count enabled queue scheduled periodic, enterWait k w timeout now =
      { k with
        toSched :=
          { enqueueWaiter k.toSched w k.currentThread with
            timerQueue := queue
            scheduledTime := scheduled
            periodicTime := periodic }
        criticalSectionCount := count
        intsEnabled := enabled
        waitQueueBlockRet := Function.update k.waitQueueBlockRet k.currentThread noError
        trace := k.trace ++ [.blocked k.currentThread w timeout] } ∧
      ((timeout = infiniteTime ∧ queue = k.timerQueue) ∨ (timeout ≠ infiniteTime ∧
        ∀ x, queue.count x = (.wait k.currentThread :: k.timerQueue).count x)) := by
  by_cases forever : timeout = infiniteTime
  · simp only [enterWait, forever, ne_eq, not_true_eq_false, if_false]
    exact ⟨_, _, _, _, _, rfl, Or.inl ⟨trivial, rfl⟩⟩
  · simp only [enterWait, forever, ne_eq, not_false_eq_true, if_true]
    exact ⟨_, _, _, _, _, rfl, Or.inr ⟨trivial, fun _ => insertTimerInQueue_count _ _ _ _⟩⟩

theorem trace_enterWait (k : Kernel) (w : WaitQueueId) (timeout now : Time) :
    (enterWait k w timeout now).trace = k.trace ++ [.blocked k.currentThread w timeout] := by
  obtain ⟨count, enabled, queue, scheduled, periodic, entered, -⟩ := enterWait_eq k w timeout now
  rw [entered]

/-- `wait_queue_block` with a nonzero timeout keeps the invariant, its frame being on the stack. -/
theorem sound_enterWait {now : Time} (live : Live k (some k.currentThread))
    (served : caller = .eventWaitTimeout .dpc → k.dpcThread ≠ none) :
    Sound (pushAll (enterWait k caller.queue timeout now) [.waitQueueBlock timeout caller])
      none := by
  obtain ⟨count, enabled, queue, scheduled, periodic, entered, timers⟩ :=
    enterWait_eq k caller.queue timeout now
  rw [entered]
  have sleeps : ∀ t, queue.count (.sleep t) ≤ k.timerQueue.count (.sleep t) := by
    intro t
    rcases timers with ⟨-, equal⟩ | ⟨-, counts⟩
    · rw [equal]
    · rw [counts, List.count_cons_of_ne (by simp)]
  have possible : ∀ f ∈ Frame.waitQueueBlock timeout caller :: k.stack k.currentThread,
      Possible k.dpcThread f := by
    refine List.forall_mem_cons.mpr ⟨?_, live.sound.dpc.frames _⟩
    exact ⟨by simp, fun none => servesDpc_waitQueueBlock fun equal => served equal none⟩
  refine ⟨?_, ?_, ?_⟩
  · exact (live.sound.placed.enqueue_waiter caller.queue).set_timers sleeps
  · exact Stacked.block live.sound.stacked live.clean live.not_armed live.old timers
  · exact live.sound.dpc.set_stack possible

theorem view_enterWait {now : Time} (live : Live k (some k.currentThread)) :
    view (pushAll (enterWait k caller.queue timeout now) [.waitQueueBlock timeout caller]) =
      (view k).join k.currentThread timeout caller := by
  obtain ⟨count, enabled, queue, scheduled, periodic, entered, timers⟩ :=
    enterWait_eq k caller.queue timeout now
  rw [entered]
  have phase : ∀ t, phaseOf (Function.update k.state k.currentThread .blocked t)
      (Function.update k.waitQueueBlockRet k.currentThread noError t)
      (Function.update k.stack k.currentThread
        (.waitQueueBlock timeout caller :: k.stack k.currentThread) t) =
        ((view k).join k.currentThread timeout caller).phase t := by
    intro t
    obtain rfl | same := eq_or_ne t k.currentThread
    · simp [phaseOf]
    · simp [same, view]
  have armed : ∀ t, .wait t ∈ queue ↔
      ((view k).join k.currentThread timeout caller).armed t := by
    intro t
    obtain rfl | same := eq_or_ne t k.currentThread
    · rcases timers with ⟨forever, equal⟩ | ⟨finite, counts⟩
      · simp [equal, forever, live.not_armed]
      · rw [← List.count_pos_iff, counts]
        simp [finite]
    · have count : queue.count (.wait t) = k.timerQueue.count (.wait t) := by
        rcases timers with ⟨-, equal⟩ | ⟨-, counts⟩
        · rw [equal]
        · rw [counts, List.count_cons_of_ne (by simp [Ne.symm same])]
      rw [← List.count_pos_iff, count, List.count_pos_iff]
      simp [view, same]
  have dead : ∀ t, Function.update k.state k.currentThread .blocked t = .death ↔
      k.state t = .death := by
    intro t
    obtain rfl | same := eq_or_ne t k.currentThread
    · simp [live.sound.placed.state_running]
    · simp [same]
  exact Sync.ext (funext phase) rfl (funext fun t => propext (armed t)) rfl rfl rfl rfl rfl
    (funext fun t => propext (dead t))

private theorem leaveWait_eq (k : Kernel) (w : WaitQueueId) (timeout : Time) :
    ∃ count enabled queue periodic, leaveWait (pop k) w timeout =
      { k with
        timerQueue := queue
        periodicTime := periodic
        criticalSectionCount := count
        intsEnabled := enabled
        stack := Function.update k.stack k.currentThread (k.stack k.currentThread).tail
        trace := k.trace ++ [.returned k.currentThread w timeout
          (k.waitQueueBlockRet k.currentThread)] } ∧
      ((timeout = infiniteTime ∧ queue = k.timerQueue) ∨
        queue = k.timerQueue.erase (.wait k.currentThread)) := by
  by_cases forever : timeout = infiniteTime
  · simp only [leaveWait, forever, ne_eq, not_true_eq_false, if_false]
    exact ⟨_, _, _, _, rfl, Or.inl ⟨trivial, rfl⟩⟩
  · simp only [leaveWait, forever, ne_eq, not_false_eq_true, if_true]
    exact ⟨_, _, _, _, rfl, Or.inr rfl⟩

private theorem leaveWait_count {below : List Frame} {queue : List TimerId}
    (sound : Sound k running)
    (top : k.stack k.currentThread = .waitQueueBlock timeout caller :: below)
    (timers : (timeout = infiniteTime ∧ queue = k.timerQueue) ∨
      queue = k.timerQueue.erase (.wait k.currentThread)) (x : TimerId) :
    queue.count x = if x = .wait k.currentThread then 0 else k.timerQueue.count x := by
  rcases timers with ⟨forever, rfl⟩ | rfl <;> split
  case inl.isTrue own =>
    rw [own, List.count_eq_zero]
    intro member
    obtain ⟨timeout', caller', rest, stack, finite⟩ := sound.stacked.armed _ member
    rw [top] at stack
    obtain ⟨frame, -⟩ := List.cons.inj stack
    obtain ⟨equal, -⟩ := Frame.waitQueueBlock.inj frame
    exact finite (equal ▸ forever)
  case inl.isFalse => rfl
  case inr.isTrue own =>
    have once := sound.stacked.armed_once k.currentThread
    rw [own, List.count_erase_self]
    omega
  case inr.isFalse own => exact List.count_erase_of_ne own

theorem trace_leaveWait (k : Kernel) (w : WaitQueueId) (timeout : Time) :
    (leaveWait (pop k) w timeout).trace = k.trace ++
      [.returned k.currentThread w timeout (k.waitQueueBlockRet k.currentThread)] := by
  obtain ⟨count, enabled, queue, periodic, left, -⟩ := leaveWait_eq k w timeout
  rw [left]

theorem current_leaveWait (k : Kernel) (w : WaitQueueId) (timeout : Time) :
    (leaveWait (pop k) w timeout).currentThread = k.currentThread := by
  obtain ⟨count, enabled, queue, periodic, left, -⟩ := leaveWait_eq k w timeout
  rw [left]

theorem live_leaveWait {below : List Frame} (sound : Sound k (some k.currentThread))
    (top : k.stack k.currentThread = .waitQueueBlock timeout caller :: below) :
    Live (leaveWait (pop k) caller.queue timeout) (some k.currentThread) ∧
      view (leaveWait (pop k) caller.queue timeout) = (view k).leave k.currentThread := by
  have clean : ∀ f ∈ below, waits f = false := by
    intro f member
    exact sound.stacked.below k.currentThread f (by simpa [top] using member)
  obtain ⟨count, enabled, queue, periodic, left, timers⟩ := leaveWait_eq k caller.queue timeout
  have counts := leaveWait_count sound top timers
  rw [left, top]
  have gone : .wait k.currentThread ∉ queue := by
    rw [← List.count_eq_zero]
    simpa using counts (.wait k.currentThread)
  have less : ∀ x, queue.count x ≤ k.timerQueue.count x := by
    intro x
    refine (counts x).trans_le ?_
    split
    · exact Nat.zero_le _
    · exact le_rfl
  constructor
  · refine ⟨⟨?_, ?_, ?_⟩, ?_, ?_⟩
    · exact sound.placed.set_timers fun t => less (.sleep t)
    · refine Stacked.set_stack ?_ ?_ gone sound.placed.running_lt ?_
      · exact sound.stacked.mono (fun t blocked => ⟨blocked, rfl⟩) (fun t => less (.wait t)) le_rfl
      · simp [sound.placed.state_running]
      · exact fun f member => clean f (List.mem_of_mem_tail member)
    · refine sound.dpc.set_stack fun f member => ?_
      exact sound.dpc.frames k.currentThread f (by rw [top]; exact .tail _ member)
    · simpa using clean
    · exact sound.placed.running_lt
  · have phase : ∀ t, phaseOf (k.state t) (k.waitQueueBlockRet t)
        (Function.update k.stack k.currentThread below t) =
          ((view k).leave k.currentThread).phase t := by
      intro t
      obtain rfl | same := eq_or_ne t k.currentThread
      · simpa using phaseOf_idle clean
      · simp [view, same]
    have armed : ∀ t, .wait t ∈ queue ↔ ((view k).leave k.currentThread).armed t := by
      intro t
      obtain rfl | same := eq_or_ne t k.currentThread
      · simpa using gone
      · have count := counts (.wait t)
        simp only [TimerId.wait.injEq, same, if_false] at count
        rw [← List.count_pos_iff, count, List.count_pos_iff]
        simp [view, same]
    exact Sync.ext (funext phase) rfl (funext fun t => propext (armed t)) rfl rfl rfl rfl rfl rfl

end AndroidBoot.LittleKernel.WaitQueue
