/- source: bootable/lk/include/kernel/thread.h, bootable/lk/kernel/*.c, arch/arm/exceptions.S
   digest: Every kernel function that returns leaves the critical sections it entered. -/

import AndroidBoot.LittleKernel.Machine

/-!
A frame of a kernel function leaves a fixed number of critical sections before it
returns. The frames of a thread fit a count when running them from that count
meets every recorded entry count. The count of a thread that does not run is the
saved one, so the invariant never looks at scheduling.
-/

set_option autoImplicit false

namespace AndroidBoot.LittleKernel.CriticalSection

open Function State Timer Thread Mutex Event Machine Foundation.Resumption Foundation.Run

/-- What a frame does with the count when it is returned to. -/
inductive Role where
  | entered (n : Int)
  | foreign
  | callback (n : Int)
  | final
  | exits (n : Int)

/-- Critical sections that a caller of `wait_queue_block` leaves when it is done. -/
def waiterExits : Waiter → Int
  | .plain _ => 0
  | .mutexAcquire _ => 1
  | .mutexAcquireTimeout _ => 1
  | .eventWaitTimeout _ => 1

def role : Frame → Role
  | .call n => .entered n
  | .armTimerIrq n => .entered n
  | .armIrqPreempt n => .entered n
  | .kmain => .foreign
  | .initialThreadFunc _ => .foreign
  | .threadEntry => .foreign
  | .dpcRoutine _ => .foreign
  | .armIrq => .foreign
  | .timerCallback _ _ _ n => .callback n
  | .threadExit => .final
  | .threadExited => .final
  | .threadResume => .exits 1
  | .threadYield => .exits 1
  | .threadPreempt => .exits 1
  | .threadSleep => .exits 1
  | .waitQueueBlock _ caller => .exits (1 + waiterExits caller)
  | .waitQueueWakeOne => .exits 0
  | .waitQueueWakeAll _ => .exits 0
  | .threadUnblockFromWaitQueue => .exits 1
  | .mutexRelease => .exits 1
  | .mutexDestroy => .exits 1
  | .eventSignalOne _ => .exits 1
  | .eventSignalAll => .exits 1
  | .eventDestroy => .exits 1
  | .dpcQueue => .exits 1
  | .timerTick _ => .exits 0

/-- Running the frames from the count `c` meets every recorded count. -/
def Fits : List Frame → Int → Prop
  | [], _ => True
  | f :: rest, c =>
    match role f with
    | .entered n => c = n ∧ ∀ c', Fits rest c'
    | .foreign => ∀ c', Fits rest c'
    | .callback n => Fits rest n
    | .final => True
    | .exits n => Fits rest (c - n)

def OthersFit (k : Kernel) : Prop :=
  ∀ t, t ≠ k.currentThread → Fits (k.stack t) (k.savedCriticalSectionCount t)

/-- All frames fit, those of the current thread once it has left `d` critical sections. -/
def Lands (k : Kernel) (d : Int) : Prop :=
  OthersFit k ∧ Fits (k.stack k.currentThread) (k.criticalSectionCount - d)

/-- The invariant of the machine. Code outside the kernel may leave any count. -/
def Steady (m : Machine) : Prop :=
  match m.control with
  | .user => ∀ d, Lands m.kernel d
  | _ => Lands m.kernel 0

section Frames

variable {k : Kernel} {f : Frame} {rest : List Frame} {n c d : Int}

theorem fits_entered (entered : role f = .entered n) :
    Fits (f :: rest) c ↔ c = n ∧ ∀ c', Fits rest c' := by
  simp [Fits, entered]

theorem fits_foreign (foreign : role f = .foreign) :
    Fits (f :: rest) c ↔ ∀ c', Fits rest c' := by
  simp [Fits, foreign]

theorem fits_callback (callback : role f = .callback n) :
    Fits (f :: rest) c ↔ Fits rest n := by
  simp [Fits, callback]

theorem fits_final (final : role f = .final) : Fits (f :: rest) c := by
  simp [Fits, final]

theorem fits_exits (exits : role f = .exits n) : Fits (f :: rest) c ↔ Fits rest (c - n) := by
  simp [Fits, exits]

theorem Lands.enter (lands : Lands k d) : Lands (enterCriticalSection k) (d + 1) := by
  refine ⟨lands.1, ?_⟩
  have shift : k.criticalSectionCount + 1 - (d + 1) = k.criticalSectionCount - d := by omega
  exact shift ▸ lands.2

theorem lands_armIrqEnter (lands : ∀ d, Lands k d) (d : Int) : Lands (armIrqEnter k) d := by
  have shifted := (lands (d - 1)).enter
  rw [Int.sub_add_cancel] at shifted
  exact shifted

theorem Lands.exit (lands : Lands k (d + 1)) : Lands (exitCriticalSection k) d := by
  refine ⟨lands.1, ?_⟩
  have shift : k.criticalSectionCount - 1 - d = k.criticalSectionCount - (d + 1) := by omega
  exact shift ▸ lands.2

theorem OthersFit.restack (others : OthersFit k) (frames : List Frame) :
    OthersFit { k with stack := update k.stack k.currentThread frames } := by
  intro t other
  simpa only [update_of_ne other] using others t other

theorem OthersFit.lands {frames : List Frame} (others : OthersFit k)
    (fits : Fits frames (k.criticalSectionCount - c)) :
    Lands { k with stack := update k.stack k.currentThread frames } c :=
  ⟨others.restack frames, by simpa only [update_self] using fits⟩

theorem Lands.pop (lands : Lands k d) (top : k.stack k.currentThread = f :: rest)
    (fits : Fits rest (k.criticalSectionCount - c)) : Lands (pop k) c :=
  lands.1.lands (by rw [top]; exact fits)

theorem Lands.call (lands : ∀ d, Lands k d) (entered : role f = .entered k.criticalSectionCount) :
    Lands (push k f) 0 := by
  refine (lands 0).1.lands ((fits_entered entered).mpr ⟨by omega, fun c' => ?_⟩)
  have fits := (lands (k.criticalSectionCount - c')).2
  rwa [Int.sub_sub_self] at fits

theorem Lands.foreign (lands : ∀ d, Lands k d) (foreign : role f = .foreign) (c : Int) :
    Lands (push k f) c := by
  refine (lands 0).1.lands ((fits_foreign foreign).mpr fun c' => ?_)
  have fits := (lands (k.criticalSectionCount - c')).2
  rwa [Int.sub_sub_self] at fits

theorem Lands.contextSwitch (lands : Lands k 0) (t : Tid) : Lands (contextSwitch k t) 0 := by
  unfold Thread.contextSwitch
  split
  case isTrue => exact lands
  case isFalse other =>
    refine ⟨fun u different => ?_, ?_⟩
    · obtain rfl | left := eq_or_ne u k.currentThread
      · simpa using lands.2
      · simpa [left] using lands.1 u left
    · simpa [other] using lands.1 t other

end Frames

/-- Critical sections that the frames of a function still leave. -/
def total (frames : List Frame) : Int :=
  (frames.map fun f => match role f with
    | .exits n => n
    | _ => 0).sum

def through (f : Frame) : Prop := ∃ n, role f = .exits n

/-- A function that is called `d` critical sections deep stays there if it returns,
and goes back there if it is switched away from. -/
def Balances (d : Int) (o : Result) : Prop :=
  o.Sat (fun k _ => Lands k d)
    (fun k frames => (∀ f ∈ frames, through f) ∧ Lands k (d + total frames))

theorem fits_append {frames rest : List Frame} {c : Int} (passed : ∀ f ∈ frames, through f) :
    Fits (frames ++ rest) c ↔ Fits rest (c - total frames) := by
  induction frames generalizing c with
  | nil => simp [total]
  | cons f frames ih =>
    obtain ⟨n, exits⟩ := passed f List.mem_cons_self
    rw [List.cons_append, fits_exits exits, ih (List.forall_mem_cons.mp passed).2]
    have shift : c - n - total frames = c - total (f :: frames) := by
      simp only [total, List.map_cons, List.sum_cons, exits]
      omega
    rw [shift]

theorem Lands.pushAll {k : Kernel} {frames : List Frame} {d : Int}
    (lands : Lands k (d + total frames)) (passed : ∀ f ∈ frames, through f) :
    Lands (pushAll k frames) d := by
  refine lands.1.lands ((fits_append passed).mpr ?_)
  have shift : k.criticalSectionCount - d - total frames =
      k.criticalSectionCount - (d + total frames) := by omega
  exact shift ▸ lands.2

theorem Balances.steady {o : Result} {m : Machine} (balances : Balances 0 o)
    (settles : settle o = some m) : Steady m := by
  cases o with
  | done k r =>
    cases settles
    exact balances
  | switch k frames =>
    cases settles
    exact Lands.pushAll balances.2 balances.1
  | halt => cases settles

theorem Balances.andThen {o : Result} {f : Frame} {n d : Int} {rest : Kernel → Int → Result}
    (call : Balances (d + n) o) (exits : role f = .exits n)
    (goesOn : ∀ k r, Lands k (d + n) → Balances d (rest k r)) :
    Balances d (o.andThen f rest) := by
  refine Outcome.Sat.andThen call goesOn fun k frames ⟨passed, lands⟩ => ⟨?_, ?_⟩
  · exact List.forall_mem_append.mpr ⟨passed, List.forall_mem_singleton.mpr ⟨n, exits⟩⟩
  · have shift : d + n + total frames = d + total (frames ++ [f]) := by
      simp only [total, List.map_append, List.map_singleton, List.sum_append, List.sum_singleton,
        exits]
      omega
    exact shift ▸ lands

section Functions

variable {k : Kernel} {d : Int}

theorem balances_switch {f : Frame} {n : Int} (exits : role f = .exits n)
    (lands : Lands k (d + n)) : Balances d (.switch k [f]) := by
  refine ⟨fun g member => ⟨n, by rw [List.mem_singleton.mp member, exits]⟩, ?_⟩
  have single : total [f] = n := by
    simp [total, exits]
  exact single.symm ▸ lands

section Lands

variable (lands : Lands k d)
include lands

theorem lands_timerSet (timer : TimerId) (delay period now : Time) :
    Lands (timerSet k timer delay period now) d :=
  Lands.exit (show Lands _ (d + 1) from lands.enter)

theorem lands_timerCancel (timer : TimerId) : Lands (timerCancel k timer) d :=
  Lands.exit (show Lands _ (d + 1) from lands.enter)

theorem lands_threadCreate (entry : Entry) (priority : Priority) :
    Lands (threadCreate k entry priority) d := by
  have fresh (c : Int) : Fits [.initialThreadFunc entry] c := fun _ => trivial
  have created : Lands { k with
      stack := update k.stack k.nextThread [.initialThreadFunc entry]
      savedCriticalSectionCount :=
        update k.savedCriticalSectionCount k.nextThread 1 } d := by
    refine ⟨fun t other => ?_, ?_⟩
    · obtain rfl | new := eq_or_ne t k.nextThread
      · simpa using fresh 1
      · simpa [new] using lands.1 t other
    · by_cases new : k.currentThread = k.nextThread
      · simpa [new] using fresh _
      · simpa [new] using lands.2
  exact Lands.exit (show Lands _ (d + 1) from created.enter)

theorem balances_threadYield : Balances d (threadYield k) :=
  balances_switch rfl (show Lands _ (d + 1) from lands.enter)

theorem balances_threadPreempt : Balances d (threadPreempt k) := by
  have entered := lands.enter
  unfold threadPreempt
  dsimp only
  split <;> exact balances_switch rfl (show Lands _ (d + 1) from entered)

theorem balances_threadResume (t : Tid) : Balances d (threadResume k t) := by
  unfold threadResume
  split
  case isTrue => exact lands
  case isFalse =>
    refine Balances.andThen (balances_threadYield ?_) rfl fun _ _ back => back.exit
    exact show Lands _ (d + 1) from lands.enter

theorem balances_threadSleep (delay now : Time) : Balances d (threadSleep k delay now) :=
  balances_switch rfl
    (show Lands _ (d + 1) from lands_timerSet lands.enter (.sleep k.currentThread) _ 0 now)

theorem lands_enterWait (w : WaitQueueId) (timeout now : Time) :
    Lands (enterWait k w timeout now) (d + 1) := by
  unfold enterWait
  refine Lands.enter ?_
  split
  case isTrue =>
    exact lands_timerSet lands (.wait k.currentThread) (if timeout = 0 then 1 else timeout) 0 now
  case isFalse => exact lands

end Lands

theorem lands_leaveWait (lands : Lands k (d + 1)) (w : WaitQueueId) (timeout : Time) :
    Lands (leaveWait k w timeout) d := by
  unfold leaveWait
  split
  case isTrue => exact lands_timerCancel lands.exit _
  case isFalse => exact lands.exit

theorem balances_waitQueueBlock {caller : Waiter} {rest : Kernel → Status → Result}
    (lands : Lands k (d + waiterExits caller)) (timeout now : Time)
    (goesOn : ∀ k r, Lands k (d + waiterExits caller) → Balances d (rest k r)) :
    Balances d (waitQueueBlock k timeout now caller rest) := by
  unfold waitQueueBlock
  split
  case isTrue => exact goesOn _ _ lands
  case isFalse =>
    refine balances_switch rfl ?_
    have entered := lands_enterWait lands caller.queue timeout now
    rwa [Int.add_assoc, Int.add_comm (waiterExits caller)] at entered

theorem lands_wakeThreads (w : WaitQueueId) (code : Status) (threads : List Tid)
    (lands : Lands k d) : Lands (threads.foldl (wakeThread w code) k) d := by
  induction threads generalizing k with
  | nil => exact lands
  | cons t threads ih => exact ih (show Lands (wakeThread w code k t) d from lands)

theorem balances_threadResched (lands : Lands k 0) : Balances 0 (threadResched k) := by
  unfold threadResched
  split
  case isTrue => trivial
  case isFalse =>
    split
    · trivial
    · rename_i t rest _
      exact Lands.contextSwitch (show Lands (onSched k fun s =>
        setState (dequeue s (nextQueue s.runQueueBitmap) rest) t .running) 0 from lands) t

section

variable (lands : Lands k (d + 1))
include lands

theorem balances_takeMutex (m : Nat) (ret : Status) : Balances d (takeMutex k m ret) :=
  Lands.exit (show Lands _ (d + 1) from lands)

theorem balances_mutexAcquireWoken (m : Nat) (ret : Status) :
    Balances d (mutexAcquireWoken m k ret) := by
  unfold mutexAcquireWoken
  split
  case isTrue => exact lands.exit
  case isFalse => exact balances_takeMutex lands m ret

theorem balances_mutexAcquireTimeoutWoken (m : Nat) (ret : Status) :
    Balances d (mutexAcquireTimeoutWoken m k ret) := by
  unfold mutexAcquireTimeoutWoken
  split
  case isTrue => exact Lands.exit (show Lands _ (d + 1) from lands)
  case isFalse => exact balances_takeMutex lands m ret

theorem balances_eventSignalOneDone (e : EventId) (r : Int) :
    Balances d (eventSignalOneDone e k r) := by
  unfold eventSignalOneDone
  refine Lands.exit ?_
  split <;> exact lands

end

section Operations

variable (lands : Lands k d)
include lands

variable (w : WaitQueueId)

theorem lands_waitQueueWakeOne (reschedule : Bool)
    (code : Status) : (waitQueueWakeOne k w reschedule code).Sat (fun k _ => Lands k d)
      (fun k frames => frames = [.waitQueueWakeOne] ∧ Lands k d) := by
  unfold waitQueueWakeOne
  split
  · exact lands
  · rename_i t rest _
    have woken : Lands (wakeFirst k w t reschedule code) d := by
      cases reschedule <;> exact lands
    split
    case isTrue => exact ⟨rfl, woken⟩
    case isFalse => exact woken

theorem balances_waitQueueWakeOne (reschedule : Bool)
    (code : Status) : Balances d (waitQueueWakeOne k w reschedule code) := by
  refine (lands_waitQueueWakeOne lands w reschedule code).mono (fun _ _ => id) ?_
  rintro k _ ⟨rfl, lands⟩
  exact balances_switch rfl (by simpa using lands)

theorem balances_waitQueueWakeAll (reschedule : Bool)
    (code : Status) : Balances d (waitQueueWakeAll k w reschedule code) := by
  have woken (k' : Kernel) (lands : Lands k' d) :
      Balances d (if reschedule ∧ ((k'.waitList w).length : Int) > 0 then
        .switch ((k'.waitList w).foldl (wakeThread w code) k')
          [.waitQueueWakeAll (k'.waitList w).length]
      else .done ((k'.waitList w).foldl (wakeThread w code) k') (k'.waitList w).length) := by
    have all := lands_wakeThreads w code (k'.waitList w) lands
    split
    case isTrue => exact balances_switch rfl (by simpa using all)
    case isFalse => exact all
  unfold waitQueueWakeAll
  refine woken _ ?_
  split <;> exact lands

theorem balances_threadUnblockFromWaitQueue {t : Tid}
    (blocked : k.state t = .blocked) (reschedule : Bool) (cause : Cause) (code : Status) :
    Balances d (threadUnblockFromWaitQueue k t reschedule cause code) := by
  have entered := lands.enter
  unfold threadUnblockFromWaitQueue
  rw [if_neg (by simp [blocked])]
  split
  · trivial
  · split
    case isTrue => exact balances_switch rfl (show Lands _ (d + 1) from entered)
    case isFalse => exact Lands.exit (show Lands _ (d + 1) from entered)

theorem balances_mutexAcquire (m : Nat) (now : Time) : Balances d (mutexAcquire k m now) := by
  have entered := lands.enter
  unfold mutexAcquire
  dsimp only
  split
  case isTrue => trivial
  case isFalse =>
    split
    case isTrue =>
      refine balances_waitQueueBlock ?_ infiniteTime now fun _ ret back =>
        balances_mutexAcquireWoken back m ret
      exact entered
    case isFalse => exact balances_takeMutex (by exact entered) m noError

theorem balances_mutexAcquireTimeout (m : Nat) (timeout now : Time) :
    Balances d (mutexAcquireTimeout k m timeout now) := by
  have entered := lands.enter
  unfold mutexAcquireTimeout
  dsimp only
  split
  case isTrue => trivial
  case isFalse =>
    split
    case isTrue => exact balances_mutexAcquire lands m now
    case isFalse =>
      split
      case isTrue =>
        refine balances_waitQueueBlock ?_ timeout now fun _ ret back =>
          balances_mutexAcquireTimeoutWoken back m ret
        exact entered
      case isFalse => exact balances_takeMutex (by exact entered) m noError

theorem balances_mutexRelease (m : Nat) : Balances d (mutexRelease k m) := by
  have given : Lands (giveBack (enterCriticalSection k) m) (d + 1) := lands.enter
  unfold mutexRelease
  dsimp only
  split
  case isTrue => trivial
  case isFalse =>
    split
    case isTrue =>
      exact Balances.andThen (balances_waitQueueWakeOne given _ true noError) rfl
        fun _ _ back => back.exit
    case isFalse => exact given.exit

theorem balances_mutexDestroy (m : Nat) : Balances d (mutexDestroy k m) := by
  have entered := lands.enter
  unfold mutexDestroy waitQueueDestroy
  refine Balances.andThen (balances_waitQueueWakeAll ?_ _ _ _) rfl fun _ _ back => back.exit
  exact entered

variable (e : EventId)

theorem balances_eventWaitTimeout (timeout now : Time) :
    Balances d (eventWaitTimeout k e timeout now) := by
  have entered := lands.enter
  unfold eventWaitTimeout
  dsimp only
  split
  case isTrue =>
    split <;> exact Lands.exit (show Lands _ (d + 1) from entered)
  case isFalse =>
    refine balances_waitQueueBlock ?_ timeout now fun _ _ back => back.exit
    exact entered

theorem balances_eventSignal (reschedule : Bool) : Balances d (eventSignal k e reschedule) := by
  have entered := lands.enter
  unfold eventSignal
  dsimp only
  split
  case isTrue => exact Lands.exit (show Lands _ (d + 1) from entered)
  case isFalse =>
    split
    case isTrue =>
      have woken := lands_waitQueueWakeOne (show Lands
        (enterCriticalSection (observe k (.signal e (k.signalled e)))) (d + 1) from entered)
        (.event e) reschedule noError
      refine Outcome.Sat.absorb woken (fun _ r back => balances_eventSignalOneDone back e r) ?_
      exact fun _ _ back => balances_switch rfl back.2
    case isFalse =>
      refine Balances.andThen (balances_waitQueueWakeAll ?_ _ _ _) rfl fun _ _ back => back.exit
      exact entered

theorem balances_eventDestroy : Balances d (eventDestroy k e) := by
  have entered := lands.enter
  unfold eventDestroy waitQueueDestroy
  refine Balances.andThen (balances_waitQueueWakeAll ?_ _ _ _) rfl fun _ _ back => back.exit
  exact entered

theorem lands_eventUnsignal : Lands (eventUnsignal k e) d :=
  Lands.exit (show Lands _ (d + 1) from lands.enter)

theorem balances_dpcQueue (c : Dpc) (noresched : Bool) : Balances d (dpcQueue k c noresched) := by
  unfold dpcQueue
  split
  case isTrue => trivial
  case isFalse =>
    refine Balances.andThen (balances_eventSignal ?_ _ _) rfl fun _ _ back => back.exit
    exact show Lands (enterCriticalSection k) (d + 1) from lands.enter

theorem balances_dpcInit : Balances d (dpcInit k) := by
  have ready : Lands (eventInit k .dpc false 0) d := lands
  have created := lands_threadCreate ready .dpcThreadRoutine dpcPriority
  unfold dpcInit
  refine balances_threadResume ?_ _
  exact created

end Operations

end Functions

section Steps

variable {k : Kernel} {m : Machine}

theorem steady_threadExit {d : Int} (lands : Lands k d) (retcode : Int)
    (settles : settle (threadExit k retcode) = some m) : Steady m := by
  have died : Lands (die (enterCriticalSection k) retcode) (d + 1) := lands.enter
  have queued := balances_dpcQueue died
    (.threadCleanup (die (enterCriticalSection k) retcode).currentThread) true
  unfold threadExit at settles
  dsimp only at settles
  generalize dpcQueue (die (enterCriticalSection k) retcode) _ true = o at queued settles
  cases o with
  | done k' r =>
    cases settles
    exact queued.1.lands (fits_final rfl)
  | switch k' frames =>
    cases settles
    refine queued.2.1.lands ?_
    rw [List.append_assoc]
    exact (fits_append queued.1).mpr (fits_final rfl)
  | halt => cases settles

theorem balances_deviceTimerSet {n : Nat} {set : Kernel → TimerId → Kernel}
    (lands : Lands (set k (.device n)) 0) : Balances 0 (deviceTimerSet k n set) := by
  unfold deviceTimerSet
  split
  case isTrue => trivial
  case isFalse => exact lands

theorem balances_callBody (lands : Lands k 0) (c : Call)
    (returns : ∀ retcode, c ≠ .threadExit retcode)
    (blocked : ∀ t reschedule code, c = .threadUnblockFromWaitQueue t reschedule code →
      k.state t = .blocked) : Balances 0 (callBody k c) := by
  cases c with
  | threadExit retcode => exact absurd rfl (returns retcode)
  | threadCreate priority allocated =>
    show Lands _ 0
    split
    case isTrue => exact lands_threadCreate lands .user priority
    case isFalse => exact lands
  | threadResume t => exact balances_threadResume lands t
  | threadYield => exact balances_threadYield lands
  | threadPreempt => exact balances_threadPreempt lands
  | threadSleep delay now => exact balances_threadSleep lands delay now
  | threadSetPriority | threadBecomeIdle => exact lands
  | waitQueueBlock n timeout now =>
    have outermost : Lands k (0 + waiterExits (.plain n)) := lands
    exact balances_waitQueueBlock outermost timeout now fun _ _ back => back
  | waitQueueWakeOne n reschedule code =>
    exact balances_waitQueueWakeOne lands _ reschedule code
  | waitQueueWakeAll n reschedule code =>
    exact balances_waitQueueWakeAll lands _ reschedule code
  | waitQueueDestroy n reschedule =>
    exact balances_waitQueueWakeAll lands _ reschedule errObjectDestroyed
  | threadUnblockFromWaitQueue t reschedule code =>
    exact balances_threadUnblockFromWaitQueue lands (blocked t reschedule code rfl) reschedule
      .unblock code
  | mutexAcquire n now => exact balances_mutexAcquire lands n now
  | mutexAcquireTimeout n timeout now => exact balances_mutexAcquireTimeout lands n timeout now
  | mutexRelease n => exact balances_mutexRelease lands n
  | mutexDestroy n => exact balances_mutexDestroy lands n
  | eventWait n now => exact balances_eventWaitTimeout lands _ infiniteTime now
  | eventWaitTimeout n timeout now => exact balances_eventWaitTimeout lands _ timeout now
  | eventSignal n reschedule => exact balances_eventSignal lands _ reschedule
  | eventUnsignal n => exact lands_eventUnsignal lands (.user n)
  | eventDestroy n => exact balances_eventDestroy lands _
  | dpcInit => exact balances_dpcInit lands
  | dpcQueue n noresched => exact balances_dpcQueue lands _ noresched
  | timerSetOneshot n delay now =>
    show Balances 0 (deviceTimerSet k n fun k timer => timerSetOneshot k timer delay now)
    exact balances_deviceTimerSet (lands_timerSet lands (.device n) _ 0 now)
  | timerSetPeriodic n period now =>
    show Balances 0 (deviceTimerSet k n fun k timer => timerSetPeriodic k timer period now)
    exact balances_deviceTimerSet (lands_timerSet lands (.device n) _ _ now)
  | timerCancel n => exact lands_timerCancel lands (.device n)

theorem steady_callBody (lands : Lands k 0) (c : Call)
    (blocked : ∀ t reschedule code, c = .threadUnblockFromWaitQueue t reschedule code →
      k.state t = .blocked)
    (settles : settle (callBody k c) = some m) : Steady m := by
  by_cases ends : ∃ retcode, c = .threadExit retcode
  · obtain ⟨retcode, rfl⟩ := ends
    exact steady_threadExit lands retcode settles
  · have returns (retcode : Int) : c ≠ .threadExit retcode := fun same => ends ⟨retcode, same⟩
    exact (balances_callBody lands c returns blocked).steady settles

theorem steady_armIrqHandled {r : Int} (lands : ∀ d, Lands k d)
    (settles : armIrqHandled k r = some m) : Steady m := by
  unfold armIrqHandled at settles
  split at settles
  case isTrue =>
    exact (balances_threadPreempt (Lands.call lands rfl)).steady settles
  case isFalse =>
    cases settles
    intro d
    have shifted := lands (d + 1)
    exact Lands.exit shifted

/-- The callback of a wait timer finds its thread blocked. -/
def timerBlocked (k : Kernel) (timer : TimerId) : Bool :=
  match timer with
  | .wait t => k.state t = .blocked
  | _ => true

def dueBlocked (k : Kernel) (now : Time) : Bool :=
  match k.timerQueue with
  | [] => true
  | timer :: _ => timeLt now (k.scheduledTime timer) || timerBlocked k timer

section Steady

variable (lands : Lands k 0)
include lands

theorem steady_fireTimer {now : Time} {timer : TimerId}
    (blocked : timerBlocked k timer = true) (settles : fireTimer k now timer = some m) :
    Steady m := by
  cases timer with
  | wait t =>
    refine Balances.steady ?_ settles
    exact balances_threadUnblockFromWaitQueue lands (by simpa [timerBlocked] using blocked) false
      .timer errTimedOut
  | sleep t =>
    cases settles
    exact lands
  | device n =>
    cases settles
    intro d
    refine lands.1.lands ((fits_callback rfl).mpr ?_)
    simpa using lands.2

theorem steady_timerTick {now : Time}
    (blocked : dueBlocked k now = true) (settles : timerTick k now = some m) : Steady m := by
  have ticked : Lands (threadTimerTick k) 0 := by
    unfold threadTimerTick
    split <;> exact lands
  unfold timerTick at settles
  split at settles
  · cases settles
    exact ticked
  · rename_i timer rest queue
    split at settles
    case isTrue =>
      cases settles
      exact ticked
    case isFalse due =>
      refine steady_fireTimer ?_ ?_ settles
      · refine OthersFit.lands (show OthersFit { k with timerQueue := rest } from lands.1) ?_
        refine (fits_exits (n := 0) rfl).mpr ?_
        simpa using lands.2
      · have found : timerBlocked k timer = true := by
          rw [dueBlocked, queue] at blocked
          simpa [due] using blocked
        exact found

section Top

variable {f : Frame} {rest : List Frame} (top : k.stack k.currentThread = f :: rest)
include top

theorem Lands.returned {n : Int} (exits : role f = .exits n) : Lands (State.pop k) n := by
  have fits := lands.2
  rw [top, fits_exits exits] at fits
  exact lands.pop top (by simpa using fits)

theorem Lands.left {n : Int} (entered : role f = .entered n) (d : Int) : Lands (State.pop k) d := by
  have fits := lands.2
  rw [top, fits_entered entered] at fits
  exact lands.pop top (fits.2 _)

theorem Lands.started (foreign : role f = .foreign) (d : Int) : Lands (State.pop k) d := by
  have fits := lands.2
  rw [top, fits_foreign foreign] at fits
  exact lands.pop top (fits _)

theorem steady_resumeFrame {r : Int} (blocked : ∀ now, f = .timerTick now → dueBlocked k now = true)
    (settles : resumeFrame (State.pop k) f r = some m) : Steady m := by
  have leaves (exits : role f = .exits 1) : Lands (exitCriticalSection (State.pop k)) 0 :=
    (lands.returned top exits).exit
  cases f with
  | call n =>
    cases settles
    exact lands.left top rfl
  | initialThreadFunc entry =>
    cases settles
    have outside (d : Int) : Lands (exitCriticalSection (State.pop k)) d :=
      Lands.exit (lands.started top rfl (d + 1))
    exact Lands.foreign outside (by cases entry <;> rfl)
  | waitQueueBlock timeout caller =>
    have waited : Lands (State.pop k) (waiterExits caller + 1) :=
      Int.add_comm 1 _ ▸ lands.returned top rfl
    have left := lands_leaveWait waited caller.queue timeout
    refine Balances.steady ?_ settles
    cases caller with
    | plain n => exact left
    | mutexAcquire n => exact balances_mutexAcquireWoken left n _
    | mutexAcquireTimeout n => exact balances_mutexAcquireTimeoutWoken left n _
    | eventWaitTimeout e => exact left.exit
  | eventSignalOne e =>
    exact (balances_eventSignalOneDone (lands.returned top rfl) e 1).steady settles
  | timerTick now =>
    exact steady_timerTick (lands.returned top rfl) (blocked now rfl) settles
  | armTimerIrq n => exact steady_armIrqHandled (lands.left top rfl) settles
  | armIrqPreempt n =>
    cases settles
    intro d
    exact Lands.exit (lands.left top rfl (d + 1))
  | threadExit =>
    cases settles
    exact (lands.1.restack _).lands (fits_final rfl)
  | waitQueueWakeOne | waitQueueWakeAll =>
    cases settles
    exact lands.returned top rfl
  | _ =>
    first
    | cases settles
      exact leaves rfl
    | cases settles

theorem steady_proceedFrame {r : Int}
    (kept : ∀ n, role f = .callback n → k.criticalSectionCount = n)
    (settles : proceedFrame (State.pop k) f r = some m) : Steady m := by
  have below (foreign : role f = .foreign) : ∀ d, Lands (State.pop k) d :=
    lands.started top foreign
  cases f with
  | threadEntry => exact steady_threadExit (below rfl 0) r settles
  | armIrq => exact steady_armIrqHandled (below rfl) settles
  | timerCallback n periodic now entryCount =>
    cases settles
    have fits := lands.2
    rw [top, fits_callback rfl] at fits
    have back : Lands (State.pop k) 0 := by
      refine lands.pop top ?_
      simpa [kept entryCount rfl] using fits
    show Lands (timerCallbackDone _ _ _ _) 0
    unfold timerCallbackDone
    dsimp only
    split <;> exact back
  | dpcRoutine point =>
    have again (point : DpcPoint) {k' : Kernel} (outside : ∀ d, Lands k' d) :
        ∀ d, Lands (State.push k' (.dpcRoutine point)) d := Lands.foreign outside rfl
    cases point with
    | wait =>
      exact (balances_eventWaitTimeout (Lands.call (again .dequeue (below rfl)) rfl) .dpc
        infiniteTime 0).steady settles
    | dequeue =>
      cases settles
      refine again _ fun d => ?_
      have entered : Lands (enterCriticalSection (State.pop k)) (d + 1) := (below rfl d).enter
      unfold dpcDequeue
      dsimp only
      split
      · exact Lands.exit (lands_eventUnsignal entered .dpc)
      · exact Lands.exit (show Lands _ (d + 1) from entered)
    | callback c =>
      cases c with
      | threadCleanup t =>
        cases settles
        refine again .wait fun d => ?_
        exact Lands.exit (show Lands _ (d + 1) from (below rfl d).enter)
      | device n =>
        cases settles
        exact again .wait (below rfl)
  | _ => cases settles

end Top

end Steady

end Steps

/-- Callbacks of device timers leave the critical sections they enter. -/
def callbacksBalance (s : Machine) (l : Label) : Bool :=
  match s.control, l, s.kernel.stack s.kernel.currentThread with
  | .user, .proceed _, .timerCallback _ _ _ n :: _ => s.kernel.criticalSectionCount = n
  | _, _, _ => true

/-- `thread_unblock_from_wait_queue`, called directly or by the timer of a wait that
is due, gets a thread that is blocked. -/
def unblocksBlocked (s : Machine) (l : Label) : Bool :=
  match s.control, l, s.kernel.stack s.kernel.currentThread with
  | .user, .call (.threadUnblockFromWaitQueue t _ _), _ => s.kernel.state t = .blocked
  | .ret _, .kernel, .timerTick now :: _ => dueBlocked s.kernel now
  | _, _, _ => true

theorem step_steady {s m : Machine} {l : Label} (steady : Steady s)
    (callbacks : callbacksBalance s l = true) (unblocks : unblocksBlocked s l = true)
    (next : step s l = some m) : Steady m := by
  obtain ⟨k, control⟩ := s
  cases control with
  | user =>
    have lands : ∀ d, Lands k d := steady
    cases l with
    | call c =>
      dsimp only [step] at next
      split at next
      case isTrue =>
        refine steady_callBody (Lands.call lands rfl) c ?_ next
        rintro t reschedule code rfl
        simpa [unblocksBlocked] using unblocks
      case isFalse => cases next
    | enterCriticalSection =>
      cases next
      intro d
      simpa using (lands (d - 1)).enter
    | exitCriticalSection =>
      cases next
      intro d
      exact (lands (d + 1)).exit
    | proceed r =>
      dsimp only [step] at next
      rcases top : k.stack k.currentThread with _ | ⟨f, rest⟩ <;> rw [top] at next
      · cases next
      · refine steady_proceedFrame (lands 0) top ?_ next
        intro n callback
        cases f <;> simp only [role, reduceCtorEq, Role.callback.injEq] at callback
        subst callback
        simpa [callbacksBalance, top] using callbacks
    | timerIrq now =>
      dsimp only [step] at next
      split at next
      case isTrue =>
        cases next
        have called : Lands (push (armIrqEnter k) (.armTimerIrq _)) 0 :=
          Lands.call (lands_armIrqEnter lands) rfl
        refine called.1.lands ((fits_exits (n := 0) rfl).mpr ?_)
        simpa using called.2
      case isFalse => cases next
    | deviceIrq =>
      dsimp only [step] at next
      split at next
      case isTrue =>
        cases next
        exact Lands.foreign (lands_armIrqEnter lands) rfl
      case isFalse => cases next
    | kernel => cases next
  | resched =>
    cases l with
    | kernel =>
      refine Balances.steady ?_ next
      exact balances_threadResched steady
    | _ => cases next
  | ret r =>
    cases l with
    | kernel =>
      dsimp only [step] at next
      rcases top : k.stack k.currentThread with _ | ⟨f, rest⟩ <;> rw [top] at next
      · cases next
      · refine steady_resumeFrame steady top ?_ next
        rintro now rfl
        simpa [unblocksBlocked, top] using unblocks
    | _ => cases next


theorem steady_threadInitEarly (initial : Nat → Bool) (flags : Nat → BitVec 32) :
    Steady (threadInitEarly initial flags) := by
  intro d
  refine ⟨fun t other => ?_, ?_⟩
  · have empty : (threadInitEarly initial flags).kernel.stack t = [] := if_neg other
    rw [empty]
    trivial
  · exact fun _ => trivial

/-- A kernel function that returns to the code that called it, or to the interrupt
handler, does so with the count at its entry. -/
def returnBalanced (m : Machine) : Bool :=
  match m.control, m.kernel.stack m.kernel.currentThread with
  | .ret _, .call n :: _ => m.kernel.criticalSectionCount = n
  | .ret _, .armTimerIrq n :: _ => m.kernel.criticalSectionCount = n
  | .ret _, .armIrqPreempt n :: _ => m.kernel.criticalSectionCount = n
  | _, _ => true

theorem Steady.returnBalanced {m : Machine} (steady : Steady m) : returnBalanced m = true := by
  obtain ⟨k, control⟩ := m
  unfold CriticalSection.returnBalanced
  split
  all_goals first
    | rfl
    | rename_i control top
      obtain rfl := control
      have lands : Lands k 0 := steady
      have fits := lands.2
      rw [top, fits_entered rfl] at fits
      simpa using fits.1

theorem dpcRoutine_count {k : Kernel} {point : DpcPoint} {rest : List Frame} {r : Int}
    {m : Machine} (top : k.stack k.currentThread = .dpcRoutine point :: rest)
    (inside : point ≠ .wait) (next : step ⟨k, .user⟩ (.proceed r) = some m) :
    m.kernel.criticalSectionCount = k.criticalSectionCount := by
  dsimp only [step] at next
  rw [top] at next
  cases point with
  | wait => exact absurd rfl inside
  | dequeue =>
    cases next
    show (dpcDequeue _).1.criticalSectionCount = _
    unfold dpcDequeue
    dsimp only
    split
    · show k.criticalSectionCount + 1 + 1 - 1 - 1 = _
      omega
    · show k.criticalSectionCount + 1 - 1 = _
      omega
  | callback d =>
    cases d with
    | threadCleanup t =>
      cases next
      show k.criticalSectionCount + 1 - 1 = _
      omega
    | device n =>
      cases next
      rfl

/-- In every run in which `thread_unblock_from_wait_queue` only meets blocked threads,
every kernel function returns with the count it was entered with. -/
theorem critical_sections_balance {initial : Nat → Bool} {flags : Nat → BitVec 32}
    {m : Machine}
    (reach : Reach step (fun s l => (callbacksBalance s l && unblocksBlocked s l) = true)
      (threadInitEarly initial flags) m) :
    returnBalanced m = true ∧
      ∀ point rest r m', m.control = .user →
        m.kernel.stack m.kernel.currentThread = .dpcRoutine point :: rest → point ≠ .wait →
        step m (.proceed r) = some m' →
        m'.kernel.criticalSectionCount = m.kernel.criticalSectionCount := by
  have steady : Steady m := by
    refine reach.invariant Steady (steady_threadInitEarly initial flags) ?_
    intro s l s' steady allowed next
    obtain ⟨callbacks, unblocks⟩ := Bool.and_eq_true_iff.mp allowed
    exact step_steady steady callbacks unblocks next
  refine ⟨steady.returnBalanced, fun point rest r m' control top inside next => ?_⟩
  obtain ⟨k, _⟩ := m
  obtain rfl : _ = Control.user := control
  exact dpcRoutine_count top inside next

def timedWaiter : List Label :=
  Label.idleAndOne ++ Label.upTo (.call (.eventWaitTimeout 0 5 0)) 4

theorem critical_sections_balance_woken : ∃ m,
    Reach step (fun s l => (callbacksBalance s l && unblocksBlocked s l) = true)
      (threadInitEarly (fun _ => false) (fun _ => 0)) m ∧
      m.control = .ret 1 ∧
      m.kernel.stack m.kernel.currentThread = [.armTimerIrq 1, .kmain] ∧
      m.kernel.state 1 = .ready ∧ returnBalanced m = true :=
  exists_reach_of_replay (timedWaiter ++ Label.upTo (.timerIrq 100) 2)
    (fun m => m.control = .ret 1 ∧
      m.kernel.stack m.kernel.currentThread = [.armTimerIrq 1, .kmain] ∧
      m.kernel.state 1 = .ready) (by decide +kernel)
    fun _ reach ⟨returned, stack, ready⟩ =>
      ⟨returned, stack, ready, (critical_sections_balance reach).1⟩

/-- The event is signalled and the timer of the wait expires before the woken thread runs:
`timer_tick` returns to the interrupt handler with one critical section more than it was entered
with. -/
theorem late_timeout_leaks : ∃ m,
    Reach step (fun s l => callbacksBalance s l = true)
      (threadInitEarly (fun _ => false) (fun _ => 0)) m ∧
      m.control = .ret 1 ∧
      m.kernel.stack m.kernel.currentThread = [.armTimerIrq 1, .kmain] ∧
      m.kernel.criticalSectionCount = 2 ∧ returnBalanced m = false :=
  exists_reach_of_replay (List.flatten [timedWaiter, Label.upTo (.call (.eventSignal 0 false)) 1,
    Label.upTo (.timerIrq 100) 2]) _ (by decide +kernel) fun _ _ => id

end AndroidBoot.LittleKernel.CriticalSection
