/- source: bootable/lk/kernel/*.c, arch/arm/exceptions.S, arch/arm/thread.c
   digest: The running kernel: calls, returns, context switches and interrupts. -/

import AndroidBoot.Foundation.Run
import AndroidBoot.LittleKernel.Event
import AndroidBoot.LittleKernel.Mutex

/-!
Code outside the kernel (thread bodies, device handlers, callbacks) is arbitrary:
in control `user` it may make any call, and an interrupt may arrive when the
processor takes interrupts. A kernel call runs without interruption up to its
context switches, as the critical sections intend.
-/

set_option autoImplicit false

namespace AndroidBoot.LittleKernel.Machine

open State Timer Thread Mutex Event Foundation.Resumption

/-- Calls that code outside the kernel can make. `now` is what `current_time()`
returns during the call. Wait queues inside mutexes and events, the timers on
kernel stacks and the event of `dpc.c` are out of its reach. -/
inductive Call where
  | threadCreate (priority : Priority) (allocated : Bool)
  | threadResume (t : Tid)
  | threadYield
  | threadPreempt
  | threadSleep (delay now : Time)
  | threadSetPriority (p : Int)
  | threadBecomeIdle
  | threadExit (retcode : Int)
  | waitQueueBlock (n : Nat) (timeout now : Time)
  | waitQueueWakeOne (n : Nat) (reschedule : Bool) (code : Status)
  | waitQueueWakeAll (n : Nat) (reschedule : Bool) (code : Status)
  | waitQueueDestroy (n : Nat) (reschedule : Bool)
  | threadUnblockFromWaitQueue (t : Tid) (reschedule : Bool) (code : Status)
  | mutexAcquire (m : Nat) (now : Time)
  | mutexAcquireTimeout (m : Nat) (timeout now : Time)
  | mutexRelease (m : Nat)
  | mutexDestroy (m : Nat)
  | eventWait (n : Nat) (now : Time)
  | eventWaitTimeout (n : Nat) (timeout now : Time)
  | eventSignal (n : Nat) (reschedule : Bool)
  | eventUnsignal (n : Nat)
  | eventDestroy (n : Nat)
  | dpcInit
  | dpcQueue (n : Nat) (noresched : Bool)
  | timerSetOneshot (n : Nat) (delay now : Time)
  | timerSetPeriodic (n : Nat) (period now : Time)
  | timerCancel (n : Nat)
  deriving DecidableEq, Repr

inductive Label where
  | call (c : Call)
  | enterCriticalSection
  | exitCriticalSection
  /-- The code above the innermost frame ends with `r`; for `dpc_thread_routine`,
  it goes on to its next statement. -/
  | proceed (r : Int)
  | timerIrq (now : Time)
  | deviceIrq
  | kernel
  deriving DecidableEq, Repr

def Label.upTo (l : Label) (steps : Nat) : List Label := l :: List.replicate steps .kernel

def Label.idleAndOne : List Label :=
  List.flatten [[.exitCriticalSection], Label.upTo (.call .threadBecomeIdle) 1,
    Label.upTo (.call (.threadCreate 10 true)) 1, Label.upTo (.call (.threadResume 1)) 2]

def Label.block (timeout : Time) : List Label :=
  .enterCriticalSection :: Label.upTo (.call (.waitQueueBlock 0 timeout 0)) 4

def deviceTimerSet (k : Kernel) (n : Nat) (set : Kernel → TimerId → Kernel) : Result :=
  if .device n ∈ k.timerQueue then .halt else .done (set k (.device n)) 0

def waiterGoesOn : Waiter → Kernel → Status → Result
  | .plain _ => .done
  | .mutexAcquire m => mutexAcquireWoken m
  | .mutexAcquireTimeout m => mutexAcquireTimeoutWoken m
  | .eventWaitTimeout _ => eventWaitDone

def callBody (k : Kernel) : Call → Result
  | .threadCreate priority allocated =>
    .done (if allocated then Thread.threadCreate k .user priority else k) 0
  | .threadResume t => Thread.threadResume k t
  | .threadYield => Thread.threadYield k
  | .threadPreempt => Thread.threadPreempt k
  | .threadSleep delay now => Thread.threadSleep k delay now
  | .threadSetPriority p => .done (Thread.threadSetPriority k p) 0
  | .threadBecomeIdle => .done (Thread.threadBecomeIdle k) 0
  | .threadExit retcode => Event.threadExit k retcode
  | .waitQueueBlock n timeout now => Thread.waitQueueBlock k timeout now (.plain n) .done
  | .waitQueueWakeOne n reschedule code => Thread.waitQueueWakeOne k (.plain n) reschedule code
  | .waitQueueWakeAll n reschedule code => Thread.waitQueueWakeAll k (.plain n) reschedule code
  | .waitQueueDestroy n reschedule => Thread.waitQueueDestroy k (.plain n) reschedule
  | .threadUnblockFromWaitQueue t reschedule code =>
    Thread.threadUnblockFromWaitQueue k t reschedule .unblock code
  | .mutexAcquire m now => Mutex.mutexAcquire k m now
  | .mutexAcquireTimeout m timeout now => Mutex.mutexAcquireTimeout k m timeout now
  | .mutexRelease m => Mutex.mutexRelease k m
  | .mutexDestroy m => Mutex.mutexDestroy k m
  | .eventWait n now => Event.eventWaitTimeout k (.user n) infiniteTime now
  | .eventWaitTimeout n timeout now => Event.eventWaitTimeout k (.user n) timeout now
  | .eventSignal n reschedule => Event.eventSignal k (.user n) reschedule
  | .eventUnsignal n => .done (Event.eventUnsignal k (.user n)) noError
  | .eventDestroy n => Event.eventDestroy k (.user n)
  | .dpcInit => Event.dpcInit k
  | .dpcQueue n noresched => Event.dpcQueue k (.device n) noresched
  | .timerSetOneshot n delay now =>
    deviceTimerSet k n fun k timer => Timer.timerSetOneshot k timer delay now
  | .timerSetPeriodic n period now =>
    deviceTimerSet k n fun k timer => Timer.timerSetPeriodic k timer period now
  | .timerCancel n => .done (Timer.timerCancel k (.device n)) 0

def callable (k : Kernel) : Call → Bool
  | .threadResume t => t ∈ k.threadList
  | .threadUnblockFromWaitQueue t _ _ => t ∈ k.threadList
  | .dpcInit => k.dpcThread.isNone
  | _ => true

def armIrqExit (k : Kernel) : Kernel :=
  { k with criticalSectionCount := k.criticalSectionCount - 1, intsEnabled := true }

def armIrqHandled (k : Kernel) (r : Int) : Option Machine :=
  if r ≠ 0 then settle (Thread.threadPreempt (push k (.armIrqPreempt k.criticalSectionCount)))
  else some ⟨armIrqExit k, .user⟩

def armIrqEnter (k : Kernel) : Kernel :=
  { k with criticalSectionCount := k.criticalSectionCount + 1, intsEnabled := false }

def takeTimer (k : Kernel) (rest : List TimerId) (now : Time) : Kernel :=
  push { k with timerQueue := rest } (.timerTick now)

def fireTimer (k : Kernel) (now : Time) : TimerId → Option Machine
  | .wait t => settle (waitQueueTimeoutHandler k t)
  | .sleep t => some ⟨threadSleepHandler k t, .ret 1⟩
  | .device n =>
    let periodic : Bool := k.periodicTime (.device n) ≠ 0
    some ⟨push k (.timerCallback n periodic now k.criticalSectionCount), .user⟩

/-- One round of the loop of `timer_tick`, or the end of the function. The
result is `INT_RESCHEDULE` whatever the callbacks return. -/
def timerTick (k : Kernel) (now : Time) : Option Machine :=
  match k.timerQueue with
  | [] => some ⟨threadTimerTick k, .ret 1⟩
  | timer :: rest =>
    if timeLt now (k.scheduledTime timer) then some ⟨threadTimerTick k, .ret 1⟩
    else fireTimer (takeTimer k rest now) now timer

def timerCallbackDone (k : Kernel) (n : Nat) (periodic : Bool) (now : Time) : Kernel :=
  let timer := TimerId.device n
  if periodic ∧ timer ∉ k.timerQueue ∧ k.periodicTime timer ≠ 0 then
    let k := { k with
      scheduledTime := Function.update k.scheduledTime timer (now + k.periodicTime timer) }
    { k with timerQueue := insertTimerInQueue k.scheduledTime timer k.timerQueue }
  else k

def entryFrame : Entry → Frame
  | .user => .threadEntry
  | .dpcThreadRoutine => .dpcRoutine .wait

def resumeFrame (k : Kernel) (f : Frame) (r : Int) : Option Machine :=
  match f with
  | .call _ => some ⟨k, .user⟩
  | .initialThreadFunc entry => some ⟨push (exitCriticalSection k) (entryFrame entry), .user⟩
  | .threadResume => some ⟨exitCriticalSection k, .ret noError⟩
  | .threadYield => some ⟨exitCriticalSection k, .ret 0⟩
  | .threadPreempt => some ⟨exitCriticalSection k, .ret 0⟩
  | .threadSleep => some ⟨exitCriticalSection k, .ret 0⟩
  | .waitQueueBlock timeout caller =>
    settle (waitQueueUnblocked k timeout caller (waiterGoesOn caller))
  | .waitQueueWakeOne => some ⟨k, .ret 1⟩
  | .waitQueueWakeAll ret => some ⟨k, .ret ret⟩
  | .threadUnblockFromWaitQueue => some ⟨exitCriticalSection k, .ret noError⟩
  | .mutexRelease => some ⟨exitCriticalSection k, .ret noError⟩
  | .mutexDestroy => some ⟨exitCriticalSection k, .ret 0⟩
  | .eventSignalOne e => settle (eventSignalOneDone e k 1)
  | .eventSignalAll => some ⟨exitCriticalSection k, .ret noError⟩
  | .eventDestroy => some ⟨exitCriticalSection k, .ret 0⟩
  | .dpcQueue => some ⟨exitCriticalSection k, .ret noError⟩
  | .timerTick now => timerTick k now
  | .armTimerIrq _ => armIrqHandled k r
  | .armIrqPreempt _ => some ⟨armIrqExit k, .user⟩
  | .threadExit => settle (.switch k [.threadExited])
  -- `panic` at the end of `thread_exit`
  | .threadExited => none
  -- no kernel function returns to the frames below which foreign code runs
  | .kmain => none
  | .threadEntry => none
  | .dpcRoutine _ => none
  | .timerCallback _ _ _ _ => none
  | .armIrq => none

def proceedFrame (k : Kernel) (f : Frame) (r : Int) : Option Machine :=
  match f with
  | .threadEntry => settle (Event.threadExit k r)
  | .armIrq => armIrqHandled k r
  | .timerCallback n periodic now _ => some ⟨timerCallbackDone k n periodic now, .ret r⟩
  | .dpcRoutine .wait =>
    let k := push k (.dpcRoutine .dequeue)
    let k := push k (.call k.criticalSectionCount)
    settle (eventWaitTimeout k .dpc infiniteTime 0)
  | .dpcRoutine .dequeue =>
    some ⟨push (dpcDequeue k).1 (.dpcRoutine (dpcDequeue k).2), .user⟩
  | .dpcRoutine (.callback (.threadCleanup t)) =>
    some ⟨push (threadCleanupDpc k t) (.dpcRoutine .wait), .user⟩
  | .dpcRoutine (.callback (.device _)) => some ⟨push k (.dpcRoutine .wait), .user⟩
  | _ => none

def step (s : Machine) (l : Label) : Option Machine :=
  let k := s.kernel
  match s.control, l with
  | .user, .call c =>
    if callable k c then settle (callBody (push k (.call k.criticalSectionCount)) c) else none
  | .user, .enterCriticalSection => some ⟨State.enterCriticalSection k, .user⟩
  | .user, .exitCriticalSection => some ⟨State.exitCriticalSection k, .user⟩
  | .user, .proceed r =>
    match k.stack k.currentThread with
    | [] => none
    | f :: _ => proceedFrame (pop k) f r
  | .user, .timerIrq now =>
    if k.intsEnabled then
      let k := armIrqEnter k
      some ⟨push (push k (.armTimerIrq k.criticalSectionCount)) (.timerTick now), .ret 0⟩
    else none
  | .user, .deviceIrq =>
    if k.intsEnabled then some ⟨push (armIrqEnter k) .armIrq, .user⟩ else none
  | .resched, .kernel => settle (threadResched k)
  | .ret r, .kernel =>
    match k.stack k.currentThread with
    | [] => none
    | f :: _ => resumeFrame (pop k) f r
  | _, _ => none

def threadInitEarly (initial : Nat → Bool) (flags : Nat → BitVec 32) : Machine where
  control := .user
  kernel :=
    { currentThread := 0
      threadList := [0]
      nextThread := 1
      state := fun t => if t = 0 then .running else .suspended
      priority := fun _ => highestPriority
      blockingWaitQueue := fun _ => none
      runQueue := fun _ => []
      runQueueBitmap := 0
      waitList := fun _ => []
      waitCount := fun _ => 0
      timerQueue := []
      scheduledTime := fun _ => 0
      periodicTime := fun _ => 0
      idleThread := none
      criticalSectionCount := 1
      intsEnabled := false
      savedCriticalSectionCount := fun _ => 1
      remainingQuantum := fun _ => 0
      waitQueueBlockRet := fun _ => noError
      retcode := fun _ => 0
      stack := fun t => if t = 0 then [.kmain] else []
      mutexCount := fun _ => 0
      mutexHolder := fun _ => none
      signalled := fun e => match e with
        | .dpc => false
        | .user n => initial n
      eventFlags := fun e => match e with
        | .dpc => 0
        | .user n => flags n
      dpcList := []
      dpcThread := none
      trace := [] }

end AndroidBoot.LittleKernel.Machine
