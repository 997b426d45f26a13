/- source: bootable/lk/kernel/thread.c
   digest: Run queues, rescheduling, sleeping and wait queues. -/

import AndroidBoot.LittleKernel.Timer

set_option autoImplicit false

namespace AndroidBoot.LittleKernel.Thread

open Function State Timer Foundation.Resumption

def setState (s : Sched) (t : Tid) (st : ThreadState) : Sched :=
  { s with state := update s.state t st }

def insertInRunQueueHead (s : Sched) (t : Tid) : Sched :=
  { s with
    runQueue := update s.runQueue (s.priority t) (t :: s.runQueue (s.priority t))
    runQueueBitmap := s.runQueueBitmap ||| (1#32 <<< (s.priority t).val) }

def insertInRunQueueTail (s : Sched) (t : Tid) : Sched :=
  { s with
    runQueue := update s.runQueue (s.priority t) (s.runQueue (s.priority t) ++ [t])
    runQueueBitmap := s.runQueueBitmap ||| (1#32 <<< (s.priority t).val) }

/-- `thread_create` when both allocations succeed. Identifiers are not reused. -/
def threadCreate (k : Kernel) (entry : Entry) (priority : Priority) : Kernel :=
  let t := k.nextThread
  let k := { k with
    nextThread := t + 1
    priority := update k.priority t priority
    savedCriticalSectionCount := update k.savedCriticalSectionCount t 1
    state := update k.state t .suspended
    blockingWaitQueue := update k.blockingWaitQueue t none
    waitQueueBlockRet := update k.waitQueueBlockRet t noError
    remainingQuantum := update k.remainingQuantum t 0
    stack := update k.stack t [.initialThreadFunc entry] }
  let k := enterCriticalSection k
  let k := { k with threadList := t :: k.threadList }
  exitCriticalSection k

def threadYield (k : Kernel) : Result :=
  let k := enterCriticalSection k
  let t := k.currentThread
  let k := onSched k fun s => setState s t .ready
  let k := { k with remainingQuantum := update k.remainingQuantum t 0 }
  let k := onSched k fun s => insertInRunQueueTail s t
  .switch k [.threadYield]

def threadPreempt (k : Kernel) : Result :=
  let k := enterCriticalSection k
  let t := k.currentThread
  let k := onSched k fun s => setState s t .ready
  let k :=
    if k.remainingQuantum t > 0 then onSched k fun s => insertInRunQueueHead s t
    else onSched k fun s => insertInRunQueueTail s t
  .switch k [.threadPreempt]

def threadResume (k : Kernel) (t : Tid) : Result :=
  if k.state t = .ready ∨ k.state t = .running then .done k errNotSuspended
  else
    let k := enterCriticalSection k
    let k := onSched k fun s => insertInRunQueueHead (setState s t .ready) t
    (threadYield k).andThen .threadResume fun k _ => .done (exitCriticalSection k) noError

def threadSleep (k : Kernel) (delay now : Time) : Result :=
  let k := enterCriticalSection k
  let t := k.currentThread
  let k := timerSetOneshot k (.sleep t) delay now
  let k := onSched k fun s => setState s t .sleeping
  .switch k [.threadSleep]

def threadSleepHandler (k : Kernel) (t : Tid) : Kernel :=
  onSched k fun s => insertInRunQueueHead (setState s t .ready) t

def clampPriority (p : Int) : Priority :=
  if p < 0 then 0 else if 31 < p then 31 else Fin.ofNat 32 p.toNat

def threadSetPriority (k : Kernel) (p : Int) : Kernel :=
  { k with priority := update k.priority k.currentThread (clampPriority p) }

def threadBecomeIdle (k : Kernel) : Kernel :=
  { threadSetPriority k 0 with idleThread := some k.currentThread }

/-- `thread_timer_tick`; the caller ignores the result. -/
def threadTimerTick (k : Kernel) : Kernel :=
  if k.idleThread = some k.currentThread then k
  else
    { k with
      remainingQuantum := update k.remainingQuantum k.currentThread
        (k.remainingQuantum k.currentThread - 1) }

def nextQueue (bitmap : BitVec 32) : Priority := Fin.ofNat 32 (31 - bitmap.clz.toNat)

def dequeue (s : Sched) (q : Priority) (rest : List Tid) : Sched :=
  { s with
    runQueue := update s.runQueue q rest
    runQueueBitmap :=
      if rest.isEmpty then s.runQueueBitmap &&& ~~~(1#32 <<< q.val) else s.runQueueBitmap }

def contextSwitch (k : Kernel) (newthread : Tid) : Kernel :=
  if newthread = k.currentThread then k
  else
    { k with
      remainingQuantum := update k.remainingQuantum newthread
        (if k.remainingQuantum newthread ≤ 0 then 5 else k.remainingQuantum newthread)
      savedCriticalSectionCount := update k.savedCriticalSectionCount k.currentThread
        k.criticalSectionCount
      currentThread := newthread
      criticalSectionCount := k.savedCriticalSectionCount newthread }

/-- `thread_resched`. An empty bitmap makes `__builtin_clz` undefined and a null
head is dereferenced, so both end the run. -/
def threadResched (k : Kernel) : Result :=
  if k.runQueueBitmap = 0 then .halt
  else
    match k.runQueue (nextQueue k.runQueueBitmap) with
    | [] => .halt
    | newthread :: rest =>
      let k := onSched k fun s =>
        setState (dequeue s (nextQueue s.runQueueBitmap) rest) newthread .running
      .done (contextSwitch k newthread) 0

def enqueueWaiter (s : Sched) (w : WaitQueueId) (t : Tid) : Sched :=
  { s with
    waitList := update s.waitList w (s.waitList w ++ [t])
    waitCount := update s.waitCount w (s.waitCount w + 1)
    state := update s.state t .blocked
    blockingWaitQueue := update s.blockingWaitQueue t (some w) }

def unqueueWaiter (s : Sched) (w : WaitQueueId) (t : Tid) : Sched :=
  { s with
    waitList := update s.waitList w ((s.waitList w).erase t)
    waitCount := update s.waitCount w (s.waitCount w - 1)
    state := update s.state t .ready
    blockingWaitQueue := update s.blockingWaitQueue t none }

def enterWait (k : Kernel) (w : WaitQueueId) (timeout now : Time) : Kernel :=
  let t := k.currentThread
  let k := onSched k fun s => enqueueWaiter s w t
  let k := { k with waitQueueBlockRet := update k.waitQueueBlockRet t noError }
  let k := observe k (.blocked t w timeout)
  let k := if timeout ≠ infiniteTime then timerSetOneshot k (.wait t) timeout now else k
  enterCriticalSection k

def waitQueueBlock (k : Kernel) (timeout now : Time) (caller : Waiter)
    (rest : Kernel → Status → Result) : Result :=
  if timeout = 0 then
    rest (observe k (.returned k.currentThread caller.queue timeout errTimedOut)) errTimedOut
  else .switch (enterWait k caller.queue timeout now) [.waitQueueBlock timeout caller]

def leaveWait (k : Kernel) (w : WaitQueueId) (timeout : Time) : Kernel :=
  let t := k.currentThread
  let k := exitCriticalSection k
  let k := if timeout ≠ infiniteTime then timerCancel k (.wait t) else k
  observe k (.returned t w timeout (k.waitQueueBlockRet t))

def waitQueueUnblocked (k : Kernel) (timeout : Time) (caller : Waiter)
    (rest : Kernel → Status → Result) : Result :=
  rest (leaveWait k caller.queue timeout) (k.waitQueueBlockRet k.currentThread)

def releaseWaiter (k : Kernel) (w : WaitQueueId) (t : Tid) (cause : Cause) (code : Status) :
    Kernel :=
  let k := onSched k fun s => unqueueWaiter s w t
  let k := { k with waitQueueBlockRet := update k.waitQueueBlockRet t code }
  observe k (.removed t w cause code)

def requeueCurrent (k : Kernel) : Kernel :=
  onSched k fun s => insertInRunQueueHead (setState s k.currentThread .ready) k.currentThread

def wakeFirst (k : Kernel) (w : WaitQueueId) (t : Tid) (reschedule : Bool) (code : Status) :
    Kernel :=
  let k := releaseWaiter k w t .wakeOne code
  let k := if reschedule then requeueCurrent k else k
  onSched k fun s => insertInRunQueueHead s t

def waitQueueWakeOne (k : Kernel) (w : WaitQueueId) (reschedule : Bool) (code : Status) :
    Result :=
  match k.waitList w with
  | [] => .done k 0
  | t :: _ =>
    let k := wakeFirst k w t reschedule code
    if reschedule then .switch k [.waitQueueWakeOne] else .done k 1

def wakeThread (w : WaitQueueId) (code : Status) (k : Kernel) (t : Tid) : Kernel :=
  onSched (releaseWaiter k w t .wakeAll code) fun s => insertInRunQueueHead s t

def waitQueueWakeAll (k : Kernel) (w : WaitQueueId) (reschedule : Bool) (code : Status) :
    Result :=
  let k := if reschedule ∧ k.waitCount w > 0 then requeueCurrent k else k
  let ret : Int := (k.waitList w).length
  let k := (k.waitList w).foldl (wakeThread w code) k
  if reschedule ∧ ret > 0 then .switch k [.waitQueueWakeAll ret] else .done k ret

/-- `wait_queue_destroy`; the magic number it clears is read by assertions only. -/
def waitQueueDestroy (k : Kernel) (w : WaitQueueId) (reschedule : Bool) : Result :=
  waitQueueWakeAll k w reschedule errObjectDestroyed

/-- `thread_unblock_from_wait_queue`. The early return leaves the critical section entered. -/
def threadUnblockFromWaitQueue (k : Kernel) (t : Tid) (reschedule : Bool) (cause : Cause)
    (code : Status) : Result :=
  let k := enterCriticalSection k
  if k.state t ≠ .blocked then .done k errNotBlocked
  else
    match k.blockingWaitQueue t with
    | none => .halt
    | some w =>
      let k := releaseWaiter k w t cause code
      let k := onSched k fun s => insertInRunQueueHead s t
      if reschedule then .switch k [.threadUnblockFromWaitQueue]
      else .done (exitCriticalSection k) noError

def waitQueueTimeoutHandler (k : Kernel) (t : Tid) : Result :=
  threadUnblockFromWaitQueue k t false .timer errTimedOut

end AndroidBoot.LittleKernel.Thread
