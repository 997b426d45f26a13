/- source: bootable/lk/include/kernel/thread.h, timer.h, mutex.h, event.h, include/err.h
   digest: Threads, queues, timers and synchronisation objects of the boot loader kernel. -/

import Mathlib.Algebra.Order.Ring.Int
import Mathlib.Logic.Function.Basic
import AndroidBoot.Foundation.Resumption

/-!
A field of `thread_t` is a map over threads, and likewise for wait queues,
timers, mutexes and events, so that an assignment through a pointer is an update
of one map at one point. The build has no `PLATFORM_HAS_DYNAMIC_TIMER`. Its
`DEBUGLEVEL` of two turns `THREAD_CHECKS` on, whose assertions stop the machine or
do nothing: they and the statistics are left out, so that the runs of the code are
those runs of the model in which no assertion fails.

The stack of a thread is a list of frames, innermost first. A frame is the point
inside a kernel function at which that function waits for the function it called
to return. `thread_resched` is the only place where a thread can be left, so a
thread that does not run is described by its frames alone. `wait_queue_block` and
its caller share one frame, since nothing can happen between their statements.
-/

set_option autoImplicit false

namespace AndroidBoot.LittleKernel.State

open Foundation.Resumption

/-- A thread object. The bootstrap thread is `0`; `thread_create` hands out the others. -/
abbrev Tid := Nat

abbrev Time := BitVec 32

def infiniteTime : Time := BitVec.allOnes 32

/-- `status_t`; errors are negative. -/
abbrev Status := Int

def noError : Status := 0
def errNotSuspended : Status := -10
def errObjectDestroyed : Status := -11
def errNotBlocked : Status := -12
def errTimedOut : Status := -13

abbrev Priority := Fin 32

scoped instance somePriority : NeZero 32 := ⟨by decide⟩

def highestPriority : Priority := 31
def dpcPriority : Priority := 30

inductive ThreadState where
  | suspended | ready | running | blocked | sleeping | death
  deriving DecidableEq, Repr

/-- The event of `dpc.c` is static; every other event belongs to code outside the kernel. -/
inductive EventId where
  | dpc
  | user (n : Nat)
  deriving DecidableEq, Repr

inductive WaitQueueId where
  | mutex (m : Nat)
  | event (e : EventId)
  | plain (n : Nat)
  deriving DecidableEq, Repr

/-- The timers on the stacks of `wait_queue_block` and `thread_sleep`, and the
timers of device code. Callback and argument are determined by the object. -/
inductive TimerId where
  | wait (t : Tid)
  | sleep (t : Tid)
  | device (n : Nat)
  deriving DecidableEq, Repr

inductive Dpc where
  | threadCleanup (t : Tid)
  | device (n : Nat)
  deriving DecidableEq, Repr

inductive DpcPoint where
  | wait
  | dequeue
  | callback (d : Dpc)
  deriving DecidableEq, Repr

inductive Entry where
  | user
  | dpcThreadRoutine
  deriving DecidableEq, Repr

inductive Waiter where
  | plain (n : Nat)
  | mutexAcquire (m : Nat)
  | mutexAcquireTimeout (m : Nat)
  | eventWaitTimeout (e : EventId)
  deriving DecidableEq, Repr

def Waiter.queue : Waiter → WaitQueueId
  | .plain n => .plain n
  | .mutexAcquire m => .mutex m
  | .mutexAcquireTimeout m => .mutex m
  | .eventWaitTimeout e => .event e

inductive Frame where
  | call (entryCount : Int)
  | kmain
  | initialThreadFunc (entry : Entry)
  | threadEntry
  | threadResume
  | threadYield
  | threadPreempt
  | threadSleep
  | threadExit
  | threadExited
  | waitQueueBlock (timeout : Time) (caller : Waiter)
  | waitQueueWakeOne
  | waitQueueWakeAll (ret : Int)
  | threadUnblockFromWaitQueue
  | mutexRelease
  | mutexDestroy
  | eventSignalOne (e : EventId)
  | eventSignalAll
  | eventDestroy
  | dpcQueue
  | dpcRoutine (point : DpcPoint)
  | timerTick (now : Time)
  | timerCallback (n : Nat) (periodic : Bool) (now : Time) (entryCount : Int)
  | armIrq
  | armTimerIrq (entryCount : Int)
  | armIrqPreempt (entryCount : Int)
  deriving DecidableEq, Repr

inductive Cause where
  | wakeOne
  | wakeAll
  | timer
  | unblock
  deriving DecidableEq, Repr

/-- History of a run. Nothing in the kernel reads it. -/
inductive Observation where
  | blocked (t : Tid) (w : WaitQueueId) (timeout : Time)
  | removed (t : Tid) (w : WaitQueueId) (cause : Cause) (code : Status)
  | returned (t : Tid) (w : WaitQueueId) (timeout : Time) (code : Status)
  | signal (e : EventId) (found : Bool)
  | stored (e : EventId)
  | unsignal (e : EventId) (found : Bool)
  | passed (e : EventId)
  | consumed (e : EventId)
  | queued (d : Dpc)
  | started (d : Dpc)
  deriving DecidableEq, Repr

structure Sched where
  currentThread : Tid
  threadList : List Tid
  nextThread : Tid
  state : Tid → ThreadState
  priority : Tid → Priority
  blockingWaitQueue : Tid → Option WaitQueueId
  runQueue : Priority → List Tid
  runQueueBitmap : BitVec 32
  waitList : WaitQueueId → List Tid
  waitCount : WaitQueueId → Int
  timerQueue : List TimerId
  scheduledTime : TimerId → Time
  periodicTime : TimerId → Time

structure Kernel extends Sched where
  idleThread : Option Tid
  criticalSectionCount : Int
  intsEnabled : Bool
  savedCriticalSectionCount : Tid → Int
  remainingQuantum : Tid → Int
  waitQueueBlockRet : Tid → Status
  retcode : Tid → Int
  stack : Tid → List Frame
  mutexCount : Nat → Int
  mutexHolder : Nat → Option Tid
  signalled : EventId → Bool
  eventFlags : EventId → BitVec 32
  dpcList : List Dpc
  dpcThread : Option Tid
  trace : List Observation

/-- What the processor does next: run code outside the kernel functions, enter
`thread_resched`, or return a value to the innermost frame of the current thread. -/
inductive Control where
  | user
  | resched
  | ret (r : Int)
  deriving DecidableEq, Repr

structure Machine where
  kernel : Kernel
  control : Control

def onSched (k : Kernel) (f : Sched → Sched) : Kernel := { k with toSched := f k.toSched }

def observe (k : Kernel) (o : Observation) : Kernel := { k with trace := k.trace ++ [o] }

abbrev Result := Outcome Kernel Frame

def push (k : Kernel) (f : Frame) : Kernel :=
  { k with stack := Function.update k.stack k.currentThread (f :: k.stack k.currentThread) }

def pushAll (k : Kernel) (frames : List Frame) : Kernel :=
  { k with stack := Function.update k.stack k.currentThread (frames ++ k.stack k.currentThread) }

def pop (k : Kernel) : Kernel :=
  { k with stack := Function.update k.stack k.currentThread (k.stack k.currentThread).tail }

/-- The machine after a kernel function ran. A panic or a crash ends the run. -/
def settle : Result → Option Machine
  | .done k r => some ⟨k, .ret r⟩
  | .switch k frames => some ⟨pushAll k frames, .resched⟩
  | .halt => none

def enterCriticalSection (k : Kernel) : Kernel :=
  { k with
    criticalSectionCount := k.criticalSectionCount + 1
    intsEnabled := if k.criticalSectionCount + 1 = 1 then false else k.intsEnabled }

def exitCriticalSection (k : Kernel) : Kernel :=
  { k with
    criticalSectionCount := k.criticalSectionCount - 1
    intsEnabled := if k.criticalSectionCount - 1 = 0 then true else k.intsEnabled }

variable (k : Kernel)

@[simp] theorem push_toSched (f : Frame) : (push k f).toSched = k.toSched := rfl
@[simp] theorem pushAll_toSched (frames : List Frame) :
    (pushAll k frames).toSched = k.toSched := rfl
@[simp] theorem pop_toSched : (pop k).toSched = k.toSched := rfl
@[simp] theorem enterCriticalSection_toSched : (enterCriticalSection k).toSched = k.toSched := rfl
@[simp] theorem exitCriticalSection_toSched : (exitCriticalSection k).toSched = k.toSched := rfl

end AndroidBoot.LittleKernel.State
