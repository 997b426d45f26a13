/- source: bootable/lk/kernel/event.c, kernel/dpc.c, kernel/thread.c
   digest: Events, the deferred procedure calls driven by one, and thread exit. -/

import AndroidBoot.LittleKernel.Thread

set_option autoImplicit false

namespace AndroidBoot.LittleKernel.Event

open Function State Thread

def autoUnsignal (k : Kernel) (e : EventId) : Bool := k.eventFlags e &&& 1#32 != 0#32

def setSignalled (k : Kernel) (e : EventId) (b : Bool) : Kernel :=
  { k with signalled := update k.signalled e b }

def eventInit (k : Kernel) (e : EventId) (initial : Bool) (flags : BitVec 32) : Kernel :=
  { k with
    signalled := update k.signalled e initial
    eventFlags := update k.eventFlags e flags
    waitList := update k.waitList (.event e) []
    waitCount := update k.waitCount (.event e) 0 }

def eventDestroy (k : Kernel) (e : EventId) : Result :=
  let k := enterCriticalSection k
  let k := setSignalled k e false
  let k := { k with eventFlags := update k.eventFlags e 0 }
  (waitQueueDestroy k (.event e) true).andThen .eventDestroy fun k _ =>
    .done (exitCriticalSection k) 0

def eventWaitDone (k : Kernel) (ret : Status) : Result :=
  .done (exitCriticalSection k) ret

def eventWaitTimeout (k : Kernel) (e : EventId) (timeout now : Time) : Result :=
  let k := enterCriticalSection k
  if k.signalled e then
    if autoUnsignal k e then
      eventWaitDone (observe (setSignalled k e false) (.consumed e)) noError
    else eventWaitDone (observe k (.passed e)) noError
  else waitQueueBlock k timeout now (.eventWaitTimeout e) eventWaitDone

/-- `event_signal` on an autounsignal event, after `wait_queue_wake_one` returned `r`. -/
def eventSignalOneDone (e : EventId) (k : Kernel) (r : Int) : Result :=
  let k := if r ≤ 0 then observe (setSignalled k e true) (.stored e) else k
  .done (exitCriticalSection k) noError

def eventSignal (k : Kernel) (e : EventId) (reschedule : Bool) : Result :=
  let k := observe k (.signal e (k.signalled e))
  let k := enterCriticalSection k
  if k.signalled e then .done (exitCriticalSection k) noError
  else if autoUnsignal k e then
    (waitQueueWakeOne k (.event e) reschedule noError).absorb (.eventSignalOne e)
      (eventSignalOneDone e)
  else
    (waitQueueWakeAll (setSignalled k e true) (.event e) reschedule noError).andThen .eventSignalAll fun k _ =>
      .done (exitCriticalSection k) noError

def eventUnsignal (k : Kernel) (e : EventId) : Kernel :=
  let k := observe k (.unsignal e (k.signalled e))
  let k := enterCriticalSection k
  exitCriticalSection (setSignalled k e false)

/-- `list_add_tail` on the list of deferred calls. -/
def appendDpc (k : Kernel) (d : Dpc) : Kernel :=
  observe { k with dpcList := k.dpcList ++ [d] } (.queued d)

/-- `dpc_queue` with a successful allocation. Before `dpc_init` the event holds
null pointers, which `event_signal` follows. -/
def dpcQueue (k : Kernel) (d : Dpc) (noresched : Bool) : Result :=
  if k.dpcThread = none then .halt
  else
    let k := appendDpc (enterCriticalSection k) d
    (eventSignal k .dpc !noresched).andThen .dpcQueue fun k _ =>
      .done (exitCriticalSection k) noError

def dpcInit (k : Kernel) : Result :=
  let k := eventInit k .dpc false 0
  let t := k.nextThread
  let k := threadCreate k .dpcThreadRoutine dpcPriority
  threadResume { k with dpcThread := some t } t

def die (k : Kernel) (retcode : Int) : Kernel :=
  let k := onSched k fun s => setState s k.currentThread .death
  { k with retcode := update k.retcode k.currentThread retcode }

def threadExit (k : Kernel) (retcode : Int) : Result :=
  let k := die (enterCriticalSection k) retcode
  (dpcQueue k (.threadCleanup k.currentThread) true).andThen .threadExit fun k _ => .switch k [.threadExited]

def dpcDequeue (k : Kernel) : Kernel × DpcPoint :=
  let k := enterCriticalSection k
  match k.dpcList with
  | [] => (exitCriticalSection (eventUnsignal k .dpc), .wait)
  | d :: rest =>
    (exitCriticalSection (observe { k with dpcList := rest } (.started d)), .callback d)

def threadCleanupDpc (k : Kernel) (t : Tid) : Kernel :=
  let k := enterCriticalSection k
  let k := { k with threadList := k.threadList.erase t }
  exitCriticalSection k

end AndroidBoot.LittleKernel.Event
