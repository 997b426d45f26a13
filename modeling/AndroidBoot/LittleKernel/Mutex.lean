/- source: bootable/lk/kernel/mutex.c
   digest: Mutex operations. -/

import AndroidBoot.LittleKernel.Thread

set_option autoImplicit false

namespace AndroidBoot.LittleKernel.Mutex

open Function State Thread

def mutexDestroy (k : Kernel) (m : Nat) : Result :=
  let k := enterCriticalSection k
  let k := { k with mutexCount := update k.mutexCount m 0 }
  (waitQueueDestroy k (.mutex m) true).andThen .mutexDestroy fun k _ =>
    .done (exitCriticalSection k) 0

def takeMutex (k : Kernel) (m : Nat) (ret : Status) : Result :=
  let k := { k with mutexHolder := update k.mutexHolder m (some k.currentThread) }
  .done (exitCriticalSection k) ret

def mutexAcquireWoken (m : Nat) (k : Kernel) (ret : Status) : Result :=
  if ret < 0 then .done (exitCriticalSection k) ret else takeMutex k m ret

def mutexAcquire (k : Kernel) (m : Nat) (now : Time) : Result :=
  if k.mutexHolder m = some k.currentThread then .halt
  else
    let k := enterCriticalSection k
    let k := { k with mutexCount := update k.mutexCount m (k.mutexCount m + 1) }
    if k.mutexCount m > 1 then
      waitQueueBlock k infiniteTime now (.mutexAcquire m) (mutexAcquireWoken m)
    else takeMutex k m noError

/-- `mutex_acquire_timeout` after `wait_queue_block` returned `ret`. An error
other than the timeout falls through to the assignment of the holder. -/
def mutexAcquireTimeoutWoken (m : Nat) (k : Kernel) (ret : Status) : Result :=
  if ret < noError ∧ ret = errTimedOut then
    let k := { k with mutexCount := update k.mutexCount m (k.mutexCount m - 1) }
    .done (exitCriticalSection k) ret
  else takeMutex k m ret

def mutexAcquireTimeout (k : Kernel) (m : Nat) (timeout now : Time) : Result :=
  if k.mutexHolder m = some k.currentThread then .halt
  else if timeout = infiniteTime then mutexAcquire k m now
  else
    let k := enterCriticalSection k
    let k := { k with mutexCount := update k.mutexCount m (k.mutexCount m + 1) }
    if k.mutexCount m > 1 then
      waitQueueBlock k timeout now (.mutexAcquireTimeout m) (mutexAcquireTimeoutWoken m)
    else takeMutex k m noError

def giveBack (k : Kernel) (m : Nat) : Kernel :=
  { k with
    mutexHolder := update k.mutexHolder m none
    mutexCount := update k.mutexCount m (k.mutexCount m - 1) }

def mutexRelease (k : Kernel) (m : Nat) : Result :=
  if k.mutexHolder m ≠ some k.currentThread then .halt
  else
    let k := giveBack (enterCriticalSection k) m
    if k.mutexCount m ≥ 1 then
      (waitQueueWakeOne k (.mutex m) true noError).andThen .mutexRelease fun k _ =>
        .done (exitCriticalSection k) noError
    else .done (exitCriticalSection k) noError

end AndroidBoot.LittleKernel.Mutex
