/- source: bootable/lk/kernel/timer.c, include/sys/types.h
   digest: The timer queue: ordered insertion, setting and cancelling. -/

import AndroidBoot.LittleKernel.State
import Mathlib.Data.List.Basic

set_option autoImplicit false

namespace AndroidBoot.LittleKernel.Timer

open State

/-- `TIME_GT`: the sign of the wrapped difference. -/
def timeGt (a b : Time) : Bool := decide (0 < (a - b).toInt)

def timeLt (a b : Time) : Bool := decide ((a - b).toInt < 0)

/-- `insert_timer_in_queue`: before the first entry that is scheduled later. -/
def insertTimerInQueue {T : Type} (scheduled : T → Time) (timer : T) : List T → List T
  | [] => [timer]
  | entry :: rest =>
    if timeGt (scheduled entry) (scheduled timer) then timer :: entry :: rest
    else entry :: insertTimerInQueue scheduled timer rest

def timerSet (k : Kernel) (timer : TimerId) (delay period now : Time) : Kernel :=
  let k := { k with
    scheduledTime := Function.update k.scheduledTime timer (now + delay)
    periodicTime := Function.update k.periodicTime timer period }
  let k := enterCriticalSection k
  let k := { k with timerQueue := insertTimerInQueue k.scheduledTime timer k.timerQueue }
  exitCriticalSection k

def timerSetOneshot (k : Kernel) (timer : TimerId) (delay now : Time) : Kernel :=
  timerSet k timer (if delay = 0 then 1 else delay) 0 now

def timerSetPeriodic (k : Kernel) (timer : TimerId) (period now : Time) : Kernel :=
  let period := if period = 0 then 1 else period
  timerSet k timer period period now

def timerCancel (k : Kernel) (timer : TimerId) : Kernel :=
  let k := enterCriticalSection k
  let k := { k with
    timerQueue := k.timerQueue.erase timer
    periodicTime := Function.update k.periodicTime timer 0 }
  exitCriticalSection k

section Insertion

variable {T : Type} {scheduled : T → Time} {timer x : T} {queue : List T}

theorem insertTimerInQueue_perm (scheduled : T → Time) (timer : T) (queue : List T) :
    (insertTimerInQueue scheduled timer queue).Perm (timer :: queue) := by
  induction queue with
  | nil => rfl
  | cons entry rest ih =>
    rw [insertTimerInQueue]
    split
    · rfl
    · exact (ih.cons entry).trans (.swap ..)

theorem insertTimerInQueue_count [DecidableEq T] (scheduled : T → Time) (timer x : T)
    (queue : List T) :
    (insertTimerInQueue scheduled timer queue).count x = (timer :: queue).count x :=
  (insertTimerInQueue_perm ..).count_eq x

theorem mem_insertTimerInQueue :
    x ∈ insertTimerInQueue scheduled timer queue ↔ x = timer ∨ x ∈ queue :=
  (insertTimerInQueue_perm ..).mem_iff.trans List.mem_cons

end Insertion

end AndroidBoot.LittleKernel.Timer
