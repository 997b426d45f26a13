/- source: bootable/lk/kernel/*.c
   digest: Frames agree with the queues, and what the abstract model sees of a kernel. -/

import AndroidBoot.LittleKernel.Machine
import AndroidBoot.LittleKernel.SchedulerInvariant
import AndroidBoot.LittleKernel.SyncModel

set_option autoImplicit false

namespace AndroidBoot.LittleKernel.KernelView

open State Timer Thread Event SchedulerInvariant SyncModel

def waits : Frame → Bool
  | .waitQueueBlock _ _ => true
  | _ => false

/-- Frames that only the thread of `dpc_init` can have. -/
def servesDpc : Frame → Bool
  | .initialThreadFunc .dpcThreadRoutine => true
  | .dpcRoutine _ => true
  | .waitQueueBlock _ (.eventWaitTimeout .dpc) => true
  | _ => false

theorem servesDpc_waitQueueBlock {timeout : Time} {caller : Waiter}
    (other : caller ≠ .eventWaitTimeout .dpc) :
    servesDpc (.waitQueueBlock timeout caller) = false := by
  rcases caller with _ | _ | _ | e
  · rfl
  · rfl
  · rfl
  · cases e with
    | dpc => exact absurd rfl other
    | user n => rfl

/-- The frames of every thread agree with its state and its wait timer. -/
structure Stacked (s : Sched) (stack : Tid → List Frame) : Prop where
  below : ∀ t, ∀ f ∈ (stack t).tail, waits f = false
  blocked : ∀ t, s.state t = .blocked → ∃ timeout caller rest,
    stack t = .waitQueueBlock timeout caller :: rest ∧
      s.blockingWaitQueue t = some caller.queue
  armed : ∀ t, .wait t ∈ s.timerQueue → ∃ timeout caller rest,
    stack t = .waitQueueBlock timeout caller :: rest ∧ timeout ≠ infiniteTime
  armed_once : ∀ t, s.timerQueue.count (.wait t) ≤ 1
  fresh : ∀ t, s.nextThread ≤ t → stack t = []

/-- Frames that can be on a stack: `dpc_queue` does not reschedule in
`thread_exit`, and nothing serves deferred calls before `dpc_init`. -/
def Possible (dpcThread : Option Tid) (f : Frame) : Prop :=
  f ≠ .threadExit ∧ (dpcThread = none → servesDpc f = false)

/-- The event of `dpc.c` is a plain one, and untouched before `dpc_init`. -/
structure DpcReady (stack : Tid → List Frame) (flags : EventId → BitVec 32)
    (signalled : EventId → Bool) (dpcThread : Option Tid) : Prop where
  flags : flags .dpc = 0
  unsignalled : dpcThread = none → signalled .dpc = false
  frames : ∀ t, ∀ f ∈ stack t, Possible dpcThread f

structure SoundParts (s : Sched) (stack : Tid → List Frame) (flags : EventId → BitVec 32)
    (signalled : EventId → Bool) (dpcThread : Option Tid) (running : Option Tid) : Prop where
  placed : Placed s settled running
  stacked : Stacked s stack
  dpc : DpcReady stack flags signalled dpcThread

/-- The invariant of the kernel data, with `running` the thread in state `running`. -/
def Sound (k : Kernel) (running : Option Tid) : Prop :=
  SoundParts k.toSched k.stack k.eventFlags k.signalled k.dpcThread running

/-- Kernel code runs on the current thread, which is not inside `wait_queue_block`. -/
structure Live (k : Kernel) (running : Option Tid) : Prop where
  sound : Sound k running
  clean : ∀ f ∈ k.stack k.currentThread, waits f = false
  old : k.currentThread < k.nextThread

def phaseOf (state : ThreadState) (ret : Status) : List Frame → Phase
  | .waitQueueBlock timeout caller :: _ =>
    if state = .blocked then .waiting timeout caller else .released timeout caller ret
  | _ => .idle

def view (k : Kernel) : Sync where
  phase t := phaseOf (k.state t) (k.waitQueueBlockRet t) (k.stack t)
  queue := k.waitList
  armed t := .wait t ∈ k.timerQueue
  count := k.mutexCount
  holder := k.mutexHolder
  signalled := k.signalled
  auto := autoUnsignal k
  dpcs := k.dpcList
  dead t := k.state t = .death

variable {ret : Status} {stack : List Frame}

theorem phaseOf_idle {state : ThreadState}
    (clean : ∀ f ∈ stack, waits f = false) : phaseOf state ret stack = .idle := by
  cases stack with
  | nil => rfl
  | cons f rest =>
    have top := clean f (by simp)
    cases f <;> first | rfl | simp [waits] at top

theorem phaseOf_waiting {state : ThreadState} {timeout : Time}
    {caller : Waiter} (phase : phaseOf state ret stack = .waiting timeout caller) :
    state = .blocked ∧ ∃ rest, stack = .waitQueueBlock timeout caller :: rest := by
  unfold phaseOf at phase
  split at phase
  · split at phase
    case isTrue blocked =>
      obtain ⟨rfl, rfl⟩ := Phase.waiting.inj phase
      exact ⟨blocked, _, rfl⟩
    case isFalse => simp at phase
  · simp at phase

theorem phaseOf_congr {state state' : ThreadState} (same : state' = .blocked ↔ state = .blocked) :
    phaseOf state' ret stack = phaseOf state ret stack := by
  cases stack with
  | nil => rfl
  | cons f rest => cases f <;> simp [phaseOf, same]

theorem view_congr {k k' : Kernel} (blocked : ∀ t, k'.state t = .blocked ↔ k.state t = .blocked)
    (dead : ∀ t, k'.state t = .death ↔ k.state t = .death)
    (armed : ∀ t, .wait t ∈ k'.timerQueue ↔ .wait t ∈ k.timerQueue)
    (stack : k'.stack = k.stack) (ret : k'.waitQueueBlockRet = k.waitQueueBlockRet)
    (waitList : k'.waitList = k.waitList) (count : k'.mutexCount = k.mutexCount)
    (holder : k'.mutexHolder = k.mutexHolder) (signalled : k'.signalled = k.signalled)
    (flags : k'.eventFlags = k.eventFlags) (dpcs : k'.dpcList = k.dpcList) :
    view k' = view k := by
  have phase : (view k').phase = (view k).phase := by
    funext t
    show phaseOf _ _ _ = phaseOf _ _ _
    rw [stack, ret]
    exact phaseOf_congr (blocked t)
  have armed : (view k').armed = (view k).armed := funext fun t => propext (armed t)
  have dead : (view k').dead = (view k).dead := funext fun t => propext (dead t)
  have auto : (view k').auto = (view k).auto := by
    funext e
    show autoUnsignal k' e = autoUnsignal k e
    simp only [autoUnsignal, flags]
  exact Sync.ext phase waitList armed count holder signalled auto dpcs dead

variable {stack : Tid → List Frame}

theorem Stacked.mono {s s' : Sched} (stacked : Stacked s stack)
    (blocked : ∀ t, s'.state t = .blocked →
      s.state t = .blocked ∧ s'.blockingWaitQueue t = s.blockingWaitQueue t)
    (timers : ∀ t, s'.timerQueue.count (.wait t) ≤ s.timerQueue.count (.wait t))
    (next : s.nextThread ≤ s'.nextThread) : Stacked s' stack where
  below := stacked.below
  blocked := by
    intro t now
    obtain ⟨before, same⟩ := blocked t now
    rw [same]
    exact stacked.blocked t before
  armed := by
    intro t member
    have positive := List.count_pos_iff.mpr member
    exact stacked.armed t (List.count_pos_iff.mp (positive.trans_le (timers t)))
  armed_once := fun t => (timers t).trans (stacked.armed_once t)
  fresh := fun t young => stacked.fresh t (next.trans young)

theorem Stacked.set_stack {s : Sched} {t : Tid} {frames : List Frame}
    (stacked : Stacked s stack) (notBlocked : s.state t ≠ .blocked)
    (notArmed : .wait t ∉ s.timerQueue) (old : t < s.nextThread)
    (below : ∀ f ∈ frames.tail, waits f = false) :
    Stacked s (Function.update stack t frames) where
  below := by
    intro u
    obtain rfl | same := eq_or_ne u t
    · simpa using below
    · simpa [same] using stacked.below u
  blocked := by
    intro u blocked
    have different : u ≠ t := by
      rintro rfl
      exact notBlocked blocked
    simpa [different] using stacked.blocked u blocked
  armed := by
    intro u member
    have different : u ≠ t := by
      rintro rfl
      exact notArmed member
    simpa [different] using stacked.armed u member
  armed_once := stacked.armed_once
  fresh := by
    intro u young
    have different : u ≠ t := by
      rintro rfl
      exact absurd old (Nat.not_lt.mpr young)
    simpa [different] using stacked.fresh u young

variable {flags : EventId → BitVec 32}

theorem DpcReady.set_stack
    {signalled : EventId → Bool} {dpcThread : Option Tid} {t : Tid} {frames : List Frame}
    (dpc : DpcReady stack flags signalled dpcThread)
    (possible : ∀ f ∈ frames, Possible dpcThread f) :
    DpcReady (Function.update stack t frames) flags signalled dpcThread where
  __ := dpc
  frames := by
    intro u
    obtain rfl | same := eq_or_ne u t
    · simpa using possible
    · simpa [same] using dpc.frames u

theorem DpcReady.set_signalled
    {signalled : EventId → Bool} {dpcThread : Option Tid} {e : EventId} {b : Bool}
    (dpc : DpcReady stack flags signalled dpcThread)
    (ready : b = true → e = .dpc → dpcThread ≠ none) :
    DpcReady stack flags (Function.update signalled e b) dpcThread where
  __ := dpc
  unsignalled := by
    intro none
    obtain rfl | same := eq_or_ne .dpc e
    · simpa using fun set => ready set rfl none
    · simpa [same] using dpc.unsignalled none

section Live

variable {k : Kernel} {running : Option Tid}

theorem Live.not_blocked (live : Live k running) : k.state k.currentThread ≠ .blocked := by
  intro blocked
  obtain ⟨timeout, caller, rest, top, -⟩ := live.sound.stacked.blocked _ blocked
  have clean := live.clean (.waitQueueBlock timeout caller) (by simp [top])
  simp [waits] at clean

theorem Live.not_armed (live : Live k running) : .wait k.currentThread ∉ k.timerQueue := by
  intro member
  obtain ⟨timeout, caller, rest, top, -⟩ := live.sound.stacked.armed _ member
  have clean := live.clean (.waitQueueBlock timeout caller) (by simp [top])
  simp [waits] at clean

theorem Live.phase_idle (live : Live k running) : (view k).phase k.currentThread = .idle :=
  phaseOf_idle live.clean

def calm : Frame → Bool
  | .threadExit => false
  | f => !waits f && !servesDpc f

variable {f : Frame}

theorem calm_waits (quiet : calm f = true) : waits f = false := by
  cases f <;> first | rfl | simp [calm, waits] at quiet

theorem calm_possible {dpcThread : Option Tid} (quiet : calm f = true) : Possible dpcThread f := by
  refine ⟨?_, fun _ => ?_⟩
  · rintro rfl
    simp [calm] at quiet
  · cases f <;> simp_all [calm]

section Live

variable (live : Live k running)
include live

theorem Live.set_stack {frames : List Frame} (clean : ∀ f ∈ frames, waits f = false)
    (possible : ∀ f ∈ frames, Possible k.dpcThread f) :
    Live { k with stack := Function.update k.stack k.currentThread frames } running where
  sound :=
    { placed := live.sound.placed
      stacked := live.sound.stacked.set_stack live.not_blocked live.not_armed live.old
        fun f member => clean f (List.mem_of_mem_tail member)
      dpc := live.sound.dpc.set_stack possible }
  clean := by simpa using clean
  old := live.old

theorem Live.view_set_stack {frames : List Frame} (clean : ∀ f ∈ frames, waits f = false) :
    view { k with stack := Function.update k.stack k.currentThread frames } = view k := by
  have phase : (view { k with stack := Function.update k.stack k.currentThread frames }).phase =
      (view k).phase := by
    funext t
    obtain rfl | same := eq_or_ne t k.currentThread
    · rw [live.phase_idle]
      simpa [view] using phaseOf_idle clean
    · simp [view, same]
  exact Sync.ext phase rfl rfl rfl rfl rfl rfl rfl rfl

private theorem clean_append (frames : List Frame)
    (outside : ∀ f ∈ frames, waits f = false) :
    ∀ f ∈ frames ++ k.stack k.currentThread, waits f = false := by
  intro f member
  rcases List.mem_append.mp member with new | old
  · exact outside f new
  · exact live.clean f old

theorem Live.pushAll (frames : List Frame)
    (quiet : ∀ f ∈ frames, calm f = true) : Live (pushAll k frames) running := by
  refine live.set_stack (clean_append live frames fun f member => calm_waits (quiet f member)) ?_
  intro f member
  rcases List.mem_append.mp member with new | old
  · exact calm_possible (quiet f new)
  · exact live.sound.dpc.frames _ f old

theorem Live.view_pushAll (frames : List Frame)
    (quiet : ∀ f ∈ frames, calm f = true) : view (State.pushAll k frames) = view k :=
  live.view_set_stack (clean_append live frames fun f member => calm_waits (quiet f member))

theorem Live.push_possible (outside : waits f = false) (possible : Possible k.dpcThread f) :
    Live (State.push k f) running ∧ view (State.push k f) = view k := by
  have clean := clean_append live [f] (by simpa using outside)
  exact ⟨live.set_stack clean (List.forall_mem_cons.mpr ⟨possible, live.sound.dpc.frames _⟩),
    live.view_set_stack clean⟩

theorem Live.push (quiet : calm f = true) : Live (push k f) running :=
  live.pushAll [f] (by simpa using quiet)

theorem Live.view_push (quiet : calm f = true) : view (State.push k f) = view k :=
  live.view_pushAll [f] (by simpa using quiet)

theorem Live.reschedule {s : Sched} {running' : Option Tid} (placed : Placed s settled running')
    (blocked : ∀ t, s.state t = .blocked →
      k.state t = .blocked ∧ s.blockingWaitQueue t = k.blockingWaitQueue t)
    (timers : ∀ t, s.timerQueue.count (.wait t) ≤ k.timerQueue.count (.wait t))
    (next : k.nextThread ≤ s.nextThread) (current : s.currentThread = k.currentThread) :
    Live { k with toSched := s } running' where
  sound := { live.sound with placed, stacked := live.sound.stacked.mono blocked timers next }
  clean := by
    rw [current]
    exact live.clean
  old := current ▸ live.old.trans_le next

end Live

def Awake (st : ThreadState) : Prop := st ≠ .blocked ∧ st ≠ .death

theorem Live.moved {s : Sched} {count : Int} {enabled : Bool} {quantum : Tid → Int}
    {running' : Option Tid} (live : Live k running) (placed : Placed s settled running')
    (state : ∀ t, s.state t = k.state t ∨ (Awake (k.state t) ∧ Awake (s.state t)))
    (blocking : s.blockingWaitQueue = k.blockingWaitQueue)
    (timers : ∀ t, s.timerQueue.count (.wait t) = k.timerQueue.count (.wait t))
    (next : s.nextThread = k.nextThread) (current : s.currentThread = k.currentThread)
    (waitList : s.waitList = k.waitList) :
    let k' : Kernel :=
      { k with
        toSched := s
        criticalSectionCount := count
        intsEnabled := enabled
        remainingQuantum := quantum }
    Live k' running' ∧ view k' = view k := by
  have blocked : ∀ t, s.state t = .blocked ↔ k.state t = .blocked := by
    intro t
    rcases state t with same | ⟨before, after⟩
    · rw [same]
    · exact ⟨fun now => absurd now after.1, fun now => absurd now before.1⟩
  have dead : ∀ t, s.state t = .death ↔ k.state t = .death := by
    intro t
    rcases state t with same | ⟨before, after⟩
    · rw [same]
    · exact ⟨fun now => absurd now after.2, fun now => absurd now before.2⟩
  constructor
  · have stays := fun t now => And.intro ((blocked t).mp now) (congrFun blocking t)
    exact { live.reschedule placed stays (fun t => (timers t).le) next.ge current with }
  · refine view_congr blocked dead ?_ rfl rfl waitList rfl rfl rfl rfl rfl
    intro t
    rw [← List.count_pos_iff, ← List.count_pos_iff, timers]

theorem Live.set_current_state (live : Live k (some k.currentThread)) (st : ThreadState)
    (awake : Awake st) (t : Tid) :
    Function.update k.state k.currentThread st t = k.state t ∨
      (Awake (k.state t) ∧ Awake (Function.update k.state k.currentThread st t)) := by
  obtain rfl | same := eq_or_ne t k.currentThread
  · have runs := live.sound.placed.state_running
    exact Or.inr ⟨by simp [Awake, runs], by simpa using awake⟩
  · exact Or.inl (by simp [same])

theorem Sound.waiter {w : WaitQueueId} {t : Tid} (sound : Sound k running)
    (member : t ∈ k.waitList w) : k.state t = .blocked ∧ ∃ timeout caller rest,
      k.stack t = .waitQueueBlock timeout caller :: rest ∧ caller.queue = w := by
  obtain ⟨blocked, on⟩ := (sound.placed.mem_waitList t w).mp member
  obtain ⟨timeout, caller, rest, stack, queue⟩ := sound.stacked.blocked t blocked
  have equal : caller.queue = w := Option.some.inj (queue.symm.trans on)
  exact ⟨blocked, timeout, caller, rest, stack, equal⟩

end Live

end AndroidBoot.LittleKernel.KernelView
