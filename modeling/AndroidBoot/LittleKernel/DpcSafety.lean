/- source: bootable/lk/kernel/dpc.c, bootable/lk/kernel/event.c, bootable/lk/kernel/thread.c
   digest: Deferred calls are run in order, once, and the dpc thread never sleeps on one. -/

import AndroidBoot.LittleKernel.EventSafety

set_option autoImplicit false

namespace AndroidBoot.LittleKernel.DpcSafety

open State Machine SyncModel KernelView Refinement Simulation EventProtocol Foundation.Run

variable {σ σ' : Sync} {os os' : List Observation} {may : Intent → Prop}

def queuedCall : Observation → Option Dpc
  | .queued d => some d
  | _ => none

/-- The call whose callback `dpc_thread_routine` runs. -/
def startedCall : Observation → Option Dpc
  | .started d => some d
  | _ => none

/-- The queued calls are those started, in this order, and those still in the list. -/
structure Logged (σ : Sync) (os : List Observation) : Prop where
  order : os.filterMap queuedCall = os.filterMap startedCall ++ σ.dpcs
  ready : σ.dpcs ≠ [] → σ.signalled .dpc = true
  dead : ∀ t, (os.filterMap queuedCall).count (.threadCleanup t) = 1 ∧ σ.dead t ∨
    (os.filterMap queuedCall).count (.threadCleanup t) = 0 ∧ ¬ σ.dead t

def Unrelated (os : List Observation) : Prop :=
  os.filterMap queuedCall = [] ∧ os.filterMap startedCall = []

theorem Logged.unrelated (logged : Logged σ os) (unrelated : Unrelated os')
    (dpcs : σ'.dpcs = σ.dpcs) (dead : σ'.dead = σ.dead)
    (ready : σ.dpcs ≠ [] → σ.signalled .dpc = true → σ'.signalled .dpc = true) :
    Logged σ' (os ++ os') where
  order := by
    rw [List.filterMap_append, List.filterMap_append, unrelated.1, unrelated.2, dpcs,
      List.append_nil, List.append_nil]
    exact logged.order
  ready := by
    intro filled
    rw [dpcs] at filled
    exact ready filled (logged.ready filled)
  dead := by
    rw [List.filterMap_append, unrelated.1, dead, List.append_nil]
    exact logged.dead

theorem unrelated_removals (w : WaitQueueId) (code : Status) : Unrelated (σ.removals w code) := by
  constructor <;> simp [Sync.removals, List.filterMap_map, queuedCall, startedCall,
    Function.comp_def]

theorem unrelated_signal {e : EventId} (signal : Signal σ e os σ') :
    Unrelated os ∧ σ'.dpcs = σ.dpcs ∧ σ'.dead = σ.dead ∧ (e ≠ .dpc →
      σ'.signalled .dpc = σ.signalled .dpc) := by
  cases signal with
  | ignored | one => exact ⟨⟨rfl, rfl⟩, rfl, rfl, fun _ => rfl⟩
  | stored =>
    exact ⟨⟨rfl, rfl⟩, rfl, rfl, fun other => by simp [Sync.setSignalled, other.symm]⟩
  | all =>
    obtain ⟨queued, started⟩ := unrelated_removals (σ := σ) (.event e) noError
    exact ⟨⟨queued, started⟩, rfl, rfl,
      fun other => by simp [Sync.setSignalled, Sync.dropAll, other.symm]⟩

theorem signalled_of_signal (manual : σ.auto .dpc = false) (signal : Signal σ .dpc os σ') :
    σ'.signalled .dpc = true := by
  cases signal with
  | ignored signalled => exact signalled
  | stored clear auto | one clear auto =>
    rw [manual] at auto
    cases auto
  | all => simp [Sync.setSignalled]

theorem Logged.queue {d : Dpc} (logged : Logged σ os) (manual : σ.auto .dpc = false)
    (alive : ∀ t, d = .threadCleanup t → ¬ σ.dead t) (signal : Signal σ .dpc os' σ') :
    Logged (σ'.enqueue d) (os ++ .queued d :: os') := by
  obtain ⟨⟨queued, started⟩, dpcs, dead, -⟩ := unrelated_signal signal
  have calls : (os ++ .queued d :: os').filterMap queuedCall = os.filterMap queuedCall ++ [d] := by
    have first : queuedCall (.queued d) = some d := rfl
    rw [List.filterMap_append, List.filterMap_cons_some first, queued]
  have runs : (os ++ .queued d :: os').filterMap startedCall = os.filterMap startedCall := by
    rw [List.filterMap_append, List.filterMap_cons_none rfl, started, List.append_nil]
  have set := signalled_of_signal manual signal
  refine ⟨?_, fun _ => set, fun t => ?_⟩
  · rw [calls, runs, logged.order, List.append_assoc]
    show _ = _ ++ (σ'.dpcs ++ [d])
    rw [dpcs]
  · rw [calls, List.count_append]
    by_cases here : d = .threadCleanup t
    · subst here
      have unqueued := (logged.dead t).resolve_left fun both => alive t rfl both.2
      exact Or.inl ⟨by simp [unqueued.1], by simp [Sync.enqueue]⟩
    · have other : [d].count (.threadCleanup t) = 0 := by simp [here]
      have same : (σ'.enqueue d).dead t = σ.dead t := by
        cases d with
        | threadCleanup u =>
          have different : t ≠ u := by
            rintro rfl
            exact here rfl
          simp [Sync.enqueue, different, dead]
        | device n => simp [Sync.enqueue, dead]
      rw [other, same, Nat.add_zero]
      exact logged.dead t

theorem Logged.start {d : Dpc} {rest : List Dpc} (logged : Logged σ os)
    (first : σ.dpcs = d :: rest) : Logged { σ with dpcs := rest } (os ++ [.started d]) where
  order := by
    have order := logged.order
    rw [first] at order
    simp [queuedCall, startedCall, order]
  ready := fun _ => logged.ready (by simp [first])
  dead := by
    rw [List.filterMap_append, List.filterMap_cons_none rfl, List.filterMap_nil, List.append_nil]
    exact logged.dead

theorem Logged.step (logged : Logged σ os) (manual : σ.auto .dpc = false)
    (action : Action may σ os' σ') : Logged σ' (os ++ os') := by
  have quiet {os' : List Observation} {σ' : Sync} (unrelated : Unrelated os')
      (dpcs : σ'.dpcs = σ.dpcs) (dead : σ'.dead = σ.dead)
      (same : σ'.signalled .dpc = σ.signalled .dpc) : Logged σ' (os ++ os') :=
    logged.unrelated unrelated dpcs dead fun _ set => same.trans set
  cases action with
  | @wait t timeout caller =>
    obtain ⟨-, -, -, signalled, -, dpcs, dead⟩ := σ.enlist_same caller
    exact quiet ⟨rfl, rfl⟩ dpcs dead (congrFun signalled _)
  | refuse | wakeOne | unblock | timeout | expire | acquire | release | handOver | pass =>
    exact quiet ⟨rfl, rfl⟩ rfl rfl rfl
  | @finish t timeout caller code =>
    obtain ⟨-, -, signalled, -, dpcs, dead⟩ := (σ.leave t).conclude_same t code caller
    exact quiet ⟨rfl, rfl⟩ dpcs dead (congrFun signalled _)
  | wakeAll | destroyMutex | destroyEvent => exact quiet (unrelated_removals _ _) rfl rfl rfl
  | @consume e signalled auto =>
    have other : EventId.dpc ≠ e := by
      rintro rfl
      simp [manual] at auto
    exact quiet ⟨rfl, rfl⟩ rfl rfl (by simp [Sync.setSignalled, other])
  | signal signal =>
    obtain ⟨unrelated, dpcs, dead, signalled⟩ := unrelated_signal signal
    exact quiet unrelated dpcs dead (signalled fun same => by cases same)
  | @unsignal e drained =>
    refine logged.unrelated ⟨rfl, rfl⟩ rfl rfl fun filled set => ?_
    have other : EventId.dpc ≠ e := by
      rintro rfl
      exact filled (drained rfl)
    simpa [Sync.setSignalled, other] using set
  | dpcQueue alive signal => exact logged.queue manual alive signal
  | dpcStart first => exact logged.start first

theorem manual_of_consistent {m : Machine} (consistent : Consistent m) :
    (view m.kernel).auto .dpc = false := by
  obtain ⟨running, sound⟩ := Consistent.sound consistent
  simp [view, Event.autoUnsignal, sound.dpc.flags]

theorem trace_threadResched {k : Kernel} {m : Machine}
    (next : settle (Thread.threadResched k) = some m) : m.kernel.trace = k.trace := by
  unfold Thread.threadResched at next
  split at next
  case isTrue => cases next
  case isFalse =>
    split at next
    · cases next
    · cases next
      unfold Thread.contextSwitch
      split <;> rfl

theorem running_of_started {m m' : Machine} {l : Label} {d : Dpc} (consistent : Consistent m)
    (next : step m l = some m') (started : m'.kernel.trace = m.kernel.trace ++ [.started d]) :
    m.kernel.state m.kernel.currentThread = .running := by
  obtain ⟨k, control⟩ := m
  cases control with
  | user =>
    have sound : Sound k (some k.currentThread) := Live.sound consistent
    exact sound.placed.state_running
  | ret r =>
    have sound : Sound k (some k.currentThread) := consistent
    exact sound.placed.state_running
  | resched =>
    cases l with
    | kernel =>
      rw [trace_threadResched next] at started
      simp at started
    | _ => cases next

variable {initial : Nat → Bool} {flags : Nat → BitVec 32} {m : Machine}

theorem logged_threadInitEarly : Logged (view (threadInitEarly initial flags).kernel) [] := by
  refine ⟨rfl, fun filled => absurd rfl filled, fun t => Or.inr ⟨rfl, ?_⟩⟩
  show (if t = 0 then ThreadState.running else .suspended) ≠ .death
  split <;> simp

theorem reach_logged
    (reach : Reach step (fun s l => proper s l = true) (threadInitEarly initial flags) m) :
    Consistent m ∧ Logged (view m.kernel) m.kernel.trace ∧ Cleared (view m.kernel) :=
  reach_sync (I := fun σ os => Logged σ os ∧ Cleared σ) (fun _ _ => id)
    ⟨logged_threadInitEarly, fun _ _ => rfl⟩
    (fun _ _ _ _ consistent _ ⟨logged, cleared⟩ action =>
      ⟨logged.step (manual_of_consistent consistent) action, cleared.step action⟩) reach

/-- Along every run the deferred calls that were queued are, in this order, those whose
callbacks were run and those still in the list; nobody waits for the event of `dpc.c` with
a call in the list; and the cleanup of a thread is queued once, when the thread dies, and
run after the thread was switched away from. -/
theorem deferred_calls_in_order
    (reach : Reach step (fun s l => proper s l = true) (threadInitEarly initial flags) m) :
    m.kernel.trace.filterMap queuedCall =
        m.kernel.trace.filterMap startedCall ++ m.kernel.dpcList ∧
      (m.kernel.waitList (.event .dpc) ≠ [] → m.kernel.dpcList = []) ∧
      (∀ t, (m.kernel.trace.filterMap queuedCall).count (.threadCleanup t) =
        if m.kernel.state t = .death then 1 else 0) ∧
      ∀ t l m', proper m l = true → step m l = some m' →
        m'.kernel.trace = m.kernel.trace ++ [.started (.threadCleanup t)] →
        m.kernel.state t = .death ∧ m.kernel.currentThread ≠ t := by
  obtain ⟨consistent, logged, cleared⟩ := reach_logged reach
  have dead (t : Tid) : (m.kernel.trace.filterMap queuedCall).count (.threadCleanup t) =
      if m.kernel.state t = .death then 1 else 0 := by
    rcases logged.dead t with ⟨once, gone⟩ | ⟨never, alive⟩
    · exact once.trans (if_pos gone).symm
    · exact never.trans (if_neg alive).symm
  refine ⟨logged.order, fun waiters => ?_, dead, fun t l m' legal next started => ?_⟩
  · by_contra filled
    exact waiters (cleared .dpc (logged.ready filled))
  · have order := (reach_logged (reach.next legal next)).2.1.order
    have queued : .threadCleanup t ∈ m.kernel.trace.filterMap queuedCall := by
      rw [started] at order
      simp only [List.filterMap_append, List.filterMap_cons, List.filterMap_nil, queuedCall,
        startedCall, List.append_nil] at order
      rw [order]
      simp
    have gone : m.kernel.state t = .death := by
      by_contra alive
      have never := dead t
      rw [if_neg alive] at never
      exact List.count_eq_zero.mp never queued
    refine ⟨gone, fun same => ?_⟩
    have runs := running_of_started consistent next started
    rw [same, gone] at runs
    cases runs

theorem deferred_calls_in_order_exit : ∃ m,
    Reach step (fun s l => proper s l = true) (threadInitEarly (fun _ => false) (fun _ => 0)) m ∧
      m.kernel.trace.filterMap startedCall = [.threadCleanup 2] ∧
      m.kernel.trace.filterMap queuedCall = [.threadCleanup 2] ∧ m.kernel.state 2 = .death := by
  refine exists_reach_of_replay
    (List.flatten [[.exitCriticalSection], Label.upTo (.call .threadBecomeIdle) 1,
      Label.upTo (.call .dpcInit) 2, Label.upTo (.proceed 0) 4,
      Label.upTo (.call (.threadCreate 10 true)) 1, Label.upTo (.call (.threadResume 2)) 2,
      Label.upTo (.call (.threadExit 0)) 3, [.proceed 0]])
    (fun m => m.kernel.trace.filterMap startedCall = [.threadCleanup 2] ∧ m.kernel.dpcList = [])
    (by decide +kernel) ?_
  intro m reach ⟨started, list⟩
  obtain ⟨order, -, dead, -⟩ := deferred_calls_in_order reach
  rw [started, list, List.append_nil] at order
  refine ⟨started, order, ?_⟩
  have once := dead 2
  rw [order] at once
  by_contra alive
  simp [alive] at once

end AndroidBoot.LittleKernel.DpcSafety
