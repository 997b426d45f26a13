/- source: bootable/lk/kernel/mutex.c, bootable/lk/kernel/thread.c
   digest: Mutual exclusion and the lost wakeup of the kernel's mutexes. -/

import AndroidBoot.LittleKernel.MutexProtocol
import AndroidBoot.LittleKernel.Simulation

set_option autoImplicit false

namespace AndroidBoot.LittleKernel.MutexSafety

open State Machine SyncModel KernelView Refinement Simulation MutexProtocol Foundation.Run

variable {k : Kernel} {mx : Nat} {running : Option Tid}

/-- The thread is inside `wait_queue_block` in an acquire of the mutex. -/
def acquiring (k : Kernel) (mx : Nat) (t : Tid) : Bool :=
  match k.stack t with
  | .waitQueueBlock _ caller :: _ => caller.queue = .mutex mx
  | _ => false

/-- The threads in an acquire that were taken off the queue with `code` and have
not run since. -/
def resuming (k : Kernel) (mx : Nat) (code : Status) : List Tid :=
  (List.range k.nextThread).filter fun t =>
    acquiring k mx t && k.state t ≠ .blocked && k.waitQueueBlockRet t = code

def handed (k : Kernel) (mx : Nat) : List Tid := resuming k mx noError

def timedOut (k : Kernel) (mx : Nat) : List Tid := resuming k mx errTimedOut

def owners (k : Kernel) (mx : Nat) : List Tid := (k.mutexHolder mx).toList

def mutexKept (mx : Nat) (s : Machine) (l : Label) : Bool :=
  proper s l &&
    match l with
    | .call (.mutexDestroy m) => m ≠ mx
    | .call (.threadUnblockFromWaitQueue t _ _) => s.kernel.blockingWaitQueue t ≠ some (.mutex mx)
    | _ => true

theorem mem_resuming (sound : Sound k running) {t : Tid} {code : Status} :
    t ∈ resuming k mx code ↔ ∃ timeout caller,
      (view k).phase t = .released timeout caller code ∧ caller.queue = .mutex mx := by
  have old {f : Frame} {rest : List Frame} (stack : k.stack t = f :: rest) : t < k.nextThread := by
    by_contra young
    rw [sound.stacked.fresh t (Nat.le_of_not_lt young)] at stack
    cases stack
  rw [resuming, List.mem_filter, List.mem_range]
  simp only [acquiring, view, phaseOf, Bool.and_eq_true, decide_eq_true_eq]
  rcases stack : k.stack t with _ | ⟨f, rest⟩
  · simp
  · cases f with
    | waitQueueBlock timeout caller =>
      by_cases blocked : k.state t = .blocked
      · simp [blocked]
      · simp [blocked, old stack, and_comm]
    | _ => simp

theorem mem_handed (sound : Sound k running) {t : Tid} :
    t ∈ handed k mx ↔ Handed mx ((view k).phase t) := by
  rw [handed, mem_resuming sound]
  constructor
  · rintro ⟨timeout, caller, phase, acquires⟩
    rw [phase]
    exact ⟨acquires, rfl⟩
  · intro here
    cases phase : (view k).phase t with
    | idle | waiting => simp [phase, Handed] at here
    | released timeout caller code =>
      rw [phase] at here
      obtain ⟨acquires, rfl⟩ := here
      exact ⟨timeout, caller, rfl, acquires⟩

theorem owners_eq_nil : owners k mx = [] ↔ (view k).holder mx = none :=
  Option.toList_eq_nil_iff

theorem nodup_resuming (code : Status) : (resuming k mx code).Nodup :=
  List.nodup_range.filter _

theorem ncard_inside (sound : Sound k running) (accounted : Accounted mx (view k)) :
    (inside mx (view k)).ncard =
      (k.waitList (.mutex mx)).length + (handed k mx).length + (timedOut k mx).length := by
  have coherent := Sound.coherent sound
  have members : inside mx (view k) =
      ((k.waitList (.mutex mx) ++ (handed k mx ++ timedOut k mx)).toFinset : Set Tid) := by
    ext t
    have queued := coherent.mem_queue t (.mutex mx)
    have regular := accounted.regular t
    simp only [List.coe_toFinset, Set.mem_ofPred_eq, List.mem_append, handed, timedOut,
      mem_resuming sound]
    show ((view k).phase t).At (.mutex mx) ↔ (t ∈ (view k).queue _ ∨ _)
    rw [queued]
    cases phase : (view k).phase t with
    | idle | waiting => simp [Phase.At]
    | released timeout caller code =>
      rw [phase] at regular
      constructor
      · intro acquires
        rcases regular.codes acquires with rfl | rfl
        · exact Or.inr (Or.inl ⟨_, _, rfl, acquires⟩)
        · exact Or.inr (Or.inr ⟨_, _, rfl, acquires⟩)
      · rintro (⟨_, _, impossible, -⟩ | ⟨_, _, same, acquires⟩ | ⟨_, _, same, acquires⟩)
        · cases impossible
        · cases same
          exact acquires
        · cases same
          exact acquires
  have disjoint : (k.waitList (.mutex mx) ++ (handed k mx ++ timedOut k mx)).Nodup := by
    refine (coherent.queue_nodup (.mutex mx)).append
      ((nodup_resuming noError).append (nodup_resuming errTimedOut) ?_) ?_
    · intro t first second
      obtain ⟨_, _, handed, -⟩ := (mem_resuming sound).mp first
      obtain ⟨_, _, expired, -⟩ := (mem_resuming sound).mp second
      simp [handed, noError, errTimedOut] at expired
    · intro t queued resumed
      obtain ⟨_, _, waiting, -⟩ := (coherent.mem_queue t _).mp queued
      rcases List.mem_append.mp resumed with resumed | resumed <;>
        obtain ⟨_, _, released, -⟩ := (mem_resuming sound).mp resumed <;>
        simp [waiting] at released
  rw [members, Set.ncard_coe_finset, List.toFinset_card_of_nodup disjoint]
  simp [Nat.add_assoc]

variable {initial : Nat → Bool} {flags : Nat → BitVec 32} {m : Machine}

variable {s : Machine} {l : Label}

theorem mutexStep_of_kept {os : List Observation} {σ : Sync}
    (consistent : Consistent s) (kept : mutexKept mx s l = true)
    (action : Action (intends s.kernel l) (view s.kernel) os σ) :
    MutexStep (∃ c : Waiter, c.queue = .mutex mx ∧ intends s.kernel l (.join c)) mx
      (view s.kernel) σ := by
  have allowed := (Bool.and_eq_true_iff.mp kept).2
  refine mutexStep_of_action (Consistent.coherent consistent) ?_ ?_ action
  all_goals
    intro intended
    rcases l with c | _ | _ | r | now | _ | _
    · cases c <;> first | exact intended | simp_all [intends]
    all_goals exact intended

theorem proper_of_mutexKept (kept : mutexKept mx s l = true) :
    proper s l = true := (Bool.and_eq_true_iff.mp kept).1

theorem accounted_threadInitEarly : Accounted mx (view (threadInitEarly initial flags).kernel) := by
  have idle (t : Tid) : (view (threadInitEarly initial flags).kernel).phase t = .idle := by
    simp only [view, threadInitEarly]
    split <;> rfl
  have empty : inside mx (view (threadInitEarly initial flags).kernel) = ∅ := by
    simp [inside, idle, Phase.At]
  refine ⟨empty ▸ Set.finite_empty, ?_, ?_, ?_, ?_⟩
  · rw [empty]
    simp [view, threadInitEarly]
  · intro t
    rw [idle t]
    trivial
  · intro t handed
    rw [idle t] at handed
    exact handed.elim
  · intro t u handed
    rw [idle t] at handed
    exact handed.elim

/-- Along every run that keeps the mutex, at most one thread owns it or was handed
it, its count counts the owner, the queue, the handed and the timed-out threads,
and ownership does not pass from thread to thread without a release. -/
theorem mutual_exclusion
    (reach : Reach step (fun s l => mutexKept mx s l = true) (threadInitEarly initial flags) m) :
    (owners m.kernel mx).length + (handed m.kernel mx).length ≤ 1 ∧
      m.kernel.mutexCount mx = (owners m.kernel mx).length +
        (m.kernel.waitList (.mutex mx)).length + (handed m.kernel mx).length +
        (timedOut m.kernel mx).length ∧
      ∀ l m' t, mutexKept mx m l = true → step m l = some m' →
        m.kernel.mutexHolder mx = some t →
        m'.kernel.mutexHolder mx = some t ∨ m'.kernel.mutexHolder mx = none := by
  obtain ⟨consistent, accounted⟩ := reach_sync (I := fun σ _ => Accounted mx σ)
    (fun _ _ => proper_of_mutexKept) accounted_threadInitEarly
    (fun s l os σ consistent kept accounted action =>
      accounted.step (mutexStep_of_kept consistent kept action)) reach
  obtain ⟨running, sound⟩ := Consistent.sound consistent
  refine ⟨?_, ?_, ?_⟩
  · rcases list : handed m.kernel mx with _ | ⟨t, rest⟩
    · cases holder : m.kernel.mutexHolder mx <;> simp [owners, holder]
    · have given (u : Tid) (member : u ∈ t :: rest) : Handed mx ((view m.kernel).phase u) :=
        (mem_handed sound).mp (list ▸ member)
      have free : m.kernel.mutexHolder mx = none :=
        accounted.handed_free t (given t List.mem_cons_self)
      have distinct : (t :: rest).Nodup := list ▸ nodup_resuming noError
      have alone : rest = [] := by
        refine List.eq_nil_iff_forall_not_mem.mpr fun u member => ?_
        have same := accounted.handed_unique t u (given t List.mem_cons_self)
          (given u (List.mem_cons_of_mem t member))
        exact (List.nodup_cons.mp distinct).1 (same ▸ member)
      simp [owners, free, alone]
  · have counted : m.kernel.mutexCount mx = _ := accounted.counted
    have owner : ((owners m.kernel mx).length : Int) =
        if ((view m.kernel).holder mx).isSome then 1 else 0 := by
      show ((m.kernel.mutexHolder mx).toList.length : Int) = _
      cases holder : m.kernel.mutexHolder mx <;> simp [view, holder]
    rw [counted, ncard_inside sound accounted, owner]
    push_cast
    ring
  · intro l m' t kept next holds
    obtain ⟨-, reaches⟩ := step_simulates consistent (proper_of_mutexKept kept) next
    rcases reaches with ⟨same, -⟩ | ⟨os, action, -⟩
    · exact Or.inl ((congrFun (congrArg Sync.holder same) mx).trans holds)
    · exact accounted.holder_step (mutexStep_of_kept consistent kept action) holds

def contention : List Label :=
  List.flatten [Label.idleAndOne, Label.upTo (.call (.threadCreate 20 true)) 1,
    Label.upTo (.call (.threadResume 2)) 2,
    Label.upTo (.call (.mutexAcquire 0 0)) 1, Label.upTo (.call (.threadSleep 1 0)) 4,
    Label.upTo (.call (.mutexAcquireTimeout 0 5 0)) 4]

theorem mutual_exclusion_contention : ∃ m,
    Reach step (fun s l => mutexKept 0 s l = true)
      (threadInitEarly (fun _ => false) (fun _ => 0)) m ∧
      m.kernel.waitList (.mutex 0) = [1] ∧ m.kernel.mutexHolder 0 = some 2 ∧
      handed m.kernel 0 = [] := by
  refine exists_reach_of_replay contention
    (fun m => m.kernel.waitList (.mutex 0) = [1] ∧ m.kernel.mutexHolder 0 = some 2)
    (by decide +kernel) ?_
  intro m reach ⟨queue, holder⟩
  obtain ⟨single, -, -⟩ := mutual_exclusion reach
  have nobody : (handed m.kernel 0).length = 0 := by
    simp only [owners, holder, Option.toList_some, List.length_singleton] at single
    omega
  exact ⟨queue, holder, List.eq_nil_of_length_eq_zero nobody⟩

theorem lost_wakeup : ∃ m,
    Reach step (fun s l => mutexKept 0 s l = true)
      (threadInitEarly (fun _ => false) (fun _ => 0)) m ∧ m.control = .user ∧
      m.kernel.waitList (.mutex 0) = [2] ∧ owners m.kernel 0 = [] ∧ handed m.kernel 0 = [] :=
  exists_reach_of_replay (contention ++ List.flatten [Label.upTo (.timerIrq 100) 7,
    Label.upTo (.call (.mutexRelease 0)) 1, Label.upTo (.call (.mutexAcquire 0 0)) 3]) _
    (by decide +kernel) fun _ _ => id

def acquireSettles (k : Kernel) (mx : Nat) : Bool :=
  owners k mx ≠ [] || handed k mx ≠ [] || timedOut k mx = []

def acquireSettled (mx : Nat) (s : Machine) (l : Label) : Bool :=
  mutexKept mx s l &&
    match l with
    | .call (.mutexAcquire m _) => m ≠ mx || acquireSettles s.kernel mx
    | .call (.mutexAcquireTimeout m timeout _) =>
      m ≠ mx || timeout = 0 || acquireSettles s.kernel mx
    | _ => true

theorem settled_of_acquireSettles (sound : Sound k running)
    (settles : acquireSettles k mx = true) : Settled mx (view k) := by
  simp only [acquireSettles, Bool.or_eq_true, decide_eq_true_eq, or_assoc] at settles
  rcases settles with owned | given | resumed
  · exact Or.inl fun free => owned (owners_eq_nil.mpr free)
  · obtain ⟨t, member⟩ := List.exists_mem_of_ne_nil _ given
    exact Or.inr (Or.inl ⟨t, (mem_handed sound).mp member⟩)
  · refine Or.inr (Or.inr fun t timeout caller phase acquires => ?_)
    have member : t ∈ timedOut k mx := (mem_resuming sound).mpr ⟨timeout, caller, phase, acquires⟩
    simp [resumed] at member

theorem settled_of_acquireSettled {c : Waiter}
    (sound : Sound s.kernel running) (settled : acquireSettled mx s l = true)
    (acquires : c.queue = .mutex mx) (joins : intends s.kernel l (.join c)) :
    Settled mx (view s.kernel) := by
  have condition := (Bool.and_eq_true_iff.mp settled).2
  rcases l with call | _ | _ | r | now | _ | _
  · cases call with
    | mutexAcquire n now =>
      have same : c = .mutexAcquire n := joins
      obtain rfl : n = mx := by rw [same] at acquires; exact WaitQueueId.mutex.inj acquires
      exact settled_of_acquireSettles sound (by simpa using condition)
    | mutexAcquireTimeout n timeout now =>
      obtain ⟨blocking, same⟩ := joins
      obtain rfl : n = mx := by
        rcases same with same | same <;> rw [same] at acquires <;>
          exact WaitQueueId.mutex.inj acquires
      exact settled_of_acquireSettles sound (by simpa [show timeout ≠ 0#32 from blocking] using condition)
    | waitQueueBlock => simp [joins.2, Waiter.queue] at acquires
    | eventWait => rw [show c = _ from joins] at acquires; cases acquires
    | eventWaitTimeout => rw [joins.2] at acquires; cases acquires
    | _ => exact joins.elim
  · exact joins.elim
  · exact joins.elim
  · rw [show c = _ from joins] at acquires
    cases acquires
  all_goals exact joins.elim

/-- Along every run in which no blocking acquire meets a free mutex with a
timed-out acquire still to run, waiters have an owner or a handed thread. -/
theorem no_lost_wakeup
    (reach : Reach step (fun s l => acquireSettled mx s l = true) (threadInitEarly initial flags) m)
    (waiters : m.kernel.waitList (.mutex mx) ≠ []) :
    owners m.kernel mx ≠ [] ∨ handed m.kernel mx ≠ [] := by
  have kept (s : Machine) (l : Label) (ok : acquireSettled mx s l = true) :
      mutexKept mx s l = true := (Bool.and_eq_true_iff.mp ok).1
  obtain ⟨consistent, -, owned⟩ := reach_sync
    (I := fun σ _ => Accounted mx σ ∧ Owned mx σ)
    (fun s l ok => proper_of_mutexKept (kept s l ok))
    ⟨accounted_threadInitEarly, fun filled => absurd rfl filled⟩
    (fun s l os σ consistent ok ⟨accounted, owned⟩ action => by
      have protocol := mutexStep_of_kept consistent (kept s l ok) action
      refine ⟨accounted.step protocol,
        owned.step (Consistent.coherent consistent) accounted ?_ protocol⟩
      rintro ⟨c, acquires, joins⟩
      exact settled_of_acquireSettled (Consistent.sound consistent).choose_spec ok acquires joins)
    reach
  obtain ⟨running, sound⟩ := Consistent.sound consistent
  rcases owned waiters with held | ⟨t, given⟩
  · exact Or.inl fun nobody => held (owners_eq_nil.mp nobody)
  · exact Or.inr (List.ne_nil_of_mem ((mem_handed sound).mpr given))

theorem no_lost_wakeup_contention : ∃ m,
    Reach step (fun s l => acquireSettled 0 s l = true)
      (threadInitEarly (fun _ => false) (fun _ => 0)) m ∧
      m.kernel.waitList (.mutex 0) = [1] ∧
      (owners m.kernel 0 ≠ [] ∨ handed m.kernel 0 ≠ []) :=
  exists_reach_of_replay contention (fun m => m.kernel.waitList (.mutex 0) = [1])
    (by decide +kernel) fun _ reach queue => ⟨queue, no_lost_wakeup reach (by simp [queue])⟩

end AndroidBoot.LittleKernel.MutexSafety
