/- source: bootable/lk/kernel/mutex.c
   digest: Owners, hand-over, timed-out waiters and the count of one mutex along every run. -/

import AndroidBoot.LittleKernel.SyncModel
import Mathlib.Data.Set.Card

set_option autoImplicit false

namespace AndroidBoot.LittleKernel.MutexProtocol

open Function State SyncModel

variable {caller : Waiter} {timeout : Time} {code : Status} {mayJoin : Prop} {t : Tid}

variable {m : Nat} {σ σ' : Sync}

/-- The thread was taken off the queue of the mutex by a release and has not run yet. -/
def Handed (m : Nat) : Phase → Prop
  | .released _ caller code => caller.queue = .mutex m ∧ code = noError
  | _ => False

/-- Timeouts and codes that an acquire of the mutex can meet: `mutex_acquire`
waits without a timeout and is only ever released. -/
def Regular (m : Nat) : Phase → Prop
  | .idle => True
  | .waiting timeout caller => caller = .mutexAcquire m → timeout = infiniteTime
  | .released _ caller code => (caller = .mutexAcquire m → code = noError) ∧
      (caller = .mutexAcquireTimeout m → code = noError ∨ code = errTimedOut)

/-- What an action can do to one mutex that is not destroyed and whose waiters
nobody unblocks. -/
inductive MutexStep (mayJoin : Prop) (m : Nat) (σ σ' : Sync) : Prop where
  | apart (apart : Apart (.mutex m) σ σ') (count : σ'.count m = σ.count m)
      (holder : σ'.holder m = σ.holder m)
  | join {t : Tid} {timeout : Time} {caller : Waiter} (intent : mayJoin)
      (idle : σ.phase t = .idle) (acquires : caller.queue = .mutex m)
      (busy : 1 < σ.count m + 1) (regular : Regular m (.waiting timeout caller))
      (phase : σ'.phase = update σ.phase t (.waiting timeout caller))
      (queue : σ'.queue (.mutex m) = σ.queue (.mutex m) ++ [t])
      (count : σ'.count m = σ.count m + 1) (holder : σ'.holder m = σ.holder m)
  | timeOut {t : Tid} {timeout : Time} {caller : Waiter}
      (waiting : σ.phase t = .waiting timeout caller) (acquires : caller.queue = .mutex m)
      (finite : timeout ≠ infiniteTime)
      (phase : σ'.phase = update σ.phase t (.released timeout caller errTimedOut))
      (queue : σ'.queue (.mutex m) = (σ.queue (.mutex m)).erase t)
      (count : σ'.count m = σ.count m) (holder : σ'.holder m = σ.holder m)
  | take {t : Tid} (free : ¬ 1 < σ.count m + 1) (phase : σ'.phase = σ.phase)
      (queue : σ'.queue (.mutex m) = σ.queue (.mutex m))
      (count : σ'.count m = σ.count m + 1) (holder : σ'.holder m = some t)
  | release {t : Tid} (holds : σ.holder m = some t)
      (nobody : σ.count m - 1 < 1 ∨ σ.queue (.mutex m) = []) (phase : σ'.phase = σ.phase)
      (queue : σ'.queue (.mutex m) = σ.queue (.mutex m))
      (count : σ'.count m = σ.count m - 1) (holder : σ'.holder m = none)
  | handOver {t u : Tid} {timeout : Time} {caller : Waiter} {rest : List Tid}
      (holds : σ.holder m = some t) (waiting : σ.phase u = .waiting timeout caller)
      (acquires : caller.queue = .mutex m)
      (phase : σ'.phase = update σ.phase u (.released timeout caller noError))
      (queue : σ.queue (.mutex m) = u :: rest) (count : σ'.count m = σ.count m - 1)
      (holder : σ'.holder m = none)
  | finish {t : Tid} {timeout : Time} {caller : Waiter} {code : Status}
      (released : σ.phase t = .released timeout caller code) (acquires : caller.queue = .mutex m)
      (result : σ' = (σ.leave t).conclude t code caller)

theorem acquires_cases (acquires : caller.queue = .mutex m) :
    caller = .mutexAcquire m ∨ caller = .mutexAcquireTimeout m := by
  rcases caller with n | n | n | e
  · simp [Waiter.queue] at acquires
  · exact Or.inl (by rw [WaitQueueId.mutex.inj acquires])
  · exact Or.inr (by rw [WaitQueueId.mutex.inj acquires])
  · simp [Waiter.queue] at acquires

theorem Regular.codes (regular : Regular m (.released timeout caller code))
    (acquires : caller.queue = .mutex m) : code = noError ∨ code = errTimedOut := by
  rcases acquires_cases acquires with rfl | rfl
  · exact Or.inl (regular.1 rfl)
  · exact regular.2 rfl

attribute [local simp] Sync.addCount Sync.setHolder Sync.unlock Sync.drop

theorem enlist_count (other : caller.queue ≠ .mutex m) : (σ.enlist caller).count m = σ.count m := by
  cases caller with
  | mutexAcquire n | mutexAcquireTimeout n =>
    have different : m ≠ n := by
      rintro rfl
      exact other rfl
    simp [Sync.enlist, different]
  | _ => rfl

theorem conclude_away (t : Tid) (code : Status) (other : caller.queue ≠ .mutex m) :
    (σ.conclude t code caller).phase = σ.phase ∧ (σ.conclude t code caller).queue = σ.queue ∧
      (σ.conclude t code caller).count m = σ.count m ∧
      (σ.conclude t code caller).holder m = σ.holder m := by
  cases caller with
  | mutexAcquire n | mutexAcquireTimeout n =>
    have different : m ≠ n := by
      rintro rfl
      exact other rfl
    simp only [Sync.conclude]
    split <;> simp [different]
  | _ => exact ⟨rfl, rfl, rfl, rfl⟩

theorem conclude_cases (t : Tid) (acquires : caller.queue = .mutex m)
    (regular : Regular m (.released timeout caller code)) :
    (code = noError ∧ σ.conclude t code caller = σ.setHolder m (some t)) ∨
      (code = errTimedOut ∧ σ.conclude t code caller = σ.addCount m (-1)) := by
  rcases acquires_cases acquires with rfl | rfl
  · have success := regular.1 rfl
    exact Or.inl ⟨success, by simp [Sync.conclude, success, noError]⟩
  · rcases regular.2 rfl with success | rfl
    · exact Or.inl ⟨success, by simp [Sync.conclude, success, noError, errTimedOut]⟩
    · exact Or.inr ⟨rfl, by simp [Sync.conclude]⟩

theorem apart_signal {e : EventId} {os : List Observation} (coherent : Coherent σ)
    (signal : Signal σ e os σ') :
    Apart (.mutex m) σ σ' ∧ σ'.count = σ.count ∧ σ'.holder = σ.holder := by
  cases signal with
  | ignored => exact ⟨Apart.refl _ _, rfl, rfl⟩
  | stored => exact ⟨⟨rfl, fun _ => Or.inl rfl⟩, rfl, rfl⟩
  | one clear auto first =>
    refine ⟨coherent.apart_drop ?_ nofun, rfl, rfl⟩
    rw [first]
    exact List.mem_cons_self
  | all =>
    have apart : Apart (.mutex m) σ (σ.dropAll (.event e) noError) := coherent.apart_dropAll nofun
    exact ⟨⟨apart.queue, apart.phase⟩, rfl, rfl⟩

variable {may : Intent → Prop} {os : List Observation}

theorem mutexStep_other {n : Nat} (different : m ≠ n) (phase : σ'.phase = σ.phase)
    (queue : σ'.queue = σ.queue) (count : ∀ k, k ≠ n → σ'.count k = σ.count k)
    (holder : ∀ k, k ≠ n → σ'.holder k = σ.holder k) : MutexStep mayJoin m σ σ' :=
  .apart ⟨congrFun queue _, fun t => Or.inl (congrFun phase t)⟩ (count m different)
    (holder m different)

theorem mutexStep_wait (intent : may (.join caller)) (idle : σ.phase t = .idle)
    (must : σ.mustWait timeout caller) :
    MutexStep (∃ c : Waiter, c.queue = .mutex m ∧ may (.join c)) m σ
      ((σ.enlist caller).join t timeout caller) := by
  obtain ⟨phase, queue, holder, -⟩ := σ.enlist_same caller
  by_cases acquires : caller.queue = .mutex m
  · have waits : ((σ.enlist caller).join t timeout caller).phase =
        update σ.phase t (.waiting timeout caller) := by simp [Sync.join, phase]
    refine .join ⟨caller, acquires, intent⟩ idle acquires ?_ ?_ waits
      (by simp [Sync.join, queue, acquires]) ?_ (congrFun holder m)
    · rcases acquires_cases acquires with rfl | rfl <;> exact must.2
    · rintro rfl
      exact must.1
    · rcases acquires_cases acquires with rfl | rfl <;> simp [Sync.join, Sync.enlist]
  · have joined : Apart (.mutex m) (σ.enlist caller) ((σ.enlist caller).join t timeout caller) :=
      apart_join ((congrFun phase t).trans idle) acquires
    refine .apart ⟨joined.queue.trans (congrFun queue _), ?_⟩ (enlist_count acquires)
      (congrFun holder m)
    simpa [phase] using joined.phase

theorem mutexStep_finish (released : σ.phase t = .released timeout caller code) :
    MutexStep mayJoin m σ ((σ.leave t).conclude t code caller) := by
  by_cases acquires : caller.queue = .mutex m
  · exact .finish released acquires rfl
  · obtain ⟨phase, queue, count, holder⟩ := conclude_away (σ := σ.leave t) t code acquires
    have left : Apart (.mutex m) σ (σ.leave t) := apart_leave released acquires
    refine .apart ⟨(congrFun queue _).trans left.queue, ?_⟩ count holder
    simpa [phase] using left.phase

theorem mutexStep_timeout {w : WaitQueueId} (coherent : Coherent σ) (armed : σ.armed t)
    (waits : t ∈ σ.queue w) : MutexStep mayJoin m σ ((σ.drop w t errTimedOut).disarm t) := by
  by_cases here : w = .mutex m
  · subst here
    obtain ⟨timeout, caller, waiting, acquires⟩ := (coherent.mem_queue t _).mp waits
    obtain ⟨timeout', caller', finite, phase⟩ := coherent.armed t armed
    have same : timeout' = timeout := by
      rcases phase with phase | ⟨code, phase⟩ <;> rw [waiting] at phase <;> cases phase
      rfl
    refine .timeOut waiting acquires (same ▸ finite) ?_ ?_ rfl rfl
    · simp [Sync.disarm, waiting, Phase.release]
    · simp [Sync.disarm]
  · have apart : Apart (.mutex m) σ (σ.drop w t errTimedOut) := coherent.apart_drop waits here
    exact .apart ⟨apart.queue, apart.phase⟩ rfl rfl

theorem mutexStep_handOver {u : Tid} {n : Nat} {rest : List Tid} (coherent : Coherent σ)
    (holds : σ.holder n = some t) (first : σ.queue (.mutex n) = u :: rest) :
    MutexStep mayJoin m σ ((σ.unlock n).drop (.mutex n) u noError) := by
  have member : u ∈ σ.queue (.mutex n) := by
    rw [first]
    exact List.mem_cons_self
  obtain rfl | here := eq_or_ne m n
  · obtain ⟨timeout, caller, waiting, acquires⟩ := (coherent.mem_queue u _).mp member
    refine .handOver holds waiting acquires ?_ first ?_ ?_
    · simp [waiting, Phase.release]
    · simp
      omega
    · simp
  · have apart : Apart (.mutex m) σ (σ.drop (.mutex n) u noError) :=
      coherent.apart_drop member fun same => here (WaitQueueId.mutex.inj same).symm
    refine .apart ⟨apart.queue, apart.phase⟩ ?_ ?_ <;> simp [here]

/-- Every action of the system, seen from one mutex that stays in use. -/
theorem mutexStep_of_action (coherent : Coherent σ) (kept : ¬ may (.destroyMutex m))
    (left : ¬ may (.unblock (.mutex m))) (action : Action may σ os σ') :
    MutexStep (∃ c : Waiter, c.queue = .mutex m ∧ may (.join c)) m σ σ' := by
  cases action with
  | wait intent idle positive must => exact mutexStep_wait intent idle must
  | refuse | pass => exact .apart (Apart.refl _ _) rfl rfl
  | finish released => exact mutexStep_finish released
  | @wakeOne n t rest code first =>
    refine .apart (coherent.apart_drop ?_ fun same => by cases same) rfl rfl
    rw [first]
    exact List.mem_cons_self
  | wakeAll => exact .apart (coherent.apart_dropAll fun same => by cases same) rfl rfl
  | @unblock t w code intent waits =>
    have elsewhere : w ≠ .mutex m := fun same => left (same ▸ intent)
    exact .apart (coherent.apart_drop waits elsewhere) rfl rfl
  | timeout armed waits => exact mutexStep_timeout coherent armed waits
  | expire | consume | unsignal | dpcStart => exact .apart ⟨rfl, fun _ => Or.inl rfl⟩ rfl rfl
  | @acquire t n free other =>
    obtain rfl | here := eq_or_ne m n
    · exact .take (t := t) free rfl rfl (by simp)
        (by simp)
    · refine mutexStep_other here rfl rfl ?_ ?_ <;> intro k different <;> simp [different]
  | @release t n holds nobody =>
    obtain rfl | here := eq_or_ne m n
    · refine .release holds nobody rfl rfl ?_ (by simp)
      simp
      omega
    · refine mutexStep_other here rfl rfl ?_ ?_ <;> intro k different <;> simp [different]
  | handOver holds first => exact mutexStep_handOver coherent holds first
  | @destroyMutex n intent =>
    have here : m ≠ n := by
      rintro rfl
      exact kept intent
    have apart : Apart (.mutex m) σ (σ.dropAll (.mutex n) errObjectDestroyed) :=
      coherent.apart_dropAll fun same => here (WaitQueueId.mutex.inj same).symm
    exact .apart ⟨apart.queue, apart.phase⟩ (by simp [Sync.dropAll, here]) rfl
  | signal signal =>
    obtain ⟨apart, count, holder⟩ := apart_signal (m := m) coherent signal
    exact .apart apart (congrFun count m) (congrFun holder m)
  | @destroyEvent n =>
    have apart : Apart (.mutex m) σ (σ.dropAll (.event (.user n)) errObjectDestroyed) :=
      coherent.apart_dropAll fun same => by cases same
    exact .apart ⟨apart.queue, apart.phase⟩ rfl rfl
  | dpcQueue alive signal =>
    obtain ⟨apart, count, holder⟩ := apart_signal (m := m) coherent signal
    exact .apart ⟨apart.queue, apart.phase⟩ (congrFun count m) (congrFun holder m)

def inside (m : Nat) (σ : Sync) : Set Tid := {t | (σ.phase t).At (.mutex m)}

/-- Who owns the mutex and what its count counts. -/
structure Accounted (m : Nat) (σ : Sync) : Prop where
  finite : (inside m σ).Finite
  counted : σ.count m = (if (σ.holder m).isSome then 1 else 0) + ((inside m σ).ncard : Int)
  regular : ∀ t, Regular m (σ.phase t)
  /-- A handed mutex has no holder yet. -/
  handed_free : ∀ t, Handed m (σ.phase t) → σ.holder m = none
  handed_unique : ∀ t u, Handed m (σ.phase t) → Handed m (σ.phase u) → t = u

theorem Handed.inside (handed : Handed m (σ.phase t)) : t ∈ inside m σ := by
  show (σ.phase t).At (.mutex m)
  cases phase : σ.phase t with
  | idle | waiting => exact absurd handed (by simp [phase, Handed])
  | released timeout caller code =>
    rw [phase] at handed
    exact handed.1

variable {phase : Phase}

theorem not_handed_of_not_at (away : ¬ phase.At (.mutex m)) : ¬ Handed m phase := by
  cases phase with
  | idle | waiting => exact id
  | released => exact fun handed => away handed.1

theorem regular_of_not_at (away : ¬ phase.At (.mutex m)) : Regular m phase := by
  cases phase with
  | idle => trivial
  | waiting =>
    rintro rfl
    exact absurd rfl away
  | released =>
    constructor <;> rintro rfl <;> exact absurd rfl away

theorem inside_in (here : phase.At (.mutex m))
    (update : σ'.phase = update σ.phase t phase) :
    inside m σ' = insert t (inside m σ) := by
  ext u
  obtain rfl | same := eq_or_ne u t
  · simp [inside, update, here]
  · simp [inside, update, same]

theorem inside_out (away : ¬ phase.At (.mutex m))
    (update : σ'.phase = update σ.phase t phase) : inside m σ' = inside m σ \ {t} := by
  ext u
  obtain rfl | same := eq_or_ne u t
  · simp [inside, update, away]
  · simp [inside, update, same]

theorem inside_drop (waiting : σ.phase t = .waiting timeout caller)
    (acquires : caller.queue = .mutex m)
    (phase : σ'.phase = update σ.phase t (.released timeout caller code)) :
    inside m σ' = inside m σ := by
  rw [inside_in (show (Phase.released timeout caller code).At _ from acquires) phase]
  refine Set.insert_eq_of_mem ?_
  simpa [inside, waiting, Phase.At] using acquires

theorem inside_apart (apart : Apart (.mutex m) σ σ') : inside m σ' = inside m σ := by
  ext u
  rcases apart.phase u with same | ⟨before, after⟩
  · simp [inside, same]
  · simp [inside, before, after]

theorem handed_apart (apart : Apart (.mutex m) σ σ') (handed : Handed m (σ'.phase t)) :
    Handed m (σ.phase t) := by
  rcases apart.phase t with same | ⟨-, after⟩
  · rwa [← same]
  · exact absurd handed (not_handed_of_not_at after)

theorem handed_update {u : Tid} (not : ¬ Handed m phase)
    (update : σ'.phase = update σ.phase t phase) (handed : Handed m (σ'.phase u)) :
    u ≠ t ∧ Handed m (σ.phase u) := by
  obtain rfl | same := eq_or_ne u t
  · exact absurd (by simpa [update] using handed) not
  · exact ⟨same, by simpa [update, same] using handed⟩

theorem regular_update (regular : ∀ u, Regular m (σ.phase u))
    (update : σ'.phase = update σ.phase t phase) (new : Regular m phase) :
    ∀ u, Regular m (σ'.phase u) := by
  intro u
  obtain rfl | same := eq_or_ne u t
  · simpa [update] using new
  · simpa [update, same] using regular u

namespace Accounted

section Accounted

variable (accounted : Accounted m σ)
include accounted

theorem not_handed (holds : σ.holder m = some t) (u : Tid) : ¬ Handed m (σ.phase u) := by
  intro handed
  rw [accounted.handed_free u handed] at holds
  cases holds

theorem empty_of_free (free : ¬ 1 < σ.count m + 1) : σ.holder m = none ∧ inside m σ = ∅ := by
  have counted := accounted.counted
  by_cases held : (σ.holder m).isSome
  · rw [if_pos held] at counted
    omega
  · refine ⟨by simpa using held, ?_⟩
    rw [← Set.ncard_eq_zero accounted.finite]
    omega

theorem apart (apart : Apart (.mutex m) σ σ')
    (count : σ'.count m = σ.count m) (holder : σ'.holder m = σ.holder m) :
    Accounted m σ' where
  finite := inside_apart apart ▸ accounted.finite
  counted := by rw [count, holder, inside_apart apart, accounted.counted]
  regular := by
    intro t
    rcases apart.phase t with same | ⟨-, after⟩
    · exact same ▸ accounted.regular t
    · exact regular_of_not_at after
  handed_free := fun t handed =>
    holder.trans (accounted.handed_free t (handed_apart apart handed))
  handed_unique := fun t u first second =>
    accounted.handed_unique t u (handed_apart apart first) (handed_apart apart second)

theorem join (idle : σ.phase t = .idle)
    (acquires : caller.queue = .mutex m) (regular : Regular m (.waiting timeout caller))
    (phase : σ'.phase = update σ.phase t (.waiting timeout caller))
    (count : σ'.count m = σ.count m + 1) (holder : σ'.holder m = σ.holder m) : Accounted m σ' := by
  have inner := inside_in (m := m) (show (Phase.waiting timeout caller).At _ from acquires) phase
  have outside : t ∉ inside m σ := by simp [inside, idle, Phase.At]
  have old {u : Tid} (handed : Handed m (σ'.phase u)) : Handed m (σ.phase u) :=
    (handed_update id phase handed).2
  refine ⟨inner ▸ accounted.finite.insert t, ?_, regular_update accounted.regular phase regular,
    fun u handed => holder.trans (accounted.handed_free u (old handed)),
    fun u v first second => accounted.handed_unique u v (old first) (old second)⟩
  rw [inner, Set.ncard_insert_of_notMem outside accounted.finite, count, holder, accounted.counted]
  omega

theorem timeOut (waiting : σ.phase t = .waiting timeout caller)
    (acquires : caller.queue = .mutex m) (finite : timeout ≠ infiniteTime)
    (phase : σ'.phase = update σ.phase t (.released timeout caller errTimedOut))
    (count : σ'.count m = σ.count m) (holder : σ'.holder m = σ.holder m) : Accounted m σ' := by
  have inner := inside_drop waiting acquires phase
  have code : Regular m (.released timeout caller errTimedOut) := by
    refine ⟨fun forever => ?_, fun _ => Or.inr rfl⟩
    have regular := accounted.regular t
    rw [waiting] at regular
    exact absurd (regular forever) finite
  have old {u : Tid} (handed : Handed m (σ'.phase u)) : Handed m (σ.phase u) :=
    (handed_update (by simp [Handed, noError, errTimedOut]) phase handed).2
  refine ⟨inner ▸ accounted.finite, ?_, regular_update accounted.regular phase code,
    fun u handed => holder.trans (accounted.handed_free u (old handed)),
    fun u v first second => accounted.handed_unique u v (old first) (old second)⟩
  rw [inner, count, holder, accounted.counted]

theorem take (free : ¬ 1 < σ.count m + 1) (phase : σ'.phase = σ.phase)
    (count : σ'.count m = σ.count m + 1) (holder : σ'.holder m = some t) : Accounted m σ' := by
  obtain ⟨unheld, empty⟩ := accounted.empty_of_free free
  have inner : inside m σ' = ∅ := by
    rw [← empty]
    simp [inside, phase]
  have nobody (u : Tid) (handed : Handed m (σ'.phase u)) : False := by
    have member := handed.inside
    rw [inner] at member
    exact member
  refine ⟨inner ▸ Set.finite_empty, ?_, phase ▸ accounted.regular,
    fun u handed => (nobody u handed).elim, fun u v handed => (nobody u handed).elim⟩
  have counted := accounted.counted
  rw [unheld, empty] at counted
  rw [inner, count, holder, counted]
  simp

theorem release (holds : σ.holder m = some t)
    (phase : σ'.phase = σ.phase) (count : σ'.count m = σ.count m - 1)
    (holder : σ'.holder m = none) : Accounted m σ' := by
  have inner : inside m σ' = inside m σ := by simp [inside, phase]
  refine ⟨inner ▸ accounted.finite, ?_, phase ▸ accounted.regular, fun _ _ => holder,
    phase ▸ accounted.handed_unique⟩
  rw [inner, count, holder, accounted.counted, holds]
  simp

theorem handOver {u : Tid} (holds : σ.holder m = some t)
    (waiting : σ.phase u = .waiting timeout caller) (acquires : caller.queue = .mutex m)
    (phase : σ'.phase = update σ.phase u (.released timeout caller noError))
    (count : σ'.count m = σ.count m - 1) (holder : σ'.holder m = none) : Accounted m σ' := by
  have inner := inside_drop waiting acquires phase
  have only (v : Tid) (handed : Handed m (σ'.phase v)) : v = u := by
    by_contra other
    rw [phase, update_of_ne other] at handed
    exact accounted.not_handed holds v handed
  refine ⟨inner ▸ accounted.finite, ?_,
    regular_update accounted.regular phase ⟨fun _ => rfl, fun _ => Or.inl rfl⟩,
    fun _ _ => holder, fun v w first second => (only v first).trans (only w second).symm⟩
  rw [inner, count, holder, accounted.counted, holds]
  simp

theorem own (handed : Handed m (σ.phase t)) : Accounted m ((σ.leave t).setHolder m (some t)) := by
  have phase : ((σ.leave t).setHolder m (some t)).phase = update σ.phase t .idle := rfl
  have inner := inside_out (m := m) (show ¬ Phase.idle.At _ from id) phase
  have nobody (u : Tid) (other : Handed m (update σ.phase t .idle u)) : False := by
    obtain ⟨different, before⟩ := handed_update (show ¬ Handed m .idle from id) phase other
    exact different (accounted.handed_unique u t before handed)
  refine ⟨inner ▸ accounted.finite.sdiff, ?_, regular_update accounted.regular phase trivial,
    fun u other => (nobody u other).elim, fun u v other => (nobody u other).elim⟩
  have member := handed.inside
  have counted := accounted.counted
  rw [accounted.handed_free t handed] at counted
  have card := Set.ncard_sdiff_singleton_add_one member accounted.finite
  rw [inner]
  simp only [Sync.setHolder, Sync.leave, update_self, Option.isSome_some, if_true]
  simp only [Option.isSome_none, Bool.false_eq_true, if_false] at counted
  omega

theorem backOut (released : σ.phase t = .released timeout caller errTimedOut)
    (acquires : caller.queue = .mutex m) : Accounted m ((σ.leave t).addCount m (-1)) := by
  have phase : ((σ.leave t).addCount m (-1)).phase = update σ.phase t .idle := rfl
  have inner := inside_out (m := m) (show ¬ Phase.idle.At _ from id) phase
  have old {u : Tid} (handed : Handed m (update σ.phase t .idle u)) :
      Handed m (σ.phase u) := (handed_update (show ¬ Handed m .idle from id) phase handed).2
  refine ⟨inner ▸ accounted.finite.sdiff, ?_, regular_update accounted.regular phase trivial,
    fun u handed => accounted.handed_free u (old handed),
    fun u v first second => accounted.handed_unique u v (old first) (old second)⟩
  have member : t ∈ inside m σ := by simpa [inside, released, Phase.At] using acquires
  have card := Set.ncard_sdiff_singleton_add_one member accounted.finite
  have counted := accounted.counted
  rw [inner]
  simp only [Sync.addCount, Sync.leave, update_self, counted]
  omega

theorem finish (released : σ.phase t = .released timeout caller code)
    (acquires : caller.queue = .mutex m) : Accounted m ((σ.leave t).conclude t code caller) := by
  rcases conclude_cases (σ := σ.leave t) t acquires (released ▸ accounted.regular t) with
    ⟨success, result⟩ | ⟨rfl, result⟩
  · have handed : Handed m (σ.phase t) := released ▸ ⟨acquires, success⟩
    exact result ▸ accounted.own handed
  · exact result ▸ accounted.backOut released acquires

theorem step (step : MutexStep mayJoin m σ σ') : Accounted m σ' := by
  cases step with
  | apart apart count holder => exact accounted.apart apart count holder
  | join intent idle acquires busy regular phase queue count holder =>
    exact accounted.join idle acquires regular phase count holder
  | timeOut waiting acquires finite phase queue count holder =>
    exact accounted.timeOut waiting acquires finite phase count holder
  | take free phase queue count holder => exact accounted.take free phase count holder
  | release holds nobody phase queue count holder =>
    exact accounted.release holds phase count holder
  | handOver holds waiting acquires phase queue count holder =>
    exact accounted.handOver holds waiting acquires phase count holder
  | finish released acquires result => exact result ▸ accounted.finish released acquires

end Accounted

end Accounted

theorem Accounted.holder_step (accounted : Accounted m σ) (step : MutexStep mayJoin m σ σ')
    (holds : σ.holder m = some t) : σ'.holder m = some t ∨ σ'.holder m = none := by
  cases step with
  | apart apart count holder => exact Or.inl (holder.trans holds)
  | join intent idle acquires busy regular phase queue count holder =>
    exact Or.inl (holder.trans holds)
  | timeOut waiting acquires finite phase queue count holder => exact Or.inl (holder.trans holds)
  | take free =>
    rw [(accounted.empty_of_free free).1] at holds
    cases holds
  | release holds nobody phase queue count holder => exact Or.inr holder
  | handOver holds waiting acquires phase queue count holder => exact Or.inr holder
  | @finish u timeout caller code released acquires result =>
    rcases conclude_cases (σ := σ.leave u) u acquires (released ▸ accounted.regular u) with
      ⟨success, -⟩ | ⟨rfl, concluded⟩
    · exact absurd (released ▸ ⟨acquires, success⟩) (accounted.not_handed holds u)
    · exact Or.inl (by rw [result, concluded]; exact holds)

def Owned (m : Nat) (σ : Sync) : Prop :=
  σ.queue (.mutex m) ≠ [] → σ.holder m ≠ none ∨ ∃ t, Handed m (σ.phase t)

/-- The mutex is not free with a timed-out acquire still inside. -/
def Settled (m : Nat) (σ : Sync) : Prop :=
  σ.holder m ≠ none ∨ (∃ t, Handed m (σ.phase t)) ∨
    ∀ t timeout caller, σ.phase t = .released timeout caller errTimedOut →
      caller.queue ≠ .mutex m

theorem Settled.owned (settled : Settled m σ) (coherent : Coherent σ)
    (accounted : Accounted m σ) (owned : Owned m σ) (busy : 1 < σ.count m + 1) :
    σ.holder m ≠ none ∨ ∃ t, Handed m (σ.phase t) := by
  rcases settled with held | handed | resumed
  · exact Or.inl held
  · exact Or.inr handed
  · by_cases empty : σ.queue (.mutex m) = []
    · by_contra nobody
      obtain ⟨free, unhanded⟩ := not_or.mp nobody
      rw [not_not] at free
      have outside : inside m σ = ∅ := by
        refine Set.eq_empty_of_forall_notMem fun t member => ?_
        have here : (σ.phase t).At (.mutex m) := member
        have regular := accounted.regular t
        cases phase : σ.phase t with
        | idle => simp [phase, Phase.At] at here
        | waiting timeout caller =>
          rw [phase] at here
          have queued := (coherent.mem_queue t _).mpr ⟨timeout, caller, phase, here⟩
          simp [empty] at queued
        | released timeout caller code =>
          rw [phase] at here regular
          rcases regular.codes here with success | rfl
          · exact unhanded ⟨t, by rw [phase]; exact ⟨here, success⟩⟩
          · exact resumed t _ _ phase here
      have counted := accounted.counted
      simp [free, outside] at counted
      omega
    · exact owned empty

theorem Owned.step (owned : Owned m σ) (coherent : Coherent σ) (accounted : Accounted m σ)
    (settled : mayJoin → Settled m σ) (step : MutexStep mayJoin m σ σ') : Owned m σ' := by
  have kept {t : Tid} {phase : Phase} (plain : ¬ Handed m (σ.phase t))
      (update : σ'.phase = update σ.phase t phase)
      (holder : σ'.holder m = σ.holder m)
      (before : σ.holder m ≠ none ∨ ∃ u, Handed m (σ.phase u)) :
      σ'.holder m ≠ none ∨ ∃ u, Handed m (σ'.phase u) := by
    rcases before with held | ⟨u, handed⟩
    · exact Or.inl (holder ▸ held)
    · have different : u ≠ t := by
        rintro rfl
        exact plain handed
      exact Or.inr ⟨u, by rw [update, update_of_ne different]; exact handed⟩
  cases step with
  | apart apart count holder =>
    intro filled
    rw [apart.queue] at filled
    rcases owned filled with held | ⟨t, handed⟩
    · exact Or.inl (holder ▸ held)
    · refine Or.inr ⟨t, ?_⟩
      rcases apart.phase t with same | ⟨before, -⟩
      · rwa [same]
      · exact absurd handed (not_handed_of_not_at before)
  | join intent idle acquires busy regular phase queue count holder =>
    exact fun _ => kept (by simp [idle, Handed]) phase holder
      ((settled intent).owned coherent accounted owned busy)
  | timeOut waiting acquires finite phase queue count holder =>
    intro filled
    refine kept (by simp [waiting, Handed]) phase holder (owned fun empty => filled ?_)
    simp [queue, empty]
  | take free phase queue count holder => exact fun _ => Or.inl (by simp [holder])
  | release holds nobody phase queue count holder =>
    intro filled
    rw [queue] at filled
    rcases nobody with low | empty
    · obtain ⟨t, member⟩ := List.exists_mem_of_ne_nil _ filled
      obtain ⟨timeout, caller, waiting, acquires⟩ := (coherent.mem_queue t _).mp member
      have inner : t ∈ inside m σ := by simpa [inside, waiting, Phase.At] using acquires
      have positive := (Set.ncard_pos accounted.finite).mpr ⟨t, inner⟩
      have counted := accounted.counted
      simp [holds] at counted
      omega
    · exact absurd empty filled
  | @handOver t u timeout caller rest holds waiting acquires phase queue count holder =>
    refine fun _ => Or.inr ⟨u, ?_⟩
    rw [phase, update_self]
    exact ⟨acquires, rfl⟩
  | @finish t timeout caller code released acquires result =>
    subst result
    rcases conclude_cases (σ := σ.leave t) t acquires (released ▸ accounted.regular t) with
      ⟨-, result⟩ | ⟨rfl, result⟩ <;> rw [result] at kept ⊢
    · exact fun _ => Or.inl (by simp)
    · intro filled
      exact kept (by simp [released, Handed, errTimedOut, noError]) rfl rfl (owned filled)

end AndroidBoot.LittleKernel.MutexProtocol
