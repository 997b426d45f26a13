/- source: bootable/lk/kernel/event.c
   digest: What becomes of the signals of one event, counted over its history. -/

import AndroidBoot.LittleKernel.WaitHistory
import Mathlib.Data.Finset.Card

set_option autoImplicit false

namespace AndroidBoot.LittleKernel.EventProtocol

open State SyncModel WaitHistory

variable {e : EventId} {σ σ' : Sync} {os os' : List Observation} {may : Intent → Prop}

attribute [local simp] Sync.setSignalled Sync.drop Sync.dropAll

def Cleared (σ : Sync) : Prop := ∀ e, σ.signalled e = true → σ.queue (.event e) = []

theorem Cleared.of_shrinks (cleared : Cleared σ) (signalled : σ'.signalled = σ.signalled)
    (shrinks : ∀ e, σ.queue (.event e) = [] → σ'.queue (.event e) = []) : Cleared σ' := by
  intro e set
  exact shrinks e (cleared e (signalled ▸ set))

theorem drop_shrinks (w : WaitQueueId) (t : Tid) (code : Status) (e : EventId)
    (empty : σ.queue (.event e) = []) : (σ.drop w t code).queue (.event e) = [] := by
  by_cases here : WaitQueueId.event e = w
  · subst here
    simp [empty]
  · simp [here, empty]

theorem dropAll_shrinks (w : WaitQueueId) (code : Status) (e : EventId)
    (empty : σ.queue (.event e) = []) : (σ.dropAll w code).queue (.event e) = [] := by
  by_cases here : WaitQueueId.event e = w
  · subst here
    simp
  · simp [here, empty]

theorem Cleared.signal (cleared : Cleared σ) (signal : Signal σ e os σ') : Cleared σ' := by
  cases signal with
  | ignored => exact cleared
  | stored clear auto empty =>
    intro e' set
    obtain rfl | here := eq_or_ne e' e
    · exact empty
    · exact cleared e' (by simpa [here] using set)
  | one => exact cleared.of_shrinks rfl (drop_shrinks _ _ _)
  | all =>
    intro e' set
    obtain rfl | here := eq_or_ne e' e
    · simp
    · have before : σ.signalled e' = true := by
        simpa [here] using set
      simp [here, cleared e' before]

theorem Cleared.unset (cleared : Cleared σ) (e : EventId) : Cleared (σ.setSignalled e false) := by
  intro e' set
  obtain rfl | here := eq_or_ne e' e
  · simp at set
  · exact cleared e' (by simpa [here] using set)

theorem Cleared.step (cleared : Cleared σ) (action : Action may σ os σ') : Cleared σ' := by
  cases action with
  | @wait t timeout caller intent idle positive must =>
    obtain ⟨-, queue, -, signalled, -⟩ := σ.enlist_same caller
    intro e set
    have before : σ.signalled e = true := (congrFun signalled e).symm.trans set
    have other : caller.queue ≠ .event e := by
      intro here
      cases caller with
      | eventWaitTimeout e' =>
        obtain rfl := WaitQueueId.event.inj here
        have clear : σ.signalled e' = false := must
        rw [before] at clear
        cases clear
      | _ => cases here
    simp [Sync.join, other.symm, queue, cleared e before]
  | @finish t timeout caller code released =>
    obtain ⟨-, queue, signalled, -⟩ := (σ.leave t).conclude_same t code caller
    exact cleared.of_shrinks signalled fun e empty => (congrFun queue _).trans empty
  | refuse | expire | acquire | release | pass | dpcStart => exact cleared
  | wakeOne | unblock => exact cleared.of_shrinks rfl (drop_shrinks _ _ _)
  | wakeAll => exact cleared.of_shrinks rfl (dropAll_shrinks _ _)
  | timeout => exact cleared.of_shrinks rfl (drop_shrinks _ _ errTimedOut)
  | handOver => exact cleared.of_shrinks rfl (drop_shrinks _ _ noError)
  | destroyMutex => exact cleared.of_shrinks rfl (dropAll_shrinks _ errObjectDestroyed)
  | consume | unsignal => exact cleared.unset _
  | signal signal => exact cleared.signal signal
  | destroyEvent =>
    exact (cleared.unset _).of_shrinks rfl (dropAll_shrinks _ errObjectDestroyed)
  | dpcQueue alive signal =>
    have signalled := cleared.signal signal
    exact signalled

def releases (e : EventId) : Observation → Bool
  | .removed _ w _ code => w = .event e ∧ code = noError
  | _ => false

def succeeds (e : EventId) : Observation → Bool
  | .returned _ w _ code => w = .event e ∧ code = noError
  | _ => false

/-- The observation is about the signals of the event. -/
def About (e : EventId) : Observation → Prop
  | .signal e' _ => e' = e
  | .stored e' => e' = e
  | .unsignal e' _ => e' = e
  | .passed e' => e' = e
  | .consumed e' => e' = e
  | .removed _ w _ code => w = .event e ∧ code = noError
  | _ => False

attribute [local simp] releases succeeds About

/-- Every signal that finds the event clear is stored or releases one waiter. -/
def Followed (e : EventId) (os : List Observation) : Prop :=
  ∀ before after, os = before ++ .signal e false :: after →
    ∃ next rest, after = next :: rest ∧
      (next = .stored e ∨ ∃ t, next = .removed t (.event e) .wakeOne noError)

/-- What became of the signals of an autounsignal event that started as `start` and
is now `signalled`. -/
structure Tally (e : EventId) (start signalled : Bool) (os : List Observation) : Prop where
  effective : os.count (.signal e false) = os.countP (releases e) + os.count (.stored e)
  kept : os.count (.consumed e) + os.count (.unsignal e true) + signalled.toNat =
    start.toNat + os.count (.stored e)
  unpassed : os.count (.passed e) = 0
  followed : Followed e os

/-- What one action can do to the signals of an autounsignal event. -/
inductive EventStep (e : EventId) (before after : Bool) (os : List Observation) : Prop where
  | quiet (silent : ∀ o ∈ os, ¬ About e o) (same : after = before)
  | ignored (signal : os = [.signal e true]) (same : after = before)
  | stored (signal : os = [.signal e false, .stored e]) (clear : before = false)
      (set : after = true)
  | released {t : Tid}
      (signal : os = [.signal e false, .removed t (.event e) .wakeOne noError])
      (same : after = before)
  | consumed (wait : os = [.consumed e]) (found : before = true) (clear : after = false)
  | unsignalled (unsignal : os = [.unsignal e before]) (clear : after = false)

theorem Followed.append (first : Followed e os) (second : Followed e os') :
    Followed e (os ++ os') := by
  intro before after split
  rcases List.append_eq_append_iff.mp split with ⟨shift, rfl, later⟩ | ⟨shift, earlier, later⟩
  · exact second shift after later
  · cases shift with
    | nil => exact second [] after (by simpa using later.symm)
    | cons o shift =>
      obtain ⟨rfl, rfl⟩ := List.cons.inj later
      obtain ⟨next, rest, rfl, what⟩ := first before shift earlier
      exact ⟨next, rest ++ os', rfl, what⟩

theorem followed_of_silent (silent : Observation.signal e false ∉ os) : Followed e os := by
  rintro before after rfl
  simp at silent

theorem followed_pair {next : Observation}
    (what : next = .stored e ∨ ∃ t, next = .removed t (.event e) .wakeOne noError) :
    Followed e [.signal e false, next] := by
  intro before after split
  rcases before with _ | ⟨o, _ | ⟨p, before⟩⟩
  · obtain ⟨-, rfl⟩ := List.cons.inj split
    exact ⟨next, [], rfl, what⟩
  · obtain ⟨-, rest⟩ := List.cons.inj split
    obtain ⟨rfl, -⟩ := List.cons.inj rest
    rcases what with same | ⟨t, same⟩ <;> cases same
  · simp at split

theorem Tally.step {start before after : Bool} (tally : Tally e start before os)
    (step : EventStep e before after os') : Tally e start after (os ++ os') := by
  obtain ⟨effective, kept, unpassed, followed⟩ := tally
  cases step with
  | quiet silent same =>
    have none {o : Observation} (about : About e o) : os'.count o = 0 :=
      List.count_eq_zero_of_not_mem fun member => silent o member about
    have nobody : os'.countP (releases e) = 0 := by
      refine List.countP_eq_zero.mpr fun o member => ?_
      cases o with
      | removed t w cause code => simpa using silent _ member
      | _ => simp
    have quiet := followed_of_silent (e := e) fun member => silent _ member rfl
    constructor
    · simp only [List.count_append, List.countP_append, none (show About e (.signal e false) from rfl),
        none (show About e (.stored e) from rfl), nobody]
      omega
    · simp only [List.count_append, none (show About e (.consumed e) from rfl),
        none (show About e (.unsignal e true) from rfl), none (show About e (.stored e) from rfl),
        same]
      omega
    · simp [none (show About e (.passed e) from rfl), unpassed]
    · exact followed.append quiet
  | ignored signal same =>
    subst signal
    refine ⟨by simpa using effective, by simpa [same] using kept,
      by simpa using unpassed, followed.append (followed_of_silent (by simp))⟩
  | stored signal clear set =>
    subst signal
    refine ⟨?_, ?_, by simpa using unpassed, followed.append (followed_pair (Or.inl rfl))⟩
    · simp [effective]
      omega
    · simp [clear] at kept
      simp [set]
      omega
  | @released t signal same =>
    subst signal
    refine ⟨?_, by simpa [same] using kept, by simpa using unpassed,
      followed.append (followed_pair (Or.inr ⟨t, rfl⟩))⟩
    simp [effective]
    omega
  | consumed wait found clear =>
    subst wait
    refine ⟨by simpa using effective, ?_, by simpa using unpassed,
      followed.append (followed_of_silent (by simp))⟩
    simp [found] at kept
    simp [clear]
    omega
  | unsignalled unsignal clear =>
    subst unsignal
    refine ⟨by simpa using effective, ?_, by simpa using unpassed,
      followed.append (followed_of_silent (by simp))⟩
    cases before <;> simp at kept <;> simp [clear] <;> omega

theorem silent_removals {w : WaitQueueId} {code : Status} (other : w ≠ .event e) :
    ∀ o ∈ σ.removals w code, ¬ About e o := by
  intro o member
  obtain ⟨t, -, rfl⟩ := List.mem_map.mp member
  exact fun about => other about.1

theorem silent_signal {e' : EventId} (signal : Signal σ e' os σ') (other : e' ≠ e) :
    (∀ o ∈ os, ¬ About e o) ∧ σ'.signalled e = σ.signalled e ∧ σ'.auto = σ.auto := by
  have elsewhere : WaitQueueId.event e' ≠ .event e := fun same =>
    other (WaitQueueId.event.inj same)
  cases signal with
  | ignored => exact ⟨by simpa using other, rfl, rfl⟩
  | stored => exact ⟨by simpa using other, by simp [Ne.symm other], rfl⟩
  | one => exact ⟨by simp [other], rfl, rfl⟩
  | all =>
    refine ⟨?_, by simp [Ne.symm other], rfl⟩
    intro o member
    rcases List.mem_cons.mp member with rfl | member
    · exact other
    · exact silent_removals elsewhere o member

theorem eventStep_signal (auto : σ.auto e = true) (signal : Signal σ e os σ') :
    EventStep e (σ.signalled e) (σ'.signalled e) os ∧ σ'.auto e = true := by
  cases signal with
  | ignored signalled => exact ⟨.ignored rfl rfl, auto⟩
  | stored clear => exact ⟨.stored rfl clear (by simp), auto⟩
  | one => exact ⟨.released rfl rfl, auto⟩
  | all clear manual =>
    rw [auto] at manual
    cases manual

theorem eventStep_of_action {n : Nat} (auto : σ.auto (.user n) = true)
    (kept : ¬ may (.destroyEvent (.user n))) (left : ¬ may (.unblock (.event (.user n))))
    (action : Action may σ os σ') :
    EventStep (.user n) (σ.signalled (.user n)) (σ'.signalled (.user n)) os ∧
      σ'.auto (.user n) = true := by
  cases action with
  | @wait t timeout caller =>
    obtain ⟨-, -, -, signalled, autos, -⟩ := σ.enlist_same caller
    exact ⟨.quiet (by simp) (congrFun signalled _), (congrFun autos _).trans auto⟩
  | refuse | wakeOne | handOver | dpcStart => exact ⟨.quiet (by simp) rfl, auto⟩
  | @finish t timeout caller code =>
    obtain ⟨-, -, signalled, autos, -⟩ := (σ.leave t).conclude_same t code caller
    exact ⟨.quiet (by simp) (congrFun signalled _), (congrFun autos _).trans auto⟩
  | wakeAll | destroyMutex => exact ⟨.quiet (silent_removals fun same => by cases same) rfl, auto⟩
  | @unblock t w code intent =>
    have other : w ≠ .event (.user n) := by
      rintro rfl
      exact left intent
    exact ⟨.quiet (by simp [other]) rfl, auto⟩
  | timeout => exact ⟨.quiet (by simp [noError, errTimedOut]) rfl, auto⟩
  | expire | acquire | release => exact ⟨.quiet (by simp) rfl, auto⟩
  | @pass e signalled manual =>
    have other : e ≠ .user n := by
      rintro rfl
      simp [auto] at manual
    exact ⟨.quiet (by simpa using other) rfl, auto⟩
  | @consume e signalled _ =>
    by_cases here : e = .user n
    · subst here
      exact ⟨.consumed rfl signalled (by simp), auto⟩
    · exact ⟨.quiet (by simpa using here)
        (by simp [Ne.symm here]), auto⟩
  | @signal n' os σ' signal =>
    obtain rfl | here := eq_or_ne n' n
    · exact eventStep_signal auto signal
    · obtain ⟨silent, signalled, autos⟩ := silent_signal signal
        (show EventId.user n' ≠ .user n from fun same => here (EventId.user.inj same))
      exact ⟨.quiet silent signalled, (congrFun autos _).trans auto⟩
  | @unsignal e drained =>
    by_cases here : e = .user n
    · subst here
      exact ⟨.unsignalled rfl (by simp), auto⟩
    · exact ⟨.quiet (by simpa using here)
        (by simp [Ne.symm here]), auto⟩
  | @destroyEvent n' intent =>
    have other : n ≠ n' := by
      rintro rfl
      exact kept intent
    refine ⟨.quiet (silent_removals ?_) (by simp [other]), by simp [other, auto]⟩
    simpa using other.symm
  | dpcQueue alive signal =>
    obtain ⟨silent, signalled, autos⟩ := silent_signal signal
      (show EventId.dpc ≠ .user n from fun same => by cases same)
    refine ⟨.quiet ?_ signalled, (congrFun autos _).trans auto⟩
    intro o member
    rcases List.mem_cons.mp member with rfl | member
    · exact id
    · exact silent o member

def Pending (e : EventId) : Stage → Prop
  | .removed w _ _ code => w = .event e ∧ code = noError
  | _ => False

attribute [local simp] Pending

theorem pending_update {stage : Tid → Stage} {pending pending' : Finset Tid} {t : Tid}
    {new : Stage} (members : ∀ u, u ∈ pending ↔ Pending e (stage u))
    (here : t ∈ pending' ↔ Pending e new) (others : ∀ u, u ≠ t → (u ∈ pending' ↔ u ∈ pending)) :
    ∀ u, u ∈ pending' ↔ Pending e (Function.update stage t new u) := by
  intro u
  obtain rfl | same := eq_or_ne u t
  · rw [Function.update_self, here]
  · rw [Function.update_of_ne same, others u same, members]

theorem succeeds_le_releases {stage : Tid → Stage} (lived : Lived os stage) :
    ∃ pending : Finset Tid, (∀ t, t ∈ pending ↔ Pending e (stage t)) ∧
      os.countP (succeeds e) + pending.card = os.countP (releases e) := by
  induction lived with
  | start => exact ⟨∅, by simp, rfl⟩
  | @block os stage t w timeout lived outside positive ih =>
    obtain ⟨pending, members, counted⟩ := ih
    have away : t ∉ pending := by simp [members, outside]
    exact ⟨pending, pending_update members (by simp [away]) fun _ _ => Iff.rfl,
      by simpa using counted⟩
  | @remove os stage t w timeout cause code lived queued permitted ih =>
    obtain ⟨pending, members, counted⟩ := ih
    have away : t ∉ pending := by simp [members, queued]
    by_cases here : w = .event e ∧ code = noError
    · refine ⟨insert t pending, pending_update members (by simp [here])
        fun u other => by simp [other], ?_⟩
      rw [Finset.card_insert_of_notMem away]
      simp [here]
      omega
    · refine ⟨pending, pending_update members (by simp [away, here]) fun _ _ => Iff.rfl, ?_⟩
      simp [here]
      omega
  | @leave os stage t w timeout cause code lived removed ih =>
    obtain ⟨pending, members, counted⟩ := ih
    by_cases here : w = .event e ∧ code = noError
    · have inside : t ∈ pending := by simp [members, removed, here]
      refine ⟨pending.erase t, pending_update members (by simp) fun u other => by simp [other], ?_⟩
      have card := Finset.card_erase_add_one inside
      simp [here]
      omega
    · have away : t ∉ pending := by simp [members, removed, here]
      refine ⟨pending, pending_update members (by simp [away]) fun _ _ => Iff.rfl, ?_⟩
      simp [here]
      omega
  | refuse lived outside ih =>
    obtain ⟨pending, members, counted⟩ := ih
    exact ⟨pending, members, by simpa [noError, errTimedOut] using counted⟩
  | @other os stage o lived silent ih =>
    obtain ⟨pending, members, counted⟩ := ih
    refine ⟨pending, members, ?_⟩
    cases o with
    | removed t w cause code => exact absurd rfl (silent t)
    | returned t w timeout code => exact absurd rfl (silent t)
    | _ => simpa using counted

end AndroidBoot.LittleKernel.EventProtocol
