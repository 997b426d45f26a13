/- source: bootable/lk/kernel/thread.c
   digest: Histories of wait queues: every wait is ended once, in order, with the code it returns. -/

import AndroidBoot.LittleKernel.SyncModel

set_option autoImplicit false

namespace AndroidBoot.LittleKernel.WaitHistory

open Function State SyncModel

/-- Where a thread stands in its waits. -/
inductive Stage where
  | outside
  | queued (w : WaitQueueId) (timeout : Time)
  | removed (w : WaitQueueId) (timeout : Time) (cause : Cause) (code : Status)

/-- The observation is about a wait of the thread. -/
def Concerns (t : Tid) : Observation → Prop
  | .blocked u _ _ => u = t
  | .removed u _ _ _ => u = t
  | .returned u _ _ _ => u = t
  | _ => False

def Quiet (t : Tid) (os : List Observation) : Prop := ∀ o ∈ os, ¬ Concerns t o

def lineUp (w : WaitQueueId) (line : List Tid) : Observation → List Tid
  | .blocked t w' _ => if w' = w then line ++ [t] else line
  | .removed t w' _ _ => if w' = w then line.erase t else line
  | _ => line

/-- The threads that wait in `w` after the history, longest waiting first. -/
def waitingIn (w : WaitQueueId) (os : List Observation) : List Tid := os.foldl (lineUp w) []

/-- Waking takes the longest waiting thread; a timer ends a wait with a finite
timeout and the code for it. -/
def Permitted (line : List Tid) (t : Tid) (timeout : Time) (code : Status) : Cause → Prop
  | .wakeOne => line.head? = some t
  | .wakeAll => line.head? = some t
  | .timer => code = errTimedOut ∧ timeout ≠ infiniteTime
  | .unblock => True

/-- Histories in which every wait takes its course, with the stages they lead to. -/
inductive Lived : List Observation → (Tid → Stage) → Prop where
  | start : Lived [] fun _ => .outside
  | block {os : List Observation} {stage : Tid → Stage} {t : Tid} {w : WaitQueueId}
      {timeout : Time} (lived : Lived os stage) (outside : stage t = .outside)
      (positive : timeout ≠ 0) :
      Lived (os ++ [.blocked t w timeout]) (update stage t (.queued w timeout))
  | remove {os : List Observation} {stage : Tid → Stage} {t : Tid} {w : WaitQueueId}
      {timeout : Time} {cause : Cause} {code : Status} (lived : Lived os stage)
      (queued : stage t = .queued w timeout)
      (permitted : Permitted (waitingIn w os) t timeout code cause) :
      Lived (os ++ [.removed t w cause code])
        (update stage t (.removed w timeout cause code))
  | leave {os : List Observation} {stage : Tid → Stage} {t : Tid} {w : WaitQueueId}
      {timeout : Time} {cause : Cause} {code : Status} (lived : Lived os stage)
      (removed : stage t = .removed w timeout cause code) :
      Lived (os ++ [.returned t w timeout code]) (update stage t .outside)
  | refuse {os : List Observation} {stage : Tid → Stage} {t : Tid} {w : WaitQueueId}
      (lived : Lived os stage) (outside : stage t = .outside) :
      Lived (os ++ [.returned t w 0 errTimedOut]) stage
  | other {os : List Observation} {stage : Tid → Stage} {o : Observation}
      (lived : Lived os stage) (silent : ∀ t, ¬ Concerns t o) : Lived (os ++ [o]) stage

def Told (t : Tid) (os : List Observation) : Stage → Prop
  | .outside => True
  | .queued w timeout => timeout ≠ 0 ∧
      ∃ a b, os = a ++ .blocked t w timeout :: b ∧ Quiet t b
  | .removed w timeout cause code => timeout ≠ 0 ∧
      (cause = .timer → code = errTimedOut ∧ timeout ≠ infiniteTime) ∧
      ∃ a b c, os = a ++ .blocked t w timeout :: (b ++ .removed t w cause code :: c) ∧
        Quiet t b ∧ Quiet t c

/-- What a history says about every removal and every return in it. -/
structure Answered (os : List Observation) : Prop where
  removed : ∀ {before after t w cause code}, os = before ++ .removed t w cause code :: after →
    ∃ a b timeout, before = a ++ .blocked t w timeout :: b ∧ Quiet t b
  longest : ∀ {before after t w code}, os = before ++ .removed t w .wakeOne code :: after →
    (waitingIn w before).head? = some t
  returned : ∀ {before after t w timeout code},
    os = before ++ .returned t w timeout code :: after →
    (timeout = 0 ∧ code = errTimedOut) ∨
      (timeout ≠ 0 ∧ ∃ a b c cause,
        before = a ++ .blocked t w timeout :: (b ++ .removed t w cause code :: c) ∧
        Quiet t b ∧ Quiet t c ∧
        (cause = .timer → code = errTimedOut ∧ timeout ≠ infiniteTime))

section Prefixes

variable {os : List Observation} {o x : Observation} {t : Tid} {w : WaitQueueId}

theorem waitingIn_snoc : waitingIn w (os ++ [o]) = lineUp w (waitingIn w os) o := by
  simp [waitingIn, List.foldl_append]

theorem Quiet.snoc (quiet : Quiet t os) (silent : ¬ Concerns t o) : Quiet t (os ++ [o]) := by
  intro p member
  rcases List.mem_append.mp member with old | new
  · exact quiet p old
  · rwa [List.mem_singleton.mp new]

theorem Told.snoc {stage : Stage} (told : Told t os stage) (silent : ¬ Concerns t o) :
    Told t (os ++ [o]) stage := by
  cases stage with
  | outside => trivial
  | queued w timeout =>
    obtain ⟨positive, a, b, rfl, quiet⟩ := told
    exact ⟨positive, a, b ++ [o], by simp, quiet.snoc silent⟩
  | removed w timeout cause code =>
    obtain ⟨positive, timer, a, b, c, rfl, before, after⟩ := told
    exact ⟨positive, timer, a, b, c ++ [o], by simp, before, after.snoc silent⟩

theorem snoc_eq_append_cons {before after : List Observation}
    (split : os ++ [o] = before ++ x :: after) :
    (os = before ∧ o = x) ∨ ∃ rest, os = before ++ x :: rest := by
  rcases List.eq_nil_or_concat after with rfl | ⟨rest, last, rfl⟩
  · obtain ⟨same, single⟩ := List.append_inj' split rfl
    exact Or.inl ⟨same, List.singleton_inj.mp single⟩
  · refine Or.inr ⟨rest, ?_⟩
    have shifted : os ++ [o] = (before ++ x :: rest) ++ [last] := by simpa using split
    exact (List.append_inj' shifted rfl).1

theorem Answered.snoc (answered : Answered os)
    (removed : ∀ {t w cause code}, o = .removed t w cause code →
      ∃ a b timeout, os = a ++ .blocked t w timeout :: b ∧ Quiet t b)
    (longest : ∀ {t w code}, o = .removed t w .wakeOne code → (waitingIn w os).head? = some t)
    (returned : ∀ {t w timeout code}, o = .returned t w timeout code →
      (timeout = 0 ∧ code = errTimedOut) ∨
        (timeout ≠ 0 ∧ ∃ a b c cause,
          os = a ++ .blocked t w timeout :: (b ++ .removed t w cause code :: c) ∧
          Quiet t b ∧ Quiet t c ∧
          (cause = .timer → code = errTimedOut ∧ timeout ≠ infiniteTime))) :
    Answered (os ++ [o]) where
  removed := by
    intro before after t w cause code split
    rcases snoc_eq_append_cons split with ⟨rfl, last⟩ | ⟨rest, earlier⟩
    · exact removed last
    · exact answered.removed earlier
  longest := by
    intro before after t w code split
    rcases snoc_eq_append_cons split with ⟨rfl, last⟩ | ⟨rest, earlier⟩
    · exact longest last
    · exact answered.longest earlier
  returned := by
    intro before after t w timeout code split
    rcases snoc_eq_append_cons split with ⟨rfl, last⟩ | ⟨rest, earlier⟩
    · exact returned last
    · exact answered.returned earlier

end Prefixes

namespace Lived

variable {os : List Observation} {stage : Tid → Stage}

theorem told (lived : Lived os stage) (t : Tid) : Told t os (stage t) := by
  induction lived with
  | start => trivial
  | @block os stage u w timeout lived outside positive ih =>
    obtain rfl | same := eq_or_ne t u
    · rw [update_self]
      exact ⟨positive, os, [], rfl, by simp [Quiet]⟩
    · rw [update_of_ne same]
      exact ih.snoc fun here => same here.symm
  | @remove os stage u w timeout cause code lived queued permitted ih =>
    obtain rfl | same := eq_or_ne t u
    · rw [queued] at ih
      obtain ⟨positive, a, b, rfl, quiet⟩ := ih
      rw [update_self]
      refine ⟨positive, ?_, a, b, [], by simp, quiet, by simp [Quiet]⟩
      rintro rfl
      exact permitted
    · rw [update_of_ne same]
      exact ih.snoc fun here => same here.symm
  | @leave os stage u w timeout cause code lived removed ih =>
    obtain rfl | same := eq_or_ne t u
    · rw [update_self]
      trivial
    · rw [update_of_ne same]
      exact ih.snoc fun here => same here.symm
  | @refuse os stage u w lived outside ih =>
    obtain rfl | same := eq_or_ne t u
    · rw [outside]
      trivial
    · exact ih.snoc fun here => same here.symm
  | other lived silent ih => exact ih.snoc (silent t)

theorem answered (lived : Lived os stage) : Answered os := by
  induction lived with
  | start => constructor <;> intro before <;> simp
  | block lived outside positive ih => exact ih.snoc nofun nofun nofun
  | @remove os stage t w timeout cause code lived queued permitted ih =>
    refine ih.snoc ?_ ?_ nofun
    · rintro _ _ _ _ ⟨⟩
      have joined := lived.told t
      rw [queued] at joined
      obtain ⟨-, a, b, split, quiet⟩ := joined
      exact ⟨a, b, timeout, split, quiet⟩
    · rintro _ _ _ ⟨⟩
      exact permitted
  | @leave os stage t w timeout cause code lived removed ih =>
    refine ih.snoc nofun nofun ?_
    rintro _ _ _ _ ⟨⟩
    have ended := lived.told t
    rw [removed] at ended
    obtain ⟨positive, timer, a, b, c, split, before, after⟩ := ended
    exact Or.inr ⟨positive, a, b, c, cause, split, before, after, timer⟩
  | refuse lived outside ih =>
    refine ih.snoc nofun nofun ?_
    rintro _ _ _ _ ⟨⟩
    exact Or.inl ⟨rfl, rfl⟩
  | other lived silent ih =>
    refine ih.snoc ?_ ?_ ?_
    · rintro t _ _ _ rfl
      exact absurd rfl (silent t)
    · rintro t _ _ rfl
      exact absurd rfl (silent t)
    · rintro t _ _ _ rfl
      exact absurd rfl (silent t)

theorem removeAll {line : List Tid} {w : WaitQueueId} (code : Status) (distinct : line.Nodup)
    (lived : Lived os stage) (queue : waitingIn w os = line)
    (queued : ∀ t ∈ line, ∃ timeout, stage t = .queued w timeout) :
    ∃ stage', Lived (os ++ line.map fun t => .removed t w .wakeAll code) stage' ∧
      waitingIn w (os ++ line.map fun t => .removed t w .wakeAll code) = [] ∧
      (∀ w', w' ≠ w →
        waitingIn w' (os ++ line.map fun t => .removed t w .wakeAll code) = waitingIn w' os) ∧
      (∀ t timeout, t ∈ line → stage t = .queued w timeout →
        stage' t = .removed w timeout .wakeAll code) ∧
      ∀ t, t ∉ line → stage' t = stage t := by
  induction line generalizing os stage with
  | nil => exact ⟨stage, by simpa using lived, by simpa using queue, by simp, by simp, by simp⟩
  | cons t rest ih =>
    obtain ⟨fresh, distinct⟩ := List.nodup_cons.mp distinct
    obtain ⟨timeout, here⟩ := queued t List.mem_cons_self
    have first : Permitted (waitingIn w os) t timeout code .wakeAll := by
      simp [Permitted, queue]
    have removed := lived.remove here first
    have shorter : waitingIn w (os ++ [.removed t w .wakeAll code]) = rest := by
      simp [waitingIn_snoc, lineUp, queue]
    have still : ∀ u ∈ rest, ∃ timeout', update stage t
        (.removed w timeout .wakeAll code) u = .queued w timeout' := by
      intro u member
      have other : u ≠ t := by
        rintro rfl
        exact fresh member
      rw [update_of_ne other]
      exact queued u (List.mem_cons_of_mem t member)
    obtain ⟨stage', lived', empty, others, gone, kept⟩ := ih distinct removed shorter still
    rw [List.append_assoc, List.singleton_append] at lived' empty others
    refine ⟨stage', lived', empty, fun w' other => ?_, fun u timeout' member before => ?_,
      fun u out => ?_⟩
    · rw [List.map_cons, others w' other, waitingIn_snoc, lineUp, if_neg other.symm]
    · obtain rfl | same := eq_or_ne u t
      · rw [here] at before
        cases before
        rw [kept u fresh, update_self]
      · have later : u ∈ rest := (List.mem_cons.mp member).resolve_left same
        exact gone u timeout' later (by rw [update_of_ne same]; exact before)
    · have other : u ≠ t := fun same => out (same ▸ List.mem_cons_self)
      rw [kept u fun member => out (List.mem_cons_of_mem t member), update_of_ne other]

end Lived

def Tells : Stage → Phase → Prop
  | .outside, .idle => True
  | .queued w timeout, .waiting timeout' caller => timeout' = timeout ∧ caller.queue = w
  | .removed w timeout _ code, .released timeout' caller code' =>
    timeout' = timeout ∧ caller.queue = w ∧ code' = code
  | _, _ => False

def Recorded (os : List Observation) (phase : Tid → Phase)
    (queue : WaitQueueId → List Tid) : Prop :=
  ∃ stage, Lived os stage ∧ (∀ w, waitingIn w os = queue w) ∧ ∀ t, Tells (stage t) (phase t)

theorem Tells.outside {stage : Stage} (tells : Tells stage .idle) : stage = .outside := by
  cases stage <;> simp_all [Tells]

theorem Tells.queued {stage : Stage} {timeout : Time} {caller : Waiter}
    (tells : Tells stage (.waiting timeout caller)) : stage = .queued caller.queue timeout := by
  cases stage <;> simp_all [Tells]

theorem Tells.removed {stage : Stage} {timeout : Time} {caller : Waiter} {code : Status}
    (tells : Tells stage (.released timeout caller code)) :
    ∃ cause, stage = .removed caller.queue timeout cause code := by
  cases stage <;> simp_all [Tells]

theorem tells_update {stage : Tid → Stage} {phase : Tid → Phase} {t : Tid} {new : Stage}
    {here : Phase} (tells : ∀ u, Tells (stage u) (phase u)) (told : Tells new here) (u : Tid) :
    Tells (update stage t new u) (update phase t here u) := by
  obtain rfl | same := eq_or_ne u t
  · rwa [update_self, update_self]
  · rw [update_of_ne same, update_of_ne same]
    exact tells u

theorem waitingIn_update {os : List Observation} {o : Observation}
    {queue : WaitQueueId → List Tid} {q : WaitQueueId} {after : List Tid}
    (line : ∀ w, waitingIn w os = queue w) (here : lineUp q (queue q) o = after)
    (other : ∀ w, w ≠ q → lineUp w (queue w) o = queue w) (w : WaitQueueId) :
    waitingIn w (os ++ [o]) = update queue q after w := by
  rw [waitingIn_snoc, line]
  by_cases same : w = q
  · rw [same, update_self]
    exact here
  · rw [update_of_ne same]
    exact other w same

namespace Recorded

variable {os : List Observation} {phase : Tid → Phase} {queue : WaitQueueId → List Tid}
  {t : Tid} {timeout : Time} {caller : Waiter} {code : Status}

theorem block (caller : Waiter) (recorded : Recorded os phase queue) (idle : phase t = .idle)
    (positive : timeout ≠ 0) :
    Recorded (os ++ [.blocked t caller.queue timeout])
      (update phase t (.waiting timeout caller))
      (update queue caller.queue (queue caller.queue ++ [t])) := by
  obtain ⟨stage, lived, line, tells⟩ := recorded
  refine ⟨_, lived.block (Tells.outside (idle ▸ tells t)) positive, ?_,
    tells_update tells ⟨rfl, rfl⟩⟩
  exact waitingIn_update line (if_pos rfl) fun w differ => if_neg (Ne.symm differ)

section Recorded

variable (recorded : Recorded os phase queue)
include recorded

theorem remove {cause : Cause} (waiting : phase t = .waiting timeout caller)
    (permitted : Permitted (queue caller.queue) t timeout code cause) :
    Recorded (os ++ [.removed t caller.queue cause code])
      (update phase t (.released timeout caller code))
      (update queue caller.queue ((queue caller.queue).erase t)) := by
  obtain ⟨stage, lived, line, tells⟩ := recorded
  have removed := lived.remove (Tells.queued (waiting ▸ tells t))
    ((line caller.queue).symm ▸ permitted)
  refine ⟨_, removed, ?_, tells_update tells ⟨rfl, rfl, rfl⟩⟩
  exact waitingIn_update line (if_pos rfl) fun w differ => if_neg (Ne.symm differ)

theorem leave (released : phase t = .released timeout caller code) :
    Recorded (os ++ [.returned t caller.queue timeout code]) (update phase t .idle) queue := by
  obtain ⟨stage, lived, line, tells⟩ := recorded
  obtain ⟨cause, removed⟩ := Tells.removed (released ▸ tells t)
  exact ⟨_, lived.leave removed, fun w => waitingIn_snoc.trans (line w), tells_update tells trivial⟩

theorem refuse {w : WaitQueueId} (idle : phase t = .idle) :
    Recorded (os ++ [.returned t w 0 errTimedOut]) phase queue := by
  obtain ⟨stage, lived, line, tells⟩ := recorded
  exact ⟨stage, lived.refuse (Tells.outside (idle ▸ tells t)),
    fun w => waitingIn_snoc.trans (line w), tells⟩

theorem other {o : Observation}
    (silent : ∀ t, ¬ Concerns t o) : Recorded (os ++ [o]) phase queue := by
  obtain ⟨stage, lived, line, tells⟩ := recorded
  refine ⟨stage, lived.other silent, fun w => ?_, tells⟩
  rw [waitingIn_snoc, ← line]
  cases o with
  | blocked u w' timeout => exact absurd rfl (silent u)
  | removed u w' cause code => exact absurd rfl (silent u)
  | _ => rfl

theorem dropAll {w : WaitQueueId} (waiting : ∀ t ∈ queue w, ∃ timeout caller,
      phase t = .waiting timeout caller ∧ caller.queue = w) (distinct : (queue w).Nodup) :
    Recorded (os ++ (queue w).map fun t => .removed t w .wakeAll code)
      (fun t => if t ∈ queue w then (phase t).release code else phase t)
      (update queue w []) := by
  obtain ⟨stage, lived, line, tells⟩ := recorded
  have queued (t : Tid) (member : t ∈ queue w) : ∃ timeout, stage t = .queued w timeout := by
    obtain ⟨timeout, caller, here, rfl⟩ := waiting t member
    exact ⟨timeout, Tells.queued (here ▸ tells t)⟩
  obtain ⟨stage', lived', empty, others, gone, kept⟩ :=
    lived.removeAll code distinct (line w) queued
  refine ⟨stage', lived', fun w' => ?_, fun t => ?_⟩
  · obtain rfl | here := eq_or_ne w' w
    · rw [empty, update_self]
    · rw [others w' here, update_of_ne here, line]
  · dsimp only
    by_cases member : t ∈ queue w
    · obtain ⟨timeout, caller, here, rfl⟩ := waiting t member
      rw [if_pos member, here, gone t timeout member (Tells.queued (here ▸ tells t))]
      exact ⟨rfl, rfl, rfl⟩
    · rw [if_neg member, kept t member]
      exact tells t

end Recorded

end Recorded

section Actions

variable {σ σ' : Sync} {os : List Observation}

def Chronicled (σ : Sync) (os : List Observation) : Prop := Recorded os σ.phase σ.queue

section Chronicled

variable (chronicled : Chronicled σ os)
include chronicled

theorem Chronicled.drop {t : Tid} {w : WaitQueueId} {cause : Cause} {code : Status}
    (coherent : Coherent σ) (member : t ∈ σ.queue w)
    (permitted : ∀ timeout caller, σ.phase t = .waiting timeout caller →
      Permitted (σ.queue w) t timeout code cause) :
    Chronicled (σ.drop w t code) (os ++ [.removed t w cause code]) := by
  obtain ⟨timeout, caller, waiting, rfl⟩ := (coherent.mem_queue t w).mp member
  have removed := Recorded.remove chronicled waiting (permitted timeout caller waiting)
  simpa [Chronicled, Sync.drop, waiting, Phase.release] using removed

theorem Chronicled.dropAll {w : WaitQueueId} {code : Status} (coherent : Coherent σ) :
    Chronicled (σ.dropAll w code) (os ++ σ.removals w code) :=
  Recorded.dropAll chronicled (fun t => (coherent.mem_queue t w).mp) (coherent.queue_nodup w)

theorem Chronicled.note {o : Observation}
    (silent : ∀ t, ¬ Concerns t o) : Chronicled σ (os ++ [o]) :=
  Recorded.other chronicled silent

theorem Chronicled.signal {e : EventId} {os' : List Observation}
    (coherent : Coherent σ) (signal : Signal σ e os' σ') : Chronicled σ' (os ++ os') := by
  have noted : Chronicled σ (os ++ [.signal e false]) := chronicled.note fun _ => id
  cases signal with
  | ignored => exact chronicled.note fun _ => id
  | stored =>
    rw [List.append_cons]
    exact noted.note fun _ => id
  | @one t rest clear auto first =>
    rw [List.append_cons]
    exact noted.drop coherent (first ▸ List.mem_cons_self) fun _ _ _ => by simp [Permitted, first]
  | all =>
    rw [List.append_cons]
    exact noted.dropAll coherent

theorem Chronicled.step {may : Intent → Prop} {os' : List Observation} (coherent : Coherent σ)
    (action : Action may σ os' σ') : Chronicled σ' (os ++ os') := by
  cases action with
  | @wait t timeout caller intent idle positive must =>
    obtain ⟨phase, queue, -⟩ := σ.enlist_same caller
    have blocked := Recorded.block caller chronicled idle positive
    simpa [Chronicled, Sync.join, phase, queue] using blocked
  | refuse idle => exact Recorded.refuse chronicled idle
  | @finish t timeout caller code released =>
    obtain ⟨phase, queue, -⟩ := (σ.leave t).conclude_same t code caller
    have left := Recorded.leave chronicled released
    rwa [Chronicled, phase, queue]
  | @wakeOne n t rest code first =>
    exact chronicled.drop coherent (first ▸ List.mem_cons_self)
      fun _ _ _ => by simp [Permitted, first]
  | wakeAll => exact chronicled.dropAll coherent
  | unblock intent member => exact chronicled.drop coherent member fun _ _ _ => trivial
  | @timeout t w armed member =>
    refine chronicled.drop coherent member fun timeout caller waiting => ⟨rfl, ?_⟩
    obtain ⟨timeout', caller', finite, phase⟩ := coherent.armed t armed
    rcases phase with phase | ⟨code, phase⟩ <;> rw [waiting] at phase <;> cases phase
    exact finite
  | expire | acquire | release => rw [List.append_nil]; exact chronicled
  | @handOver t u m rest holds first counted =>
    have given : Chronicled (σ.drop (.mutex m) u noError)
        (os ++ [.removed u (.mutex m) .wakeOne noError]) :=
      chronicled.drop coherent (first ▸ List.mem_cons_self) fun _ _ _ => by simp [Permitted, first]
    exact given
  | @destroyMutex m intent =>
    have dropped : Chronicled (σ.dropAll (.mutex m) errObjectDestroyed)
        (os ++ σ.removals (.mutex m) errObjectDestroyed) := chronicled.dropAll coherent
    exact dropped
  | pass | consume | unsignal | dpcStart => exact chronicled.note fun _ => id
  | signal signal => exact chronicled.signal coherent signal
  | @destroyEvent n intent =>
    have dropped : Chronicled (σ.dropAll (.event (.user n)) errObjectDestroyed)
        (os ++ σ.removals (.event (.user n)) errObjectDestroyed) := chronicled.dropAll coherent
    exact dropped
  | @dpcQueue d os' σ' alive signal =>
    have noted : Chronicled σ (os ++ [.queued d]) := chronicled.note fun _ => id
    rw [List.append_cons]
    have signalled := noted.signal coherent signal
    exact signalled

end Chronicled

end Actions

end AndroidBoot.LittleKernel.WaitHistory
