/- source: bootable/lk/app/aboot/fastboot.c, platform/msm_shared/hsusb.c, kernel/event.c
   digest: Every bulk request is completed at most once, and its own completion ends the wait. -/

import AndroidBoot.Aboot.UsbTransfer
import AndroidBoot.Foundation.Run

/-!
The transfers are an exchange: a queued request is an offer to its endpoint, an interrupt answers
the endpoints it looks at. Requests on endpoint 0 stay apart from it.
-/

set_option autoImplicit false

namespace AndroidBoot.Aboot.UsbCompletions

open Function Foundation.Handoff
open Foundation.Run (Reach exists_run_of_replay)
open UsbTransfer

variable {e : Endpoint} {id : Nat}

section Frame

def owner : Endpoint → Request
  | .bulkOut => .fastboot
  | .bulkIn => .fastboot
  | .ep0in => .control
  | .ep0out => .control

/-- What is pending on endpoint 0 does not call `req_complete`. -/
def Separate (s : Usb) : Prop :=
  ∀ e r id, owner e = .control → s.pending e = some (r, id) →
    r = .control ∧ (s.request .control).complete ≠ some .reqComplete

/-- Nothing that belongs to the bulk endpoints changes; a thread that waits to be online may go
on. -/
structure Frame (s t : Usb) : Prop where
  pending : ∀ e, owner e = .fastboot → t.pending e = s.pending e
  request : t.request .fastboot = s.request .fastboot
  txnDone : t.txnDone = s.txnDone
  queued : t.queued = s.queued
  signaller : t.signaller = s.signaller
  log : t.log = s.log
  thread : t.thread = s.thread ∨ s.thread = .offline ∧ t.thread = .idle
  separate : Separate s → Separate t

variable {s t u : Usb}

theorem Frame.refl (s : Usb) : Frame s s :=
  ⟨fun _ _ => rfl, rfl, rfl, rfl, rfl, rfl, .inl rfl, id⟩

theorem Frame.trans (first : Frame s t) (second : Frame t u) : Frame s u where
  pending e bulk := (second.pending e bulk).trans (first.pending e bulk)
  request := second.request.trans first.request
  txnDone := second.txnDone.trans first.txnDone
  queued := second.queued.trans first.queued
  signaller := second.signaller.trans first.signaller
  log := second.log.trans first.log
  thread := by
    rcases first.thread with same | ⟨offline, idle⟩
    · rw [← same]
      exact second.thread
    · rcases second.thread with same | ⟨impossible, -⟩
      · exact .inr ⟨offline, same.trans idle⟩
      · rw [idle] at impossible
        cases impossible
  separate := second.separate ∘ first.separate

theorem frame_queue (s : Usb) (control : owner e = .control) (f : UsbRequest → UsbRequest)
    (other : (f (s.request .control)).complete ≠ some .reqComplete) :
    Frame s (udcRequestQueue (s.setRequest .control f) e .control) where
  pending e' bulk := by
    have different : e' ≠ e := fun same => by simp [same, control] at bulk
    simp [udcRequestQueue, prime, queueItem, Usb.setRequest, different]
  request := by simp [udcRequestQueue, prime, queueItem, Usb.setRequest]
  txnDone := rfl
  queued := rfl
  signaller := rfl
  log := rfl
  thread := .inl rfl
  separate separate e' r id onControl queued := by
    refine ⟨?_, by simpa [udcRequestQueue, prime, queueItem, Usb.setRequest] using other⟩
    by_cases same : e' = e
    · have new : (Request.control, 0) = (r, id) := by
        simpa [udcRequestQueue, prime, same] using queued
      exact (Prod.mk.inj new).1.symm
    · have before : s.pending e' = some (r, id) := by
        simpa [udcRequestQueue, prime, queueItem, Usb.setRequest, same] using queued
      exact (separate e' r id onControl before).1

theorem frame_setupAck (s : Usb) : Frame s (setupAck s) :=
  frame_queue s rfl _ (by simp)

theorem frame_setupTx (s : Usb) (len : Nat) : Frame s (setupTx s len) :=
  frame_queue s rfl _ (by simp)

theorem frame_notifyOnline (s : Usb) : Frame s (notifyOnline s) := by
  unfold notifyOnline
  dsimp only
  split
  · refine ⟨fun _ _ => rfl, rfl, rfl, rfl, rfl, rfl, ?_, fun separate => separate⟩
    split
    · next offline => exact .inr ⟨offline, rfl⟩
    · exact .inl rfl
  · exact ⟨fun _ _ => rfl, rfl, rfl, rfl, rfl, rfl, .inl rfl, fun separate => separate⟩

theorem frame_flags (s : Usb) (online highspeed : Bool) (configValue testMode : Nat) :
    Frame s { s with
      online := online, highspeed := highspeed, configValue := configValue, testMode := testMode } :=
  ⟨fun _ _ => rfl, rfl, rfl, rfl, rfl, rfl, .inl rfl, fun separate => separate⟩

theorem frame_ite {c : Prop} [Decidable c] (yes : Frame s t) (no : Frame s u) :
    Frame s (if c then t else u) := by
  split
  · exact yes
  · exact no

theorem frame_handleSetup (s : Usb) (p : SetupPacket) : Frame s (handleSetup s p) := by
  have configured : Frame s (if p.value = 1 then notifyOnline { s with configValue := 1 }
      else { s with configValue := 0 }) :=
    frame_ite ((frame_flags s s.online s.highspeed 1 s.testMode).trans (frame_notifyOnline _))
      (frame_flags s s.online s.highspeed 0 s.testMode)
  have acknowledged := configured.trans (frame_setupAck _)
  have tested := (frame_flags s s.online s.highspeed s.configValue p.index).trans (frame_setupAck _)
  refine frame_ite (frame_ite (frame_setupTx s 2) (Frame.refl s)) ?_
  refine frame_ite ?_ ?_
  · cases s.descList.find? (·.1 = p.value) with
    | none => exact Frame.refl s
    | some entry => exact frame_setupTx s (min entry.2 p.length)
  refine frame_ite (frame_ite (frame_setupTx s 1) (Frame.refl s)) ?_
  refine frame_ite (acknowledged.trans (frame_flags _ _ _ _ _)) ?_
  refine frame_ite (frame_setupAck s) ?_
  refine frame_ite (Frame.refl s) ?_
  refine frame_ite tested ?_
  refine frame_ite (frame_ite (frame_setupAck s) (Frame.refl s)) ?_
  exact Frame.refl s

end Frame

section Exchange

/-- `txn_done` in each phase. -/
def eventOf : Phase Endpoint → Event
  | .rest => ⟨false, 0⟩
  | .onOffer _ => ⟨false, 0⟩
  | .parked _ => ⟨false, 1⟩
  | .answered => ⟨true, 0⟩

/-- Where the thread is in each phase. -/
def At : Thread → Phase Endpoint → Prop
  | .busy call .wait, phase => phase = .onOffer call.endpoint ∨ phase = .answered
  | .busy call .blocked, phase => phase = .parked call.endpoint
  | _, phase => phase = .rest

theorem At.of_onOffer {thread : Thread} (at_ : At thread (.onOffer e)) :
    ∃ call, thread = .busy call .wait ∧ call.endpoint = e := by
  cases thread with
  | idle | offline => cases at_
  | busy call point =>
    cases point
    case wait =>
      rcases at_ with open_ | impossible
      · exact ⟨call, rfl, (Phase.onOffer.inj open_).symm⟩
      · cases impossible
    all_goals cases at_

theorem At.of_parked {thread : Thread} (at_ : At thread (.parked e)) :
    ∃ call, thread = .busy call .blocked ∧ call.endpoint = e := by
  cases thread with
  | idle | offline => cases at_
  | busy call point =>
    cases point
    case wait => rcases at_ with impossible | impossible <;> cases impossible
    case blocked => exact ⟨call, rfl, (Phase.parked.inj at_).symm⟩
    all_goals cases at_

/-- The statements behind the assignment to `req->complete`, up to the critical section. -/
def Ready : Thread → Prop
  | .busy _ .item => True
  | .busy _ .prime => True
  | _ => False

structure Tied (s : Usb) (h : Exchange Endpoint) : Prop where
  separate : Separate s
  offer : ∀ e, h.phase.offer = some e → owner e = .fastboot
  pending : ∀ e, owner e = .fastboot →
    s.pending e = if h.phase.offer = some e then some (.fastboot, h.last) else none
  complete : Ready s.thread ∨ h.phase.offer ≠ none →
    (s.request .fastboot).complete = some .reqComplete
  txnDone : s.txnDone = eventOf h.phase
  thread : At s.thread h.phase
  signaller : h.phase = .answered → s.signaller = h.last
  queued : s.queued = h.offers
  log : s.log = h.log

variable {s t : Usb} {h : Exchange Endpoint}

theorem tied_of_noOffer (separate : Separate t) (offer : h.phase.offer = none)
    (nothing : ∀ e, owner e = .fastboot → t.pending e = none)
    (complete : Ready t.thread → (t.request .fastboot).complete = some .reqComplete)
    (txnDone : t.txnDone = eventOf h.phase) (thread : At t.thread h.phase)
    (signaller : h.phase = .answered → t.signaller = h.last) (queued : t.queued = h.offers)
    (log : t.log = h.log) : Tied t h where
  separate := separate
  offer e found := by simp [offer] at found
  pending e bulk := by simp [nothing e bulk, offer]
  complete ready := complete (ready.resolve_right (not_not.mpr offer))
  txnDone := txnDone
  thread := thread
  signaller := signaller
  queued := queued
  log := log

theorem Tied.frame (tied : Tied s h) (frame : Frame s t) : Tied t h where
  separate := frame.separate tied.separate
  offer := tied.offer
  pending e bulk := (frame.pending e bulk).trans (tied.pending e bulk)
  complete ready := by
    rw [frame.request]
    refine tied.complete (ready.imp_left fun ready => ?_)
    rcases frame.thread with same | ⟨-, idle⟩
    · exact same ▸ ready
    · rw [idle] at ready
      exact ready.elim
  txnDone := frame.txnDone.trans tied.txnDone
  thread := by
    rcases frame.thread with same | ⟨offline, idle⟩
    · exact same ▸ tied.thread
    · have rest : At .offline h.phase := offline ▸ tied.thread
      rw [idle]
      exact rest
  signaller answered := frame.signaller.trans (tied.signaller answered)
  queued := frame.queued.trans tied.queued
  log := frame.log.trans tied.log

theorem Tied.setInfo (tied : Tied s h) (r : Request) (info : Word) :
    Tied (s.setRequest r fun q => { q with info := info }) h where
  __ := tied
  separate e r' id control pending := by
    obtain ⟨same, other⟩ := tied.separate e r' id control pending
    refine ⟨same, ?_⟩
    cases r <;> simpa [Usb.setRequest] using other
  complete ready := by
    have before := tied.complete ready
    cases r <;> simpa [Usb.setRequest] using before

def takeOff (s : Usb) (e : Endpoint) (r : Request) (info : Word) : Usb :=
  Usb.setRequest { s with pending := update s.pending e none } r fun q =>
    { q with info := info }

theorem handleEptComplete_eq {r : Request} (pending : s.pending e = some (r, id)) (final : Word) :
    ∃ info actual status,
      handleEptComplete s e final = callBack (takeOff s e r info) r id actual status := by
  simp only [handleEptComplete, pending]
  split <;> split <;> exact ⟨_, _, _, rfl⟩

theorem frame_takeOff (s : Usb) (control : owner e = .control) (info : Word) :
    Frame s (takeOff s e .control info) where
  pending e' bulk := by
    have different : e' ≠ e := fun same => by simp [same, control] at bulk
    simp [takeOff, Usb.setRequest, different]
  request := by simp [takeOff, Usb.setRequest]
  txnDone := rfl
  queued := rfl
  signaller := rfl
  log := rfl
  thread := .inl rfl
  separate separate e' r id onControl queued := by
    have before : s.pending e' = some (r, id) := by
      by_cases same : e' = e
      · simp [takeOff, Usb.setRequest, same] at queued
      · simpa [takeOff, Usb.setRequest, same] using queued
    simpa [takeOff, Usb.setRequest] using separate e' r id onControl before

theorem frame_callBack {actual : Word} {status : Int}
    (other : (s.request .control).complete ≠ some .reqComplete) :
    Frame s (callBack s .control id actual status) := by
  unfold callBack
  split
  · exact Frame.refl s
  · next impossible => exact absurd impossible other
  · exact Frame.refl s
  · unfold ep0inComplete
    split
    · exact frame_queue s rfl _ (by simp)
    · exact Frame.refl s

theorem frame_handleEptComplete (separate : Separate s) (control : owner e = .control)
    (final : Word) : Frame s (handleEptComplete s e final) := by
  cases pending : s.pending e with
  | none =>
    simp only [handleEptComplete, pending]
    exact Frame.refl s
  | some entry =>
    obtain ⟨r, id⟩ := entry
    obtain ⟨rfl, other⟩ := separate e r id control pending
    obtain ⟨info, actual, status, same⟩ := handleEptComplete_eq pending final
    rw [same]
    refine (frame_takeOff s control info).trans (frame_callBack ?_)
    simpa [takeOff, Usb.setRequest] using other

theorem signalTxnDone_stays (txnDone : s.txnDone = ⟨false, 0⟩) :
    signalTxnDone s = { s with txnDone := ⟨true, 0⟩ } := by
  simp [signalTxnDone, eventSignal, txnDone]

theorem signalTxnDone_wakes {call : Call} (txnDone : s.txnDone = ⟨false, 1⟩)
    (thread : s.thread = .busy call .blocked) :
    signalTxnDone s =
      { s with
        txnDone := ⟨false, 0⟩
        thread := .busy call .status
        log := s.log ++ [.released (s.queued - 1) s.signaller] } := by
  simp [signalTxnDone, eventSignal, txnDone, wake, thread]

section

variable (tied : Tied s h)
include tied

section

variable (offer : h.phase.offer = some e)
include offer

theorem Tied.pending_takeOff {e' : Endpoint}
    (bulk : owner e' = .fastboot) : update s.pending e none e' = none := by
  by_cases same : e' = e
  · simp [same]
  · rw [update_of_ne same, tied.pending e' bulk, offer]
    exact if_neg fun found => same (Option.some.inj found).symm

theorem Tied.separate_takeOff {e' : Endpoint} {r : Request} (control : owner e' = .control)
    (pending : update s.pending e none e' = some (r, id)) :
    r = .control ∧ (s.request .control).complete ≠ some .reqComplete := by
  have different : e' ≠ e := by
    intro same
    simp [same, tied.offer e offer] at control
  rw [update_of_ne different] at pending
  exact tied.separate e' r id control pending

theorem Tied.complete_offer (info actual : Word) (status : Int) :
    Tied (reqComplete (takeOff s e .fastboot info) .fastboot h.last actual status)
      (h.answer e) := by
  have separate : Separate (takeOff s e .fastboot info) := fun e' r id control pending => by
    simpa [takeOff, Usb.setRequest] using tied.separate_takeOff offer control pending
  have nothing (e' : Endpoint) (bulk : owner e' = .fastboot) :
      (takeOff s e .fastboot info).pending e' = none := tied.pending_takeOff offer bulk
  rcases Phase.offer_cases offer with phase | phase
  · have answered : h.answer e =
        { h with phase := .answered, log := h.log ++ [.completed h.last] } := by
      simp [Exchange.answer, phase]
    have quiet : s.txnDone = ⟨false, 0⟩ := by rw [tied.txnDone, phase]; rfl
    obtain ⟨call, thread, -⟩ := At.of_onOffer (phase ▸ tied.thread)
    rw [answered, reqComplete, signalTxnDone_stays (by exact quiet)]
    refine tied_of_noOffer separate rfl nothing ?_ rfl ?_ (fun _ => rfl) tied.queued
      (congrArg (· ++ [Note.completed h.last]) tied.log)
    · change Ready s.thread → _
      rw [thread]
      exact False.elim
    · change At s.thread .answered
      rw [thread]
      exact .inr rfl
  · have answered : h.answer e =
        { h with
          phase := .rest
          log := h.log ++ [.completed h.last, .released h.last h.last] } := by
      simp [Exchange.answer, phase]
    have waited : s.txnDone = ⟨false, 1⟩ := by rw [tied.txnDone, phase]; rfl
    obtain ⟨call, thread, -⟩ := At.of_parked (phase ▸ tied.thread)
    rw [answered, reqComplete, signalTxnDone_wakes (by exact waited) (by exact thread)]
    exact tied_of_noOffer separate rfl nothing False.elim rfl rfl (fun same => by cases same)
      tied.queued (by simp [takeOff, Usb.setRequest, tied.log, tied.queued, Exchange.last])

end

theorem Tied.handleEptComplete (e : Endpoint) (final : Word) :
    Tied (handleEptComplete s e final) (h.answer e) := by
  cases kind : owner e with
  | control =>
    have other : h.phase.offer ≠ some e := fun offer => by
      simp [tied.offer e offer] at kind
    rw [answer_of_ne other]
    exact tied.frame (frame_handleEptComplete tied.separate kind final)
  | fastboot =>
    have pending := tied.pending e kind
    by_cases offer : h.phase.offer = some e
    · rw [if_pos offer] at pending
      obtain ⟨info, actual, status, same⟩ := handleEptComplete_eq pending final
      have complete : ((takeOff s e .fastboot info).request .fastboot).complete =
          some .reqComplete := by
        simpa [takeOff, Usb.setRequest] using tied.complete (.inr (by simp [offer]))
      rw [same]
      simp only [callBack, complete]
      exact tied.complete_offer offer info actual status
    · rw [if_neg offer] at pending
      rw [answer_of_ne offer]
      simpa only [UsbTransfer.handleEptComplete, pending] using tied

end

end Exchange

section Interrupts

variable {s : Usb} {h : Exchange Endpoint}

theorem Tied.errorOut (tied : Tied s h) (final : Endpoint → Word) (e : Endpoint) :
    Tied (errorOut final s e) (h.answer e) := by
  cases pending : s.pending e with
  | none =>
    have same := tied.handleEptComplete e (final e)
    simpa only [UsbTransfer.errorOut, UsbTransfer.handleEptComplete, pending] using same
  | some entry =>
    obtain ⟨r, id⟩ := entry
    simp only [UsbTransfer.errorOut, pending]
    exact (tied.setInfo r infoHalted).handleEptComplete e (final e)

theorem Tied.foldl {f : Usb → Endpoint → Usb}
    (each : ∀ s h e, Tied s h → Tied (f s e) (h.answer e)) (es : List Endpoint)
    (tied : Tied s h) : Tied (es.foldl f s) (es.foldl Exchange.answer h) := by
  induction es generalizing s h with
  | nil => exact tied
  | cons e es ih => exact ih (each s h e tied)

/-- The endpoints that an interrupt looks at: all after a reset, and those that are reported. -/
def looksAt (i : Interrupt) : List Endpoint :=
  (if i.uri then eptList else []) ++
    if i.ui ∨ i.uei then eptList.filter (i.complete ·) else []

theorem Tied.completions (tied : Tied s h) (i : Interrupt) :
    Tied (completions i s) ((eptList.filter (i.complete ·)).foldl Exchange.answer h) := by
  have loop := tied.foldl (f := fun s e => UsbTransfer.handleEptComplete s e (i.final e))
    (fun s h e tied => tied.handleEptComplete e (i.final e)) (eptList.filter (i.complete ·))
  rw [List.foldl_filter] at loop
  exact loop

theorem Tied.udcInterrupt (tied : Tied s h) (i : Interrupt) :
    Tied (udcInterrupt i s) ((looksAt i).foldl Exchange.answer h) := by
  have first : Tied (if i.uri then reset i s else s)
      ((if i.uri then eptList else []).foldl Exchange.answer h) := by
    split
    · exact (tied.frame (frame_flags s false s.highspeed 0 s.testMode)).foldl
        (fun s h e tied => tied.errorOut i.final e) eptList
    · exact tied
  unfold UsbTransfer.udcInterrupt looksAt
  rw [List.foldl_append]
  generalize (if i.uri then reset i s else s) = s₁ at first ⊢
  have second : Tied (if i.pci then { s₁ with highspeed := i.speed = 2 } else s₁)
      ((if i.uri then eptList else []).foldl Exchange.answer h) := by
    split
    · exact first.frame (frame_flags s₁ s₁.online _ s₁.configValue s₁.testMode)
    · exact first
  dsimp only
  generalize (if i.pci then { s₁ with highspeed := i.speed = 2 } else s₁) = s₂ at second ⊢
  split
  · cases i.setup with
    | none => exact second.completions i
    | some p => exact (second.frame (frame_handleSetup s₂ p)).completions i
  · exact second

end Interrupts

section Thread

variable {s t : Usb} {h : Exchange Endpoint} {call : Call}

section

variable (tied : Tied s h)
include tied

/-- A statement that leaves the bulk endpoints and `txn_done` alone, with the thread outside a
wait before and after it. -/
theorem Tied.quiet (rest : h.phase = .rest) (pending : t.pending = s.pending)
    (control : t.request .control = s.request .control)
    (complete : Ready t.thread → (t.request .fastboot).complete = some .reqComplete)
    (txnDone : t.txnDone = s.txnDone) (thread : At t.thread .rest) (queued : t.queued = s.queued)
    (log : t.log = s.log) : Tied t h := by
  have offer : h.phase.offer = none := by rw [rest]; rfl
  refine tied_of_noOffer (fun e r id onControl found => ?_) offer (fun e bulk => ?_) complete
    (txnDone.trans tied.txnDone) (rest ▸ thread) (fun answered => ?_)
    (queued.trans tied.queued) (log.trans tied.log)
  · rw [pending] at found
    rw [control]
    exact tied.separate e r id onControl found
  · rw [pending, tied.pending e bulk, offer]
    exact if_neg nofun
  · rw [rest] at answered
    cases answered

theorem Tied.prime (thread : s.thread = .busy call .prime) :
    Tied ((prime s call.endpoint .fastboot).goTo call .wait) (h.put call.endpoint) := by
  have rest : h.phase = .rest := by
    have at_ := tied.thread
    rw [thread] at at_
    exact at_
  have bulk : owner call.endpoint = .fastboot := by cases call <;> rfl
  exact
    { separate := fun e r id control pending => by
        have different : e ≠ call.endpoint := by
          intro same
          simp [same, bulk] at control
        have before : s.pending e = some (r, id) := by
          simpa [UsbTransfer.prime, Usb.goTo, different] using pending
        exact tied.separate e r id control before
      offer := fun e offer => by
        obtain rfl : call.endpoint = e := by simpa [Exchange.put, Phase.offer] using offer
        exact bulk
      pending := fun e onBulk => by
        have before := tied.pending e onBulk
        by_cases same : e = call.endpoint
        · simp [UsbTransfer.prime, Usb.goTo, same, Exchange.put, Phase.offer, Exchange.last,
            tied.queued]
        · have nothing : s.pending e = none := by simpa [rest, Phase.offer] using before
          simp [UsbTransfer.prime, Usb.goTo, same, Exchange.put, Phase.offer, nothing, Ne.symm same]
      complete := fun _ => tied.complete (.inl (by rw [thread]; trivial))
      txnDone := by
        have before := tied.txnDone
        rw [rest] at before
        exact before
      thread := .inl rfl
      signaller := fun impossible => by cases impossible
      queued := congrArg Nat.succ tied.queued
      log := by simp [UsbTransfer.prime, Usb.goTo, Exchange.put, tied.log, tied.queued] }

theorem Tied.wait_passes (phase : h.phase = .answered) : Tied (waitTxnDone s call) h.take := by
  have signalled : s.txnDone = ⟨true, 0⟩ := by rw [tied.txnDone, phase]; rfl
  have due := tied.signaller phase
  have passes : waitTxnDone s call =
      Usb.goTo { s with
        txnDone := ⟨false, 0⟩
        log := s.log ++ [.released (s.queued - 1) s.signaller] } call .status := by
    simp [waitTxnDone, eventWait, signalled]
  rw [passes]
  refine tied_of_noOffer tied.separate rfl (fun e bulk => ?_) False.elim rfl rfl nofun tied.queued
    (by simp [Usb.goTo, Exchange.take, tied.log, tied.queued, due, Exchange.last])
  have before := tied.pending e bulk
  rw [phase] at before
  exact before

theorem Tied.wait_blocks (phase : h.phase = .onOffer call.endpoint) :
    Tied (waitTxnDone s call) (h.park call.endpoint) := by
  have unsignalled : s.txnDone = ⟨false, 0⟩ := by rw [tied.txnDone, phase]; rfl
  have blocks : waitTxnDone s call = Usb.goTo { s with txnDone := ⟨false, 1⟩ } call .blocked := by
    simp [waitTxnDone, eventWait, unsignalled]
  rw [blocks]
  exact
    { tied with
      offer := fun e offer => tied.offer e (by rw [phase]; exact offer)
      pending := fun e bulk => by
        have before := tied.pending e bulk
        rw [phase] at before
        exact before
      complete := fun _ => tied.complete (.inr (by rw [phase]; simp [Phase.offer]))
      txnDone := rfl
      thread := rfl
      signaller := fun impossible => by cases impossible }

end

variable {point : Point}

section Rest

variable (tied : Tied s h) (rest : h.phase = .rest)
include tied rest

theorem Tied.goTo (next : Call)
    (thread : At (.busy next point) .rest) (unready : ¬ Ready (.busy next point)) :
    Tied (s.goTo next point) h :=
  tied.quiet rest rfl rfl (fun ready => absurd ready unready) rfl thread rfl rfl

theorem Tied.return (value : Word) : Tied (s.return value) h :=
  tied.quiet rest rfl rfl (fun ready => ready.elim) rfl rfl rfl rfl

theorem Tied.oops : Tied (oops s) h :=
  tied.quiet rest rfl rfl (fun ready => ready.elim) rfl rfl rfl rfl

theorem Tied.assign (f : UsbRequest → UsbRequest) (thread : At (.busy call point) .rest)
    (complete : Ready (.busy call point) → (f (s.request .fastboot)).complete = some .reqComplete) :
    Tied ((s.setRequest .fastboot f).goTo call point) h := by
  refine tied.quiet rest rfl (by simp [Usb.goTo, Usb.setRequest]) (fun ready => ?_) rfl thread rfl rfl
  simpa [Usb.goTo, Usb.setRequest] using complete ready

end Rest

def Orderly (s : Usb) : Prop := ∃ h, Sound h ∧ Tied s h

theorem Orderly.statement (orderly : Orderly s)
    (thread : s.thread = .busy call point) (taken : statement s call point = some t) :
    Orderly t := by
  obtain ⟨h, sound, tied⟩ := orderly
  have at_ : At (.busy call point) h.phase := thread ▸ tied.thread
  cases point with
  | enter =>
    simp only [UsbTransfer.statement] at taken
    split at taken
    · exact ⟨h, sound, Option.some.inj taken ▸ tied.oops at_⟩
    · cases call with
      | read | write => exact ⟨h, sound, Option.some.inj taken ▸ tied.goTo at_ _ rfl id⟩
  | test =>
    cases call with
    | read buf len count xfer =>
      simp only [UsbTransfer.statement] at taken
      split at taken
      · exact ⟨h, sound, Option.some.inj taken ▸ tied.goTo at_ _ rfl id⟩
      · exact ⟨h, sound, Option.some.inj taken ▸ tied.return at_ count⟩
    | write buf len => cases taken
  | buf | length => exact ⟨h, sound, Option.some.inj taken ▸ tied.assign at_ _ rfl False.elim⟩
  | complete => exact ⟨h, sound, Option.some.inj taken ▸ tied.assign at_ _ rfl fun _ => rfl⟩
  | item =>
    have set : (s.request .fastboot).complete = some .reqComplete :=
      tied.complete (.inl (by rw [thread]; trivial))
    exact ⟨h, sound, Option.some.inj taken ▸ tied.assign at_ _ rfl fun _ => set⟩
  | prime =>
    exact ⟨h.put call.endpoint, sound.put at_ _, Option.some.inj taken ▸ tied.prime thread⟩
  | wait =>
    rcases at_ with open_ | answered
    · exact ⟨h.park call.endpoint, sound.park open_, Option.some.inj taken ▸ tied.wait_blocks open_⟩
    · exact ⟨h.take, sound.take answered, Option.some.inj taken ▸ tied.wait_passes answered⟩
  | blocked => cases taken
  | status =>
    simp only [UsbTransfer.statement] at taken
    split at taken
    · exact ⟨h, sound, Option.some.inj taken ▸ tied.oops at_⟩
    · exact ⟨h, sound, Option.some.inj taken ▸ tied.goTo at_ _ rfl id⟩
  | account =>
    cases call with
    | read buf len count xfer =>
      simp only [UsbTransfer.statement] at taken
      split at taken
      · exact ⟨h, sound, Option.some.inj taken ▸ tied.return at_ _⟩
      · exact ⟨h, sound, Option.some.inj taken ▸ tied.goTo at_ _ rfl id⟩
    | write buf len => exact ⟨h, sound, Option.some.inj taken ▸ tied.return at_ _⟩

end Thread

section Runs

variable {s t start : Usb} {h : Exchange Endpoint}

theorem sound_foldl_answer (sound : Sound h) (es : List Endpoint) :
    Sound (es.foldl Exchange.answer h) := by
  induction es generalizing h with
  | nil => exact sound
  | cons e es ih => exact ih (sound.answer e)

theorem Tied.rest_of_idle (tied : Tied s h)
    (idle : s.thread = .idle ∨ s.thread = .offline) : h.phase = .rest := by
  have at_ := tied.thread
  rcases idle with idle | idle
  · rw [idle] at at_
    exact at_
  · rw [idle] at at_
    exact at_

theorem Orderly.between (orderly : Orderly s) (idle : s.thread = .idle)
    (pending : t.pending = s.pending) (request : t.request = s.request)
    (txnDone : t.txnDone = s.txnDone) (thread : At t.thread .rest) (unready : ¬ Ready t.thread)
    (queued : t.queued = s.queued) (log : t.log = s.log) : Orderly t := by
  obtain ⟨h, sound, tied⟩ := orderly
  exact ⟨h, sound, tied.quiet (tied.rest_of_idle (.inl idle)) pending (congrFun request _)
    (fun ready => absurd ready unready) txnDone thread queued log⟩

theorem Orderly.step (orderly : Orderly s) (label : Label) (taken : step s label = some t) :
    Orderly t := by
  cases label with
  | read buf len | write buf len =>
    simp only [UsbTransfer.step] at taken
    split at taken
    · next idle =>
      cases taken
      exact orderly.between idle rfl rfl rfl rfl id rfl rfl
    · cases taken
  | other state =>
    simp only [UsbTransfer.step] at taken
    split at taken
    · next idle =>
      cases taken
      refine orderly.between idle rfl rfl rfl ?_ ?_ rfl rfl
      · rw [idle]
        rfl
      · rw [idle]
        exact id
    · cases taken
  | waitOnline =>
    simp only [UsbTransfer.step] at taken
    split at taken
    · next idle =>
      cases taken
      refine orderly.between idle rfl rfl rfl ?_ ?_ rfl rfl
      · cases (eventWait s.usbOnline).2 <;> rfl
      · cases (eventWait s.usbOnline).2 <;> exact id
    · cases taken
  | thread =>
    simp only [UsbTransfer.step] at taken
    split at taken
    · next busy => exact orderly.statement busy taken
    · cases taken
  | interrupt i =>
    obtain ⟨h, sound, tied⟩ := orderly
    exact ⟨_, sound_foldl_answer sound (looksAt i), Option.some.inj taken ▸ tied.udcInterrupt i⟩

theorem orderly_initial (initial : Initial start) : Orderly start := by
  refine ⟨Foundation.Handoff.initial, sound_initial, ?_⟩
  refine tied_of_noOffer (fun e r id _ pending => ?_) rfl (fun e _ => initial.pending e)
    (fun ready => ?_) initial.txnDone (by rw [initial.thread]; rfl) nofun initial.queued initial.log
  · simp [initial.pending e] at pending
  · rw [initial.thread] at ready
    exact ready.elim

theorem orderly_of_reach (initial : Initial start) (reach : Reach step (fun _ _ => True) start s) :
    Orderly s :=
  reach.invariant Orderly (orderly_initial initial) fun _ label _ orderly _ taken =>
    orderly.step label taken

/-- The thread is blocked in `event_wait(&txn_done)`. -/
def waits (s : Usb) : Bool :=
  match s.thread with
  | .busy _ .blocked => true
  | _ => false

theorem Tied.offer_of_pending (tied : Tied s h)
    (pending : s.pending e = some (.fastboot, id)) : h.phase.offer = some e ∧ id = h.last := by
  cases kind : owner e with
  | control =>
    obtain ⟨impossible, -⟩ := tied.separate e _ id kind pending
    cases impossible
  | fastboot =>
    rw [tied.pending e kind] at pending
    split at pending
    · next offer => exact ⟨offer, (Prod.mk.inj (Option.some.inj pending)).2.symm⟩
    · cases pending

theorem Tied.log_answer (tied : Tied s h) (offer : h.phase.offer = some e) :
    (h.answer e).log = s.log ++
      .completed h.last :: if waits s then [.released h.last h.last] else [] := by
  have at_ := tied.thread
  rcases Phase.offer_cases offer with phase | phase
  · obtain ⟨call, thread, -⟩ := At.of_onOffer (phase ▸ at_)
    simp [Exchange.answer, phase, waits, thread, tied.log]
  · obtain ⟨call, thread, -⟩ := At.of_parked (phase ▸ at_)
    simp [Exchange.answer, phase, waits, thread, tied.log]

/-- Transfers match their completions in every interleaving: nothing is completed twice; a wait is
ended by the completion of the request queued just before it; an interrupt that looks at an endpoint
with a request completes it, for the first time, and one that does not leaves it pending; and
between two calls nothing is signalled or pending. -/
theorem transfers_matched (initial : Initial start)
    (reach : Reach step (fun _ _ => True) start s) :
    (∀ id, s.log.count (.completed id) ≤ 1) ∧
    (∀ before id due after, s.log = before ++ .released id due :: after →
      due = id ∧ ∃ earlier e, before = earlier ++ [.offered id e, .completed id]) ∧
    (∀ i e id, s.pending e = some (.fastboot, id) →
      (e ∈ looksAt i → s.log.count (.completed id) = 0 ∧ (udcInterrupt i s).pending e = none ∧
        (udcInterrupt i s).log = s.log ++
          .completed id :: if waits s then [.released id id] else []) ∧
      (e ∉ looksAt i → (udcInterrupt i s).pending e = some (.fastboot, id) ∧
        (udcInterrupt i s).log = s.log)) ∧
    (s.thread = .idle ∨ s.thread = .offline →
      s.txnDone = ⟨false, 0⟩ ∧ s.pending .bulkOut = none ∧ s.pending .bulkIn = none) := by
  obtain ⟨h, sound, tied⟩ := orderly_of_reach initial reach
  refine ⟨fun id => tied.log ▸ sound.count_le id, tied.log ▸ sound.due,
    fun i e id pending => ?_, fun idle => ?_⟩
  · obtain ⟨offer, rfl⟩ := tied.offer_of_pending pending
    have bulk := tied.offer e offer
    have after := tied.udcInterrupt i
    rw [foldl_answer, offer] at after
    dsimp only at after
    constructor
    · intro looked
      rw [if_pos looked] at after
      refine ⟨tied.log ▸ sound.count_offer offer, ?_, after.log.trans (tied.log_answer offer)⟩
      rw [after.pending e bulk, offer_answer offer]
      exact if_neg nofun
    · intro ignored
      rw [if_neg ignored] at after
      refine ⟨?_, after.log.trans tied.log.symm⟩
      rw [after.pending e bulk, if_pos offer]
  · have rest := tied.rest_of_idle idle
    have nothing : ∀ e, owner e = .fastboot → s.pending e = none := by
      intro e bulk
      rw [tied.pending e bulk, rest]
      exact if_neg nofun
    refine ⟨?_, nothing .bulkOut rfl, nothing .bulkIn rfl⟩
    rw [tied.txnDone, rest]
    rfl

def fresh : Usb where
  pending _ := none
  request _ := ⟨0, 0, none, 0⟩
  online := false
  highspeed := false
  configValue := 0
  testMode := 0
  descList := []
  usbOnline := ⟨false, 0⟩
  txnDone := ⟨false, 0⟩
  txnStatus := 0
  fastbootState := .command
  thread := .idle
  returned := 0
  queued := 0
  signaller := 0
  log := []

/-- The request to the host is completed without a residue. -/
def sent : Interrupt := ⟨false, false, true, false, 0, none, (· = .bulkIn), fun _ => 0⟩

def writing : List Label :=
  .write 0 4 :: List.replicate 6 .thread ++ .interrupt sent :: List.replicate 3 .thread

theorem fresh_initial : Initial fresh := ⟨fun _ => rfl, rfl, rfl, rfl, rfl, rfl⟩

theorem transfers_matched_write :
    ∃ s, Reach step (fun _ _ => True) fresh s ∧
      s.log = [.offered 0 .bulkIn, .completed 0, .released 0 0] ∧ s.returned = 4 ∧
      s.txnDone = ⟨false, 0⟩ ∧ s.pending .bulkOut = none ∧ s.pending .bulkIn = none := by
  refine exists_run_of_replay writing (fun s => s.thread = .idle ∧
    s.log = [.offered 0 .bulkIn, .completed 0, .released 0 0] ∧ s.returned = 4)
    (by decide +kernel) ?_
  intro s reach ⟨idle, logged, returned⟩
  exact ⟨logged, returned, (transfers_matched fresh_initial reach).2.2.2 (.inl idle)⟩

end Runs

end AndroidBoot.Aboot.UsbCompletions
