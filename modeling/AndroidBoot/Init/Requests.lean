/- source: init/init/init.c, init/init/signal_handler.c
   digest: Which of the requests made to a running service decides what happens at its exit. -/

import AndroidBoot.Init.EachService

set_option autoImplicit false

namespace AndroidBoot.Init.Requests

open State Properties Services PropertyService Machine EachService Foundation.Run

def sinceStart (requests : List Request) : List Request :=
  requests.reverse.takeWhile (· ≠ .start)

theorem sinceStart_start (requests : List Request) : sinceStart (requests ++ [.start]) = [] := by
  simp [sinceStart]

theorem sinceStart_kill (requests : List Request) (how : How) :
    sinceStart (requests ++ [.kill how]) = .kill how :: sinceStart requests := by
  simp [sinceStart]

/-- The flags of a running service are those that its requests since the last start set. -/
def Tracks (svc : Service) : Prop :=
  svc.running = true →
    svc.restarting = false ∧
      (svc.restart = true ↔ .kill .restart ∈ sinceStart svc.requests) ∧
      (svc.disabled = true ↔ .kill .disabled ∈ sinceStart svc.requests ∨
        svc.rcDisabled = true ∧ .kill .reset ∈ sinceStart svc.requests) ∧
      (svc.reset = true ↔ svc.rcDisabled = false ∧ .kill .reset ∈ sinceStart svc.requests)

variable {svc : Service}

theorem tracks_start {pid now : Nat} (haveConsole dynamicArgs : Bool) :
    Tracks (svc.start pid now (svc.outcome haveConsole dynamicArgs)) := by
  cases running : svc.running with
  | true =>
    intro _
    rw [Service.outcome_of_running running]
    simp [Service.start, Service.cleared, sinceStart_start]
  | false =>
    cases svc.outcome haveConsole dynamicArgs with
    | launched wanted =>
      intro _
      simp [Service.start, Service.cleared, sinceStart]
    | alreadyRunning | refused | noContext | noFork =>
      intro ran
      simp [Service.start, Service.cleared, running] at ran

theorem tracks_stopOrReset {how : How} (h : Tracks svc) : Tracks (svc.stopOrReset how) := by
  cases how with
  | disabled =>
    intro running
    obtain ⟨-, restart, disabled, reset⟩ := h running
    simp [Service.stopOrReset, sinceStart_kill, restart, reset]
  | restart =>
    intro running
    obtain ⟨-, restart, disabled, reset⟩ := h running
    simp [Service.stopOrReset, sinceStart_kill, disabled, reset]
  | reset =>
    intro running
    cases rc : svc.rcDisabled with
    | true =>
      simp only [Service.stopOrReset, rc] at running
      obtain ⟨-, restart, disabled, reset⟩ := h running
      simp [Service.stopOrReset, sinceStart_kill, restart, reset, rc]
    | false =>
      simp only [Service.stopOrReset, rc] at running
      obtain ⟨-, restart, disabled, reset⟩ := h running
      simp [Service.stopOrReset, sinceStart_kill, restart, disabled, rc]

theorem kept_tracks : Kept fun _ _ svc => Tracks svc where
  later := fun _ _ _ _ _ h => h
  start := fun _ _ _ haveConsole dynamicArgs _ _ _ => tracks_start haveConsole dynamicArgs
  stop := fun _ _ _ _ _ h => tracks_stopOrReset h
  reap := fun now _ svc _ _ running => by simp [(svc.reap_exit now).running] at running

def LastDecides (svc : Service) (now : Nat) : Prop :=
  match svc.requests.getLast? with
  | none => True
  | some .start =>
    if svc.oneshot then (svc.reap now).1 = .stopped else (svc.reap now).1 ≠ .stopped
  | some (.kill .disabled) =>
    (svc.reap now).2.disabled = true ∧ (svc.reap now).2.restarting = false
  | some (.kill .reset) => (svc.reap now).2.restarting = false
  | some (.kill .restart) => (svc.reap now).2.restarting = true

def NoStopBeforeRestart (requests : List Request) : Prop :=
  requests.getLast? = some (.kill .restart) →
    .kill .disabled ∉ sinceStart requests ∧ .kill .reset ∉ sinceStart requests

theorem lastDecides_iff (tracks : Tracks svc) (running : svc.running = true)
    (now : Nat) : LastDecides svc now ↔ NoStopBeforeRestart svc.requests := by
  obtain ⟨idle, restart, disabled, reset⟩ := tracks running
  have restarted := svc.restarting_reap_iff now idle
  have halted := svc.stopped_reap_iff now
  have stays (stopped : (svc.reap now).1 = .stopped) : (svc.reap now).2.restarting = false := by
    by_contra goes
    rw [Bool.not_eq_false, restarted, stopped] at goes
    cases goes
  rcases svc.requests.eq_nil_or_concat with none | ⟨earlier, last, split⟩
  · simp [LastDecides, NoStopBeforeRestart, none]
  unfold LastDecides NoStopBeforeRestart
  rw [split, List.concat_eq_append, List.getLast?_concat]
  rw [split, List.concat_eq_append] at restart disabled reset
  cases last with
  | start =>
    rw [sinceStart_start] at restart disabled reset
    simp only [List.not_mem_nil, and_false, or_false, iff_false, Bool.not_eq_true]
      at restart disabled reset
    rw [disabled, restart, reset] at halted
    split_ifs with oneshot
    · simp [halted, oneshot]
    · simp [halted, oneshot]
  | kill how =>
    rw [sinceStart_kill] at restart disabled reset
    cases how with
    | disabled =>
      have off : svc.disabled = true := disabled.mpr (Or.inl List.mem_cons_self)
      simp [svc.disabled_reap now off, stays (halted.mpr (Or.inl off))]
    | reset =>
      have stopped : (svc.reap now).1 = .stopped := by
        cases rc : svc.rcDisabled with
        | true => exact halted.mpr (Or.inl (disabled.mpr (Or.inr ⟨rc, List.mem_cons_self⟩)))
        | false =>
          exact halted.mpr (Or.inr (Or.inr (reset.mpr ⟨rc, List.mem_cons_self⟩)))
      simp [stays stopped]
    | restart =>
      have again : svc.restart = true := restart.mpr List.mem_cons_self
      have goes : (svc.reap now).1 = .restarting ↔ (svc.reap now).1 ≠ .stopped :=
        ⟨fun h => by rw [h]; exact nofun, svc.reap_of_restart now again⟩
      have off : svc.disabled = true ∨ svc.reset = true ↔
          .kill .disabled ∈ sinceStart earlier ∨ .kill .reset ∈ sinceStart earlier := by
        rw [disabled, reset]
        cases svc.rcDisabled <;> simp
      rw [sinceStart_kill, restarted, goes, Ne, halted, again]
      simp only [Bool.true_eq_false, and_false, false_or, off]
      simp

/-- In every run, the last request made to a running service decides what happens at its exit
exactly if no restart comes after a stop or a reset without a start in between. -/
theorem last_decides_iff {start s : InitState} (fresh : ∀ svc ∈ start.services, Fresh svc)
    (run : Reach step (fun _ _ => True) start s) {svc : Service} (member : svc ∈ s.services)
    (running : svc.running = true) (now : Nat) :
    LastDecides svc now ↔ NoStopBeforeRestart svc.requests := by
  have base : ∀ (_ : Nat) svc, Fresh svc → Tracks svc := by
    intro _ svc ⟨idle, _⟩ ran
    simp [idle] at ran
  exact lastDecides_iff (kept_tracks.mem_reach base fresh run member) running now

def control (verb service : String) : Event :=
  .message { name := verb.toList, value := service.toList, uid := 1000, gid := 1000 }

theorem last_decides_iff_daemon :
    ∃ s svc, Reach step (fun _ _ => True) (booting [parseService "daemon".toList] []) s ∧
      s.services = [svc] ∧ LastDecides svc 7 := by
  obtain ⟨s, reached, shape⟩ : ∃ s, Reach step (fun _ _ => True)
      (booting [parseService "daemon".toList] []) s ∧
        (s.services.map fun svc => (svc.running, svc.requests)) =
          [(true, [.kill .disabled, .start, .kill .restart])] :=
    exists_run_of_replay [control "ctl.start" "daemon", control "ctl.stop" "daemon",
      control "ctl.start" "daemon", control "ctl.restart" "daemon"] _ (by decide +kernel)
      fun _ _ => id
  obtain ⟨svc, services, fields⟩ := List.map_eq_singleton_iff.mp shape
  obtain ⟨running, requests⟩ := Prod.mk.inj fields
  refine ⟨s, svc, reached, services, ?_⟩
  apply (last_decides_iff (by decide) reached (by simp [services]) running 7).mpr
  rw [requests]
  exact fun _ => by decide

theorem restart_after_stop_is_lost :
    let booted := booting [parseService "daemon".toList] []
    let requests := [control "ctl.start" "daemon", control "ctl.stop" "daemon",
      control "ctl.restart" "daemon"]
    (guardedReplay step (fun _ _ => true) booted requests).map
        (fun s => s.services.map fun svc => (svc.running, svc.requests)) =
      some [(true, [.kill .disabled, .kill .restart])] ∧
    (guardedReplay step (fun _ _ => true) booted (requests ++ [.childExit 1])).map
        (fun s => s.services.map fun svc => (svc.running, svc.restarting, svc.disabled)) =
      some [(false, false, true)] := by
  constructor
  · decide +kernel
  · decide +kernel

end AndroidBoot.Init.Requests
