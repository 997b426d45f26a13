/- source: init/init/init.c, init/init/signal_handler.c
   digest: When a service that was started stays running, scheduled, disabled or reset. -/

import AndroidBoot.Init.EachService

set_option autoImplicit false

namespace AndroidBoot.Init.Supervision

open State Properties Services Machine EachService Foundation.Run

/-- One of the flags that say what becomes of the service is set. -/
def Watched (svc : Service) : Prop :=
  svc.running = true ∨ svc.restarting = true ∨ svc.disabled = true ∨ svc.reset = true

/-- Each coming start that finds the program gets its context and its process. -/
def StartsClear (svc : Service) : Prop :=
  ∀ n, (svc.launches n).stat = true →
    ((svc.launches n).selinuxEnabled = true → svc.hasContext (svc.launches n) = true) ∧
      (svc.launches n).fork ≠ none

def Supervised (svc : Service) : Prop :=
  svc.oneshot = false → svc.started = true → Watched svc ∧ (svc.running = false → StartsClear svc)

variable {svc : Service}

theorem supervised_start {haveConsole dynamicArgs : Bool} {pid now : Nat}
    (h : Supervised svc) :
    Supervised (svc.start pid now (svc.outcome haveConsole dynamicArgs)) := by
  rcases svc.outcome_cases haveConsole dynamicArgs with
    ⟨running, outcome⟩ | ⟨idle, -, outcome⟩ | ⟨idle, startable, outcome⟩
  · rw [outcome]
    intro _ _
    refine ⟨Or.inl running, fun idle => ?_⟩
    have same : svc.running = false := idle
    simp [running] at same
  · rw [outcome]
    intro oneshot started
    exact ⟨Or.inr (Or.inr (Or.inl rfl)), fun _ n => (h oneshot started).2 idle (n + 1)⟩
  · have clear (oneshot : svc.oneshot = false) (started : svc.started = true) :=
      (h oneshot started).2 idle 0 startable.2.1
    rcases outcome with ⟨enabled, missing, outcome⟩ | ⟨failed, outcome⟩ | ⟨wanted, outcome⟩
    · rw [outcome]
      intro oneshot started
      have found := (clear oneshot started).1 enabled
      simp [missing] at found
    · rw [outcome]
      intro oneshot started
      exact absurd failed (clear oneshot started).2
    · rw [outcome]
      intro _ _
      exact ⟨Or.inl rfl, nofun⟩

theorem supervised_stopOrReset {how : How}
    (running : how = .restart → svc.running = true) (h : Supervised svc) :
    Supervised (svc.stopOrReset how) := by
  cases how with
  | disabled =>
    intro oneshot started
    exact ⟨Or.inr (Or.inr (Or.inl rfl)), (h oneshot started).2⟩
  | restart =>
    intro oneshot started
    exact ⟨Or.inl (running rfl), (h oneshot started).2⟩
  | reset =>
    unfold Service.stopOrReset
    dsimp only
    split_ifs
    · intro oneshot started
      exact ⟨Or.inr (Or.inr (Or.inl rfl)), (h oneshot started).2⟩
    · intro oneshot started
      exact ⟨Or.inr (Or.inr (Or.inr rfl)), (h oneshot started).2⟩

theorem watched_reap {now : Nat} (goes : (svc.reap now).1 ≠ .reboot) :
    Watched (svc.reap now).2 := by
  rcases svc.reap_cases now with ⟨disabled | reset, reaped⟩ | ⟨-, -, reaped | reaped⟩
  · rw [reaped]
    exact Or.inr (Or.inr (Or.inl disabled))
  · rw [reaped]
    exact Or.inr (Or.inr (Or.inr reset))
  · rw [reaped] at goes
    exact absurd rfl goes
  · rw [reaped]
    exact Or.inr (Or.inl rfl)

def ClearAt (k : Nat) (s : InitState) : Prop :=
  ∀ svc, s.services[k]? = some svc → svc.started = true → StartsClear svc

theorem calls_supervised (k : Nat) : Calls fun _ i svc => i = k → Supervised svc where
  later := fun _ _ _ _ _ h => h
  start := fun _ _ _ _ _ _ _ h here => supervised_start (h here)
  stop := fun _ _ _ _ running h here => supervised_stopOrReset running (h here)

theorem reaped_of_not_rebooting {s : InitState} {i : Nat}
    (alive : (reaped s i svc).rebooting = false) : (svc.reap s.gettime.1).1 ≠ .reboot := by
  intro reboots
  rcases verdict : svc.reap s.gettime.1 with ⟨kind, after⟩
  rw [verdict] at reboots
  obtain rfl : kind = .reboot := reboots
  simp [reaped, verdict] at alive

theorem startsClear_reap (now : Nat) (clear : StartsClear svc) : StartsClear (svc.reap now).2 := by
  unfold StartsClear Service.hasContext
  rw [(svc.reap_exit now).seclabel, (svc.reap_exit now).launches]
  exact clear

theorem supervised_handle {k : Nat} {s : InitState} (event : Event) (clear : ClearAt k s)
    (h : Each (fun _ i svc => i = k → Supervised svc) s)
    (goesOn : (handle s event).rebooting = false) :
    Each (fun _ i svc => i = k → Supervised svc) (handle s event) := by
  refine KeepsAny.handle (calls_supervised k).keeps_unless ?_ ?_ event (fun _ => h) goesOn
  · intro s i h alive
    exact (calls_supervised k).serviceStart s i true
      (h (alive_before (serviceStart_rebooting s i true) alive))
  · intro i svc found _ alive
    obtain ⟨services, clock⟩ := reaped_services s i svc
    refine (calls_supervised k).of_set h services (clock ▸ Nat.le_add_right _ _) ?_
    rintro rfl oneshot started
    exact ⟨watched_reap (reaped_of_not_rebooting alive),
      fun _ => startsClear_reap _ (clear svc found ((svc.reap_exit _).started ▸ started))⟩

/-- In every run whose steps find the coming starts of a service clear, a service that was
started and is not a one-shot is running, scheduled for restart, disabled or reset. -/
theorem started_service_watched {start s : InitState} (fresh : ∀ svc ∈ start.services, Fresh svc)
    {k : Nat} (run : Reach step (fun s _ => ClearAt k s) start s) (alive : s.rebooting = false)
    {svc : Service} (found : s.services[k]? = some svc) (oneshot : svc.oneshot = false)
    (started : svc.started = true) : Watched svc := by
  have watched : s.rebooting = false →
      Each (fun _ i svc => i = k → svc.oneshot = false → svc.started = true → Watched svc) s := by
    refine run.invariant (fun s => s.rebooting = false → _) ?_ ?_
    · intro _ i svc found _ _ started
      obtain ⟨-, -, -, -, -, -, unstarted, -⟩ := fresh svc (List.mem_of_getElem? found)
      simp [unstarted] at started
    · intro s event t h clear next goesOn
      obtain ⟨rfl, before⟩ := step_eq_some next
      have supervised : Each (fun _ i svc => i = k → Supervised svc) s := by
        intro i svc place here oneshot started
        exact ⟨h before i svc place here oneshot started, fun _ => clear svc (here ▸ place) started⟩
      intro i svc found here oneshot started
      exact (supervised_handle event clear supervised goesOn i svc found here oneshot started).1
  exact watched alive k svc found rfl oneshot started

theorem kept_startsClear : Kept fun _ _ svc => StartsClear svc where
  later := fun _ _ _ _ _ h => h
  start := fun _ _ svc haveConsole dynamicArgs _ _ h => by
    cases svc.outcome haveConsole dynamicArgs with
    | alreadyRunning => exact h
    | refused | noContext | noFork | launched => exact fun n => h (n + 1)
  stop := fun _ _ svc how _ h => by
    obtain ⟨disabled, reset, restart, killed⟩ := svc.stopOrReset_eq how
    rw [killed]
    exact h
  reap := fun now _ _ _ h => startsClear_reap now h

theorem clear_run {start s : InitState} (clear : ∀ svc ∈ start.services, StartsClear svc) (k : Nat)
    (run : Reach step (fun _ _ => True) start s) : Reach step (fun s _ => ClearAt k s) start s := by
  have base : Each (fun _ _ svc => StartsClear svc) start :=
    fun _ svc found => clear svc (List.mem_of_getElem? found)
  induction run with
  | start => exact .start
  | next before _ taken ih =>
    exact .next ih (fun svc found _ => kept_startsClear.reach base before k svc found) taken

def slowDaemon : InitState := clocked [parseService "daemon".toList] fun _ => 5

theorem started_service_watched_daemon :
    ∃ s svc, Reach step (fun s _ => ClearAt 0 s) slowDaemon s ∧
      s.services = [svc] ∧ svc.started = true ∧ Watched svc := by
  obtain ⟨s, run, alive, fields⟩ : ∃ s, Reach step (fun _ _ => True) slowDaemon s ∧
      s.rebooting = false ∧
      (s.services.map fun svc => (svc.oneshot, svc.started)) = [(false, true)] :=
    exists_run_of_replay [.serviceStart 0 false, .childExit 1, .restartProcesses, .childExit 1] _
      (by decide +kernel) fun _ _ => id
  obtain ⟨svc, services, flags⟩ := List.map_eq_singleton_iff.mp fields
  obtain ⟨oneshot, started⟩ := Prod.mk.inj flags
  have clear : ∀ svc ∈ slowDaemon.services, StartsClear svc := by
    intro svc member
    obtain rfl := List.mem_singleton.mp member
    exact fun _ _ => ⟨nofun, nofun⟩
  have reached := clear_run clear 0 run
  exact ⟨s, svc, reached, services, started,
    started_service_watched (by decide) reached alive (by simp [services]) oneshot started⟩

def unlucky : Service :=
  { parseService "daemon".toList with
    launches := fun n => if n = 1 then { fork := none } else {} }

theorem failed_restart_is_lost :
    (guardedReplay step (fun _ _ => true) (clocked [unlucky] fun _ => 5)
        [.serviceStart 0 false, .childExit 1]).map
          (fun s => s.services.map fun svc => (svc.oneshot, svc.started, svc.restarting)) =
        some [(false, true, true)] ∧
      (guardedReplay step (fun _ _ => true) (clocked [unlucky] fun _ => 5)
        [.serviceStart 0 false, .childExit 1, .restartProcesses]).map
          (fun s => (s.rebooting, s.services.map fun svc =>
            (svc.running, svc.restarting, svc.disabled, svc.reset))) =
        some (false, [(false, false, false, false)]) := by
  constructor
  · decide +kernel
  · decide +kernel

end AndroidBoot.Init.Supervision
