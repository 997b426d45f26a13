/- source: init/init/init.c, init/init/init_parser.c, init/init/signal_handler.c
   digest: Starting, stopping and restarting services, and what the reaper decides about them. -/

import AndroidBoot.Init.Properties

set_option autoImplicit false

namespace AndroidBoot.Init.State.Service

/-- The exits of `service_start`. -/
inductive Outcome
  | alreadyRunning
  | refused
  | noContext
  | noFork
  | launched (wanted : Nat)
  deriving DecidableEq

def hasContext (svc : Service) (launch : Launch) : Bool :=
  if svc.seclabel.isSome then launch.strdup
  else launch.getcon && launch.getfilecon && launch.securityComputeCreate

def outcome (svc : Service) (haveConsole dynamicArgs : Bool) : Outcome :=
  let launch := svc.launches 0
  if svc.running then .alreadyRunning
  else if svc.console && !haveConsole then .refused
  else if !launch.stat then .refused
  else if !svc.oneshot && dynamicArgs then .refused
  else if launch.selinuxEnabled && !svc.hasContext launch then .noContext
  else match launch.fork with
    | none => .noFork
    | some wanted => .launched wanted

/-- The checks that a service fails for good pass: console, program and arguments. -/
def Startable (svc : Service) (haveConsole dynamicArgs : Bool) : Prop :=
  (svc.console = true → haveConsole = true) ∧ (svc.launches 0).stat = true ∧
    (dynamicArgs = true → svc.oneshot = true)

theorem outcome_of_running {svc : Service} (running : svc.running = true)
    (haveConsole dynamicArgs : Bool) :
    svc.outcome haveConsole dynamicArgs = .alreadyRunning :=
  if_pos running

theorem outcome_cases (svc : Service) (haveConsole dynamicArgs : Bool) :
    (svc.running = true ∧ svc.outcome haveConsole dynamicArgs = .alreadyRunning) ∨
    (svc.running = false ∧ ¬ svc.Startable haveConsole dynamicArgs ∧
      svc.outcome haveConsole dynamicArgs = .refused) ∨
    (svc.running = false ∧ svc.Startable haveConsole dynamicArgs ∧
      ((svc.launches 0).selinuxEnabled = true ∧ svc.hasContext (svc.launches 0) = false ∧
          svc.outcome haveConsole dynamicArgs = .noContext ∨
        (svc.launches 0).fork = none ∧ svc.outcome haveConsole dynamicArgs = .noFork ∨
        ∃ wanted, svc.outcome haveConsole dynamicArgs = .launched wanted)) := by
  unfold outcome Startable
  cases running : svc.running with
  | true => exact Or.inl ⟨rfl, rfl⟩
  | false =>
    refine Or.inr ?_
    simp only [Bool.false_eq_true, if_false]
    by_cases console : (svc.console && !haveConsole) = true
    · refine Or.inl ⟨trivial, fun passes => ?_, by simp only [if_pos console]⟩
      simp_all
    by_cases stat : (!(svc.launches 0).stat) = true
    · refine Or.inl ⟨trivial, fun passes => ?_, by simp only [if_neg console, if_pos stat]⟩
      simp_all
    by_cases arguments : (!svc.oneshot && dynamicArgs) = true
    · refine Or.inl ⟨trivial, fun passes => ?_, ?_⟩
      · simp_all
      · simp only [if_neg console, if_neg stat, if_pos arguments]
    simp only [if_neg console, if_neg stat, if_neg arguments]
    refine Or.inr ⟨trivial, ⟨by simpa using console, by simpa using stat, ?_⟩, ?_⟩
    · intro given
      by_contra repeats
      simp [given, repeats] at arguments
    by_cases context : ((svc.launches 0).selinuxEnabled && !svc.hasContext (svc.launches 0)) = true
    · obtain ⟨enabled, missing⟩ := Bool.and_eq_true_iff.mp context
      exact Or.inl ⟨enabled, by simpa using missing, if_pos context⟩
    · rw [if_neg context]
      cases forked : (svc.launches 0).fork with
      | none => exact Or.inr (Or.inl ⟨rfl, rfl⟩)
      | some wanted => exact Or.inr (Or.inr ⟨wanted, rfl⟩)

/-- The first lines of `service_start`. -/
def cleared (svc : Service) : Service :=
  { svc with
    disabled := false
    restarting := false
    reset := false
    restart := false
    timeStarted := 0 }

/-- The service after `service_start`; `pid` and `now` are those of a launch. -/
def start (svc : Service) (pid now : Nat) : Outcome → Service
  | .alreadyRunning => { svc.cleared with requests := svc.requests ++ [.start] }
  | .refused => { svc.cleared with disabled := true, launches := fun n => svc.launches (n + 1) }
  | .noContext => { svc.cleared with launches := fun n => svc.launches (n + 1) }
  | .noFork => { svc.cleared with pid := 0, launches := fun n => svc.launches (n + 1) }
  | .launched _ =>
    { svc.cleared with
      timeStarted := now
      pid := pid
      running := true
      launches := fun n => svc.launches (n + 1)
      started := true
      requests := [] }

/-- The service after `service_stop_or_reset`. -/
def stopOrReset (svc : Service) (how : How) : Service :=
  let svc : Service := { svc with restarting := false, requests := svc.requests ++ [.kill how] }
  match how with
  | .disabled => { svc with disabled := true }
  | .reset => if svc.rcDisabled then { svc with disabled := true } else { svc with reset := true }
  | .restart => { svc with restart := true }

theorem stopOrReset_eq (svc : Service) (how : How) :
    ∃ disabled reset restart, svc.stopOrReset how =
      { svc with
        disabled := disabled
        restarting := false
        reset := reset
        restart := restart
        requests := svc.requests ++ [.kill how] } := by
  cases how with
  | disabled => exact ⟨true, svc.reset, svc.restart, rfl⟩
  | restart => exact ⟨svc.disabled, svc.reset, true, rfl⟩
  | reset =>
    unfold stopOrReset
    dsimp only
    split_ifs
    · exact ⟨true, svc.reset, svc.restart, rfl⟩
    · exact ⟨svc.disabled, true, svc.restart, rfl⟩

def unrequested (svc : Service) : Bool := !svc.disabled && !svc.reset && !svc.restart

def exited (svc : Service) (now : Nat) : Service :=
  { svc with
    pid := 0
    running := false
    disabled := svc.disabled || (svc.oneshot && !svc.restart)
    crashes := if svc.unrequested then svc.crashes ++ [now] else svc.crashes }

def criticalCrashThreshold : Nat := 4

def criticalCrashWindow : Nat := 4 * 60

inductive Verdict
  | stopped
  | reboot
  | restarting
  deriving DecidableEq

/-- The crash counter of `wait_for_one_process`. -/
def counted (svc : Service) (now : Nat) : Service :=
  if svc.critical && !svc.restart then
    if now ≤ svc.timeCrashed + criticalCrashWindow then
      { svc with nrCrashed := svc.nrCrashed + 1 }
    else { svc with timeCrashed := now, nrCrashed := 1 }
  else svc

def reap (svc : Service) (now : Nat) : Verdict × Service :=
  let svc := svc.exited now
  if svc.disabled || svc.reset then (.stopped, svc)
  else if svc.critical && !svc.restart && now ≤ svc.timeCrashed + criticalCrashWindow
      && criticalCrashThreshold < svc.nrCrashed + 1 then (.reboot, svc.counted now)
  else (.restarting, { svc.counted now with restart := false, restarting := true })

/-- What the exit of a process does to its service in any case. -/
structure Exit (svc : Service) (now : Nat) (after : Service) : Prop where
  name : after.name = svc.name
  classname : after.classname = svc.classname
  oneshot : after.oneshot = svc.oneshot
  critical : after.critical = svc.critical
  seclabel : after.seclabel = svc.seclabel
  onrestart : after.onrestart = svc.onrestart
  launches : after.launches = svc.launches
  started : after.started = svc.started
  pid : after.pid = 0
  running : after.running = false
  crashes : after.crashes = if svc.unrequested then svc.crashes ++ [now] else svc.crashes

section Reap

variable (svc : Service) (now : Nat)

theorem counted_eq :
    ∃ time number, svc.counted now = { svc with timeCrashed := time, nrCrashed := number } := by
  unfold counted
  split_ifs
  · exact ⟨_, _, rfl⟩
  · exact ⟨_, _, rfl⟩
  · exact ⟨svc.timeCrashed, svc.nrCrashed, rfl⟩

theorem reap_cases : (((svc.exited now).disabled = true ∨ svc.reset = true) ∧
        svc.reap now = (.stopped, svc.exited now)) ∨
      ((svc.exited now).disabled = false ∧ svc.reset = false ∧
        (svc.reap now = (.reboot, (svc.exited now).counted now) ∨
          svc.reap now = (.restarting,
            { (svc.exited now).counted now with restart := false, restarting := true }))) := by
  have same : (svc.exited now).reset = svc.reset := rfl
  unfold reap
  dsimp only
  rw [same]
  cases disabled : (svc.exited now).disabled with
  | true => exact Or.inl ⟨Or.inl rfl, rfl⟩
  | false =>
    cases reset : svc.reset with
    | true => exact Or.inl ⟨Or.inr rfl, rfl⟩
    | false =>
      refine Or.inr ⟨rfl, rfl, ?_⟩
      simp only [Bool.or_false, Bool.false_eq_true, if_false]
      split_ifs
      · exact Or.inl rfl
      · exact Or.inr rfl

theorem reap_exit : Exit svc now (svc.reap now).2 := by
  obtain ⟨time, number, counted⟩ := (svc.exited now).counted_eq now
  rcases svc.reap_cases now with ⟨-, reaped⟩ | ⟨-, -, reaped | reaped⟩
  · rw [reaped]
    exact ⟨rfl, rfl, rfl, rfl, rfl, rfl, rfl, rfl, rfl, rfl, rfl⟩
  · rw [reaped, counted]
    exact ⟨rfl, rfl, rfl, rfl, rfl, rfl, rfl, rfl, rfl, rfl, rfl⟩
  · rw [reaped, counted]
    exact ⟨rfl, rfl, rfl, rfl, rfl, rfl, rfl, rfl, rfl, rfl, rfl⟩

theorem stopped_reap_iff : (svc.reap now).1 = .stopped ↔
      svc.disabled = true ∨ svc.oneshot = true ∧ svc.restart = false ∨ svc.reset = true := by
  have disabled : (svc.exited now).disabled = true ↔
      svc.disabled = true ∨ svc.oneshot = true ∧ svc.restart = false := by
    simp [exited]
  rcases svc.reap_cases now with ⟨halted, reaped⟩ | ⟨enabled, reset, reaped⟩
  · rw [disabled, or_assoc] at halted
    simp [reaped, halted]
  · have none : ¬ (svc.disabled = true ∨ svc.oneshot = true ∧ svc.restart = false) := by
      rw [← disabled, enabled]
      exact nofun
    rw [← or_assoc, reset]
    rcases reaped with reaped | reaped
    · simp [reaped, none]
    · simp [reaped, none]

theorem restarting_reap_iff (idle : svc.restarting = false) :
    (svc.reap now).2.restarting = true ↔ (svc.reap now).1 = .restarting := by
  obtain ⟨time, number, counted⟩ := (svc.exited now).counted_eq now
  rcases svc.reap_cases now with ⟨-, reaped⟩ | ⟨-, -, reaped | reaped⟩
  · rw [reaped]
    simp [exited, idle]
  · rw [reaped, counted]
    simp [exited, idle]
  · simp [reaped]

end Reap

theorem disabled_reap {svc : Service} (now : Nat) (disabled : svc.disabled = true) :
    (svc.reap now).2.disabled = true := by
  rcases svc.reap_cases now with ⟨-, reaped⟩ | ⟨enabled, -⟩
  · simp [reaped, exited, disabled]
  · simp [exited, disabled] at enabled

theorem reap_of_restart {svc : Service} (now : Nat) (restart : svc.restart = true)
    (goes : (svc.reap now).1 ≠ .stopped) : (svc.reap now).1 = .restarting := by
  have kept : (svc.exited now).restart = true := restart
  unfold reap at goes ⊢
  simp only [kept, Bool.not_true, Bool.and_false, Bool.false_and, Bool.false_eq_true, if_false]
    at goes ⊢
  split_ifs at goes ⊢
  · exact absurd rfl goes
  · rfl

end AndroidBoot.Init.State.Service

namespace AndroidBoot.Init.Services

open State Properties
open State.InitState (Quiet Aside gettime_aside)

def published (name : Text) : Text := "init.svc.".toList ++ name

/-- Services whose name does not fit a property name are not published. -/
def notifyServiceState (s : InitState) (name : Text) (state : String) : InitState :=
  if propNameMax < name.length + 10 then s
  else (propertySet s (published name) state.toList).2

def serviceFindByName (s : InitState) (name : Text) : Option Nat :=
  s.services.findIdx? fun svc => svc.name = name

def serviceFindByPid (s : InitState) (pid : Nat) : Option Nat :=
  s.services.findIdx? fun svc => svc.pid = pid

def serviceFindByKeychord (s : InitState) (keychordId : Nat) : Option Nat :=
  s.services.findIdx? fun svc => svc.keychordId = keychordId

variable {i : Nat}

theorem exists_of_findIdx {services : List Service} {test : Service → Bool}
    (first : services.findIdx? test = some i) :
    ∃ svc, services[i]? = some svc ∧ test svc = true := by
  obtain ⟨inside, passes, -⟩ := List.findIdx?_eq_some_iff_getElem.mp first
  exact ⟨services[i], List.getElem?_eq_getElem inside, passes⟩

/-- `service_start`; of the dynamic arguments only whether there are any matters here. -/
def serviceStart (s : InitState) (i : Nat) (dynamicArgs : Bool) : InitState :=
  match s.services[i]? with
  | none => s
  | some svc =>
    match svc.outcome s.haveConsole dynamicArgs with
    | .launched wanted =>
      let pid := s.freshPid wanted
      let (now, s) := s.gettime
      let s := s.put i (svc.start pid now (.launched wanted))
      if s.propertyAreaInited then notifyServiceState s svc.name "running" else s
    | outcome => s.put i (svc.start 0 0 outcome)

def serviceStopOrReset (s : InitState) (i : Nat) (how : How) : InitState :=
  match s.services[i]? with
  | none => s
  | some svc =>
    let s := s.put i (svc.stopOrReset how)
    if svc.pid ≠ 0 then notifyServiceState s svc.name "stopping"
    else notifyServiceState s svc.name "stopped"

def serviceReset (s : InitState) (i : Nat) : InitState := serviceStopOrReset s i .reset

def serviceStop (s : InitState) (i : Nat) : InitState := serviceStopOrReset s i .disabled

def serviceRestart (s : InitState) (i : Nat) : InitState :=
  match s.services[i]? with
  | none => s
  | some svc =>
    if svc.running then serviceStopOrReset s i .restart
    else if !svc.restarting then serviceStart s i false
    else s

def serviceForEach (s : InitState) (test : Service → Bool) (f : InitState → Nat → InitState) :
    InitState :=
  (List.range s.services.length).foldl
    (fun s i => if s.services[i]?.any test then f s i else s) s

def serviceStartIfNotDisabled (s : InitState) (i : Nat) : InitState :=
  if s.services[i]?.any fun svc => !svc.disabled then serviceStart s i false else s

def restartServiceIfNeeded (s : InitState) (i : Nat) : InitState :=
  match s.services[i]? with
  | none => s
  | some svc =>
    let nextStartTime := svc.timeStarted + 5
    let (now, s) := s.gettime
    if nextStartTime ≤ now then
      serviceStart (s.put i { svc with restarting := false }) i false
    else if nextStartTime < s.processNeedsRestart || s.processNeedsRestart = 0 then
      { s with processNeedsRestart := nextStartTime }
    else s

def restartProcesses (s : InitState) : InitState :=
  serviceForEach { s with processNeedsRestart := 0 } (·.restarting) restartServiceIfNeeded

variable {s : InitState}

theorem notifyServiceState_keeps {P : InitState → Prop}
    (write : ∀ name value, P (propertySet s name value).2) (h : P s) (name : Text)
    (state : String) : P (notifyServiceState s name state) := by
  unfold notifyServiceState
  split_ifs
  · exact h
  · exact write _ _

theorem notifyServiceState_quiet (s : InitState) (name : Text) (state : String) :
    Quiet s (notifyServiceState s name state) :=
  notifyServiceState_keeps (propertySet_quiet s) (Quiet.refl s) name state

theorem notifyServiceState_properties (s : InitState) (name : Text) (state : String) :
    (notifyServiceState s name state).properties =
      if propNameMax < name.length + 10 then s.properties
      else (store s (published name) state.toList).2.properties := by
  unfold notifyServiceState
  split_ifs
  · rfl
  · rcases (propertySet_spec s (published name) state.toList).2.2 with direct | ⟨-, net, -⟩
    · exact direct
    · cases net

theorem notifyServiceState_elsewhere {name other : Text} {state : String}
    (differs : other ≠ published name) :
    (notifyServiceState s name state).properties other = s.properties other := by
  rw [notifyServiceState_properties]
  split_ifs
  · rfl
  · exact store_elsewhere differs

def LegalStore (s : InitState) : Prop :=
  ∀ name value, s.properties name = some value → isLegalPropertyName name = true

theorem legalStore_store (legal : LegalStore s) (name value : Text) :
    LegalStore (store s name value).2 := by
  obtain ⟨-, takes, properties⟩ := store_spec s name value
  intro other old present
  rw [properties] at present
  split_ifs at present with stored
  · by_cases same : other = name
    · exact same ▸ (takes.mp stored).1
    · rw [Function.update_of_ne same] at present
      exact legal other old present
  · exact legal other old present

theorem legalStore_propertySet (legal : LegalStore s) (name value : Text) :
    LegalStore (propertySet s name value).2 := by
  have stored := legalStore_store legal name value
  intro other old present
  rcases (propertySet_spec s name value).2.2 with direct | ⟨-, -, -, tracked⟩
  · rw [direct] at present
    exact stored other old present
  · rw [tracked] at present
    exact legalStore_store stored "net.change".toList name other old present

theorem notifyServiceState_value (legal : LegalStore s) (name : Text)
    {state : String} (short : state.toList.length < propValueMax) :
    (notifyServiceState s name state).properties (published name) = some state.toList ∨
      (notifyServiceState s name state).properties (published name) = none := by
  have free : startsWith "ro." (published name) = false := rfl
  rw [notifyServiceState_properties]
  split_ifs with long
  · cases present : s.properties (published name) with
    | none => exact Or.inr rfl
    | some old =>
      have fits := legal _ _ present
      have size : (published name).length = 9 + name.length := List.length_append
      unfold isLegalPropertyName at fits
      simp only [Bool.and_eq_true, decide_eq_true_eq] at fits
      omega
  · obtain ⟨-, takes, properties⟩ := store_spec s (published name) state.toList
    rw [properties]
    split_ifs with stored
    · exact Or.inl (Function.update_self _ _ _)
    · cases present : s.properties (published name) with
      | none => exact Or.inr rfl
      | some old =>
        refine absurd (takes.mpr ⟨legal _ _ present, short, fun none => ?_, fun _ => free⟩) stored
        rw [present] at none
        cases none

theorem freshPid_fresh (s : InitState) (wanted : Nat) :
    s.freshPid wanted ≠ 0 ∧ s.freshPid wanted ∉ s.services.map Service.pid := by
  unfold InitState.freshPid
  dsimp only
  split_ifs with free
  · exact free
  · refine ⟨Nat.succ_ne_zero _, fun taken => ?_⟩
    have bound : ∀ pids : List Nat, ∀ pid ∈ pids, pid ≤ pids.foldr max 0 := by
      intro pids
      induction pids with
      | nil => exact nofun
      | cons p rest ih =>
        exact List.forall_mem_cons.mpr ⟨Nat.le_max_left _ _,
          fun pid member => Nat.le_trans (ih pid member) (Nat.le_max_right _ _)⟩
    have := bound _ _ taken
    omega

theorem serviceStart_of_missing (missing : s.services[i]? = none)
    (dynamicArgs : Bool) : serviceStart s i dynamicArgs = s := by
  unfold serviceStart
  rw [missing]

theorem serviceStopOrReset_of_missing
    (missing : s.services[i]? = none) (how : How) : serviceStopOrReset s i how = s := by
  unfold serviceStopOrReset
  rw [missing]

variable {svc : Service}

section Found

variable (found : s.services[i]? = some svc)
include found

theorem serviceStart_cases (dynamicArgs : Bool) :
    (∃ wanted t, svc.outcome s.haveConsole dynamicArgs = .launched wanted ∧
      t = s.gettime.2.put i (svc.start (s.freshPid wanted) s.gettime.1 (.launched wanted)) ∧
      serviceStart s i dynamicArgs =
        if s.propertyAreaInited then notifyServiceState t svc.name "running" else t) ∨
    ((∀ wanted, svc.outcome s.haveConsole dynamicArgs ≠ .launched wanted) ∧
      serviceStart s i dynamicArgs =
        s.put i (svc.start 0 0 (svc.outcome s.haveConsole dynamicArgs))) := by
  unfold serviceStart
  rw [found]
  dsimp only
  cases svc.outcome s.haveConsole dynamicArgs with
  | launched wanted => exact Or.inl ⟨wanted, _, rfl, rfl, rfl⟩
  | alreadyRunning | refused | noContext | noFork => exact Or.inr ⟨nofun, rfl⟩

theorem serviceStopOrReset_eq (how : How) : serviceStopOrReset s i how =
      notifyServiceState (s.put i (svc.stopOrReset how)) svc.name
        (if svc.pid ≠ 0 then "stopping" else "stopped") := by
  unfold serviceStopOrReset
  rw [found]
  dsimp only
  split_ifs <;> rfl

theorem serviceStart_spec (dynamicArgs : Bool) :
    ∃ pid now, pid ≠ 0 ∧ pid ∉ s.services.map Service.pid ∧
      s.clock ≤ now ∧ now ≤ (serviceStart s i dynamicArgs).clock ∧
      (serviceStart s i dynamicArgs).services =
        s.services.set i (svc.start pid now (svc.outcome s.haveConsole dynamicArgs)) := by
  rcases serviceStart_cases found dynamicArgs with
    ⟨wanted, t, launched, rfl, starts⟩ | ⟨fails, starts⟩
  · obtain ⟨nonzero, fresh⟩ := freshPid_fresh s wanted
    refine ⟨_, s.gettime.1, nonzero, fresh, (gettime_aside s).clock, ?_⟩
    rw [starts, launched]
    split_ifs
    · have quiet := notifyServiceState_quiet
        (s.gettime.2.put i (svc.start (s.freshPid wanted) s.gettime.1 (.launched wanted)))
        svc.name "running"
      exact ⟨quiet.clock, quiet.services⟩
    · exact ⟨Nat.le_refl _, rfl⟩
  · obtain ⟨nonzero, fresh⟩ := freshPid_fresh s 0
    refine ⟨_, s.clock, nonzero, fresh, Nat.le_refl _, ?_⟩
    rw [starts]
    cases outcome : svc.outcome s.haveConsole dynamicArgs with
    | launched wanted => exact absurd outcome (fails wanted)
    | alreadyRunning | refused | noContext | noFork => exact ⟨Nat.le_refl _, rfl⟩

theorem serviceStopOrReset_spec (how : How) : s.clock ≤ (serviceStopOrReset s i how).clock ∧
      (serviceStopOrReset s i how).services = s.services.set i (svc.stopOrReset how) := by
  rw [serviceStopOrReset_eq found]
  have quiet := notifyServiceState_quiet (s.put i (svc.stopOrReset how)) svc.name
  exact ⟨(quiet _).clock, (quiet _).services⟩

end Found

theorem serviceStart_rebooting (s : InitState) (i : Nat) (dynamicArgs : Bool)
    (h : s.rebooting = true) : (serviceStart s i dynamicArgs).rebooting = true := by
  cases found : s.services[i]? with
  | none => rwa [serviceStart_of_missing found]
  | some svc =>
    rcases serviceStart_cases found dynamicArgs with ⟨wanted, t, -, rfl, starts⟩ | ⟨-, starts⟩
    · rw [starts]
      split_ifs
      · exact (notifyServiceState_quiet _ _ _).rebooting h
      · exact h
    · rw [starts]
      exact h

theorem serviceStopOrReset_rebooting (s : InitState) (i : Nat) (how : How)
    (h : s.rebooting = true) : (serviceStopOrReset s i how).rebooting = true := by
  cases found : s.services[i]? with
  | none => rwa [serviceStopOrReset_of_missing found]
  | some svc =>
    rw [serviceStopOrReset_eq found]
    exact (notifyServiceState_quiet _ _ _).rebooting h

/-- A call on a service touches no other service and no other property. -/
structure Local (s : InitState) (i : Nat) (t : InitState) : Prop where
  services : ∀ j, j ≠ i → t.services[j]? = s.services[j]?
  properties : ∀ name, t.properties name ≠ s.properties name →
    ∃ svc, s.services[i]? = some svc ∧ name = published svc.name

theorem Local.refl (s : InitState) (i : Nat) : Local s i s :=
  ⟨fun _ _ => rfl, fun _ changed => absurd rfl changed⟩

theorem local_of_set {s t : InitState} {svc new : Service}
    (found : s.services[i]? = some svc) (services : t.services = s.services.set i new)
    (properties : ∀ name, name ≠ published svc.name → t.properties name = s.properties name) :
    Local s i t := by
  constructor
  · intro j other
    rw [services, List.getElem?_set_ne (Ne.symm other)]
  · intro name changed
    refine ⟨svc, found, ?_⟩
    by_contra differs
    exact changed (properties name differs)

theorem serviceStart_local (s : InitState) (i : Nat) (dynamicArgs : Bool) :
    Local s i (serviceStart s i dynamicArgs) := by
  cases found : s.services[i]? with
  | none =>
    rw [serviceStart_of_missing found]
    exact Local.refl s i
  | some svc =>
    obtain ⟨pid, now, -, -, -, -, services⟩ := serviceStart_spec found dynamicArgs
    apply local_of_set found services
    intro name differs
    rcases serviceStart_cases found dynamicArgs with ⟨wanted, t, -, rfl, starts⟩ | ⟨-, starts⟩
    · rw [starts]
      split_ifs
      · exact notifyServiceState_elsewhere differs
      · rfl
    · rw [starts]
      rfl

theorem serviceStopOrReset_local (s : InitState) (i : Nat) (how : How) :
    Local s i (serviceStopOrReset s i how) := by
  cases found : s.services[i]? with
  | none =>
    rw [serviceStopOrReset_of_missing found]
    exact Local.refl s i
  | some svc =>
    obtain ⟨-, services⟩ := serviceStopOrReset_spec found how
    apply local_of_set found services
    intro name differs
    rw [serviceStopOrReset_eq found]
    exact notifyServiceState_elsewhere differs

theorem serviceRestart_local (s : InitState) (i : Nat) : Local s i (serviceRestart s i) := by
  unfold serviceRestart
  split
  · exact Local.refl s i
  · split_ifs
    · exact serviceStopOrReset_local s i .restart
    · exact serviceStart_local s i false
    · exact Local.refl s i

end AndroidBoot.Init.Services
