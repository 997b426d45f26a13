/- source: init/init/init.c
   digest: The events of init, and how what the service calls keep is kept by every event. -/

import AndroidBoot.Foundation.Run
import AndroidBoot.Init.Commands
import AndroidBoot.Init.PropertyService

set_option autoImplicit false

namespace AndroidBoot.Init.Machine

open State Properties Services Commands PropertyService
open State.InitState (Quiet Aside ask_aside gettime_aside)

variable {s : InitState} {i : Nat}

/-- What the main loop and the boot sequence do, and the service calls by themselves. -/
inductive Event
  | serviceStart (i : Nat) (dynamicArgs : Bool)
  | serviceStop (i : Nat)
  | serviceReset (i : Nat)
  | serviceRestart (i : Nat)
  | executeOneCommand
  | restartProcesses
  | message (m : Message)
  | keychord (id : Nat)
  | childExit (pid : Nat)
  | propertySet (name value : Text)
  | loadPropertiesFromFile
  | loadPersistentProperties

def handle (s : InitState) : Event → InitState
  | .serviceStart i dynamicArgs => serviceStart s i dynamicArgs
  | .serviceStop i => serviceStop s i
  | .serviceReset i => serviceReset s i
  | .serviceRestart i => serviceRestart s i
  | .executeOneCommand => executeOneCommand s
  | .restartProcesses => restartProcesses s
  | .message m => handlePropertySetFd s m
  | .keychord id => handleKeychord s id
  | .childExit pid => waitForOneProcess s pid
  | .propertySet name value => (propertySet s name value).2
  | .loadPropertiesFromFile => loadPropertiesFromFile s
  | .loadPersistentProperties => loadPersistentProperties s

/-- Nothing happens once the device reboots. -/
def step (s : InitState) (event : Event) : Option InitState :=
  if s.rebooting then none else some (handle s event)

theorem step_eq_some {t : InitState} {event : Event} (next : step s event = some t) :
    t = handle s event ∧ s.rebooting = false := by
  unfold step at next
  split_ifs at next with alive
  exact ⟨(Option.some.inj next).symm, by simpa using alive⟩

/-- The service that `parse_service` allocates; its options come after. -/
def parseService (name : Text) : Service where
  name := name
  classname := "default".toList
  disabled := false
  oneshot := false
  running := false
  restarting := false
  console := false
  critical := false
  reset := false
  rcDisabled := false
  restart := false
  pid := 0
  timeStarted := 0
  timeCrashed := 0
  nrCrashed := 0
  seclabel := none
  onrestart := []
  keychordId := 0
  launches := fun _ => {}
  started := false
  requests := []
  crashes := []

def Fresh (svc : Service) : Prop :=
  svc.running = false ∧ svc.restarting = false ∧ svc.restart = false ∧ svc.pid = 0 ∧
    svc.timeCrashed = 0 ∧ svc.nrCrashed = 0 ∧ svc.started = false ∧ svc.requests = [] ∧
    svc.crashes = []

instance (svc : Service) : Decidable (Fresh svc) := by
  unfold Fresh
  infer_instance

def booting (services : List Service) (actions : List Action) : InitState where
  ids := ⟨1000, 1001, 1002, 1007, 1014, 2000, (· % 100000)⟩
  services := services
  properties := fun _ => none
  propertyAreaInited := true
  persistentPropertiesLoaded := false
  propertyTriggersEnabled := false
  haveConsole := false
  processNeedsRestart := 0
  actions := actions
  actionQueue := []
  current := none
  persisted := fun _ => none
  allowLocalPropOverride := false
  clock := 0
  world := fun _ => {}
  rebooting := false

/-- The time that passes up to each answer of the system. -/
def clocked (services : List Service) (passing : Nat → Nat) : InitState :=
  { booting services [] with world := fun n => { elapsed := passing n } }

/-- `P` survives the calls on services that satisfy `calls`, and properties set under names that
satisfy `writes`. -/
structure Keeps (writes : Text → Prop) (calls : Service → Prop) (P : InitState → Prop) : Prop where
  ordinary : ∀ name, startsWith "init.svc." name = false → writes name
  files : ∀ s, P s → ∀ n content, (s.world n).file = some content →
    ∀ d ∈ definitions (content ++ ['\n']), writes d.1
  aside : ∀ s t, Aside s t → P s → P t
  write : ∀ s name value, writes name → P s → P (propertySet s name value).2
  start : ∀ s (i : Nat), (∀ svc, s.services[i]? = some svc → calls svc) → P s →
    P (serviceStart s i false)
  stop : ∀ s (i : Nat) how,
    (∀ svc, s.services[i]? = some svc → calls svc ∧ (how = .restart → svc.running = true)) →
    P s → P (serviceStopOrReset s i how)

/-- The properties that a command sets and the services it calls. -/
def CommandFits (writes : Text → Prop) (calls : Service → Prop) : Command → Prop
  | .start name | .stop name | .restart name => ∀ svc : Service, svc.name = name → calls svc
  | .classStart classname | .classStop classname | .classReset classname =>
    ∀ svc : Service, svc.classname = classname → calls svc
  | .setprop name _ => writes name
  | _ => True

theorem not_service_of_persist {name : Text} (persist : startsWith "persist." name = true) :
    startsWith "init.svc." name = false := by
  obtain ⟨rest, rfl⟩ := List.isPrefixOf_iff_prefix.mp persist
  rfl

theorem serviceStart_put {svc : Service} (found : s.services[i]? = some svc) (dynamicArgs : Bool) :
    serviceStart (s.put i { svc with restarting := false }) i dynamicArgs =
      serviceStart s i dynamicArgs := by
  obtain ⟨inside, at_i⟩ := List.getElem?_eq_some_iff.mp found
  have now : (s.put i { svc with restarting := false }).services[i]? =
      some { svc with restarting := false } := by
    simp [InitState.put, inside]
  have pids : (s.put i { svc with restarting := false }).services.map Service.pid =
      s.services.map Service.pid := by
    simp only [InitState.put, List.map_set]
    apply List.ext_getElem?
    intro j
    rw [List.getElem?_set]
    split_ifs with same
    · subst same; simp [found]
    · subst same; simp_all
    · rfl
  have fresh (wanted : Nat) : (s.put i { svc with restarting := false }).freshPid wanted =
      s.freshPid wanted := by
    simp only [InitState.freshPid, pids]
  have twice (t : InitState) (svc' : Service) :
      (t.put i { svc with restarting := false }).put i svc' = t.put i svc' := by
    simp [InitState.put]
  have outcome : Service.outcome { svc with restarting := false }
      (s.put i { svc with restarting := false }).haveConsole dynamicArgs =
      svc.outcome s.haveConsole dynamicArgs := rfl
  unfold serviceStart
  rw [now, found]
  dsimp only
  rw [outcome]
  cases svc.outcome s.haveConsole dynamicArgs with
  | launched wanted =>
    dsimp only
    rw [fresh]
    exact congrArg (fun t : InitState =>
      if t.propertyAreaInited then notifyServiceState t svc.name "running" else t)
      (twice s.gettime.2 _)
  | alreadyRunning | refused | noContext | noFork => exact twice s _

theorem nextCommand_aside (s : InitState) : Aside s (nextCommand s).2 := by
  unfold nextCommand
  split_ifs
  · cases s.actionQueue with
    | nil | cons => exact Aside.of_same rfl rfl rfl rfl rfl rfl id
  · cases current : s.current with
    | none => exact Aside.refl s
    | some place => exact Aside.of_same rfl rfl rfl rfl rfl rfl id

theorem waitForOneProcess_cases (s : InitState) (pid : Nat) :
    waitForOneProcess s pid = s ∨
      ∃ i svc, s.services[i]? = some svc ∧ svc.pid ≠ 0 ∧
        waitForOneProcess s pid = reapService s i svc := by
  unfold waitForOneProcess
  split_ifs with child
  · exact Or.inl rfl
  · cases byPid : serviceFindByPid s pid with
    | none => exact Or.inl rfl
    | some i =>
      obtain ⟨svc, found, same⟩ := exists_of_findIdx byPid
      have owns : svc.pid = pid := by simpa using same
      exact Or.inr ⟨i, svc, found, by omega, by simp [found]⟩

def reaped (s : InitState) (i : Nat) (svc : Service) : InitState :=
  let (now, s) := s.gettime
  match svc.reap now with
  | (.reboot, svc) => { s.put i svc with rebooting := true }
  | (_, svc) => s.put i svc

theorem reaped_services (s : InitState) (i : Nat) (svc : Service) :
    (reaped s i svc).services = s.services.set i (svc.reap s.gettime.1).2 ∧
      (reaped s i svc).clock = s.gettime.1 := by
  unfold reaped
  dsimp only
  rcases svc.reap s.gettime.1 with ⟨_ | _ | _, after⟩ <;> exact ⟨rfl, rfl⟩

variable {f : InitState → Nat → InitState}

theorem serviceForEach_keeps {P : InitState → Prop} {test : Service → Bool}
    (one : ∀ s (i : Nat), (∀ svc, s.services[i]? = some svc → test svc = true) → P s → P (f s i))
    (h : P s) : P (serviceForEach s test f) := by
  unfold serviceForEach
  generalize List.range s.services.length = places
  induction places generalizing s with
  | nil => exact h
  | cons i rest ih =>
    rw [List.foldl_cons]
    apply ih
    split_ifs with passes
    · refine one _ _ (fun svc found => ?_) h
      simpa [found] using passes
    · exact h

theorem onService_keeps {P : InitState → Prop} {name : Text}
    (one : ∀ s (i : Nat), (∀ svc, s.services[i]? = some svc → svc.name = name) → P s → P (f s i))
    (h : P s) : P (onService s name f) := by
  unfold onService
  split
  · exact h
  · rename_i i first
    obtain ⟨svc, found, named⟩ := exists_of_findIdx first
    refine one _ _ (fun other same => ?_) h
    obtain rfl := Option.some.inj (found.symm.trans same)
    simpa using named

namespace Keeps

variable {writes : Text → Prop} {calls : Service → Prop} {P : InitState → Prop}

section Keeps

variable (keeps : Keeps writes calls P)
include keeps

theorem setAll {list : List (Text × Text)}
    (names : ∀ d ∈ list, writes d.1) (h : P s) : P (setAll s list) := by
  induction list generalizing s with
  | nil => exact h
  | cons d rest ih =>
    obtain ⟨first, others⟩ := List.forall_mem_cons.mp names
    exact ih others (keeps.write _ _ _ first h)

theorem loadPropertiesFromFile (h : P s) : P (loadPropertiesFromFile s) := by
  have asked : P s.ask.2 := keeps.aside _ _ (ask_aside s) h
  unfold Properties.loadPropertiesFromFile
  dsimp only
  split
  · exact asked
  · rename_i content read
    exact keeps.setAll (keeps.files s h 0 content read) asked

theorem loadPersistentProperties (h : P s) : P (loadPersistentProperties s) := by
  have asked : P s.ask.2 := keeps.aside _ _ (ask_aside s) h
  suffices set : P (Properties.setAll s.ask.2
      ((s.ask.1.directory.getD []).filterMap persistentDefinition)) by
    exact keeps.aside (Properties.setAll _ _) _ (Aside.of_same rfl rfl rfl rfl rfl rfl id) set
  apply keeps.setAll _ asked
  intro d defined
  obtain ⟨entry, -, found⟩ := List.mem_filterMap.mp defined
  unfold persistentDefinition at found
  split_ifs at found with persist
  obtain ⟨content, -, rfl⟩ := Option.map_eq_some_iff.mp found
  apply keeps.ordinary
  exact not_service_of_persist (by simpa using persist)

theorem loadPersistProps (h : P s) : P (loadPersistProps s) := by
  apply keeps.loadPersistentProperties
  unfold loadOverrideProperties
  split_ifs
  · exact keeps.loadPropertiesFromFile h
  · exact h

section Stopping

variable (fits : ∀ svc, s.services[i]? = some svc → calls svc) (h : P s)
include fits h

theorem serviceStop : P (serviceStop s i) :=
  keeps.stop s i .disabled (fun svc found => ⟨fits svc found, nofun⟩) h

theorem serviceReset : P (serviceReset s i) :=
  keeps.stop s i .reset (fun svc found => ⟨fits svc found, nofun⟩) h

theorem serviceRestart : P (serviceRestart s i) := by
  unfold Services.serviceRestart
  split
  · exact h
  · rename_i svc found
    split_ifs with running
    · refine keeps.stop s i .restart (fun other same => ⟨fits other same, fun _ => ?_⟩) h
      obtain rfl := Option.some.inj (found.symm.trans same)
      exact running
    · exact keeps.start s i fits h
    · exact h

end Stopping

theorem runCommand {command : Command}
    (fits : CommandFits writes calls command) (h : P s) : P (runCommand s command) := by
  have reboots (s : InitState) (h : P s) : P { s with rebooting := true } :=
    keeps.aside s _ (Aside.of_same rfl rfl rfl rfl rfl rfl fun _ => rfl) h
  cases command with
  | start name =>
    exact onService_keeps (fun s i named h =>
      keeps.start s i (fun svc found => fits svc (named svc found)) h) h
  | stop name =>
    exact onService_keeps (fun s i named h =>
      keeps.serviceStop (fun svc found => fits svc (named svc found)) h) h
  | restart name =>
    exact onService_keeps (fun s i named h =>
      keeps.serviceRestart (fun svc found => fits svc (named svc found)) h) h
  | classStart classname =>
    refine serviceForEach_keeps (fun s i member h => ?_) h
    unfold serviceStartIfNotDisabled
    split_ifs
    · exact keeps.start s i (fun svc found => fits svc (by simpa using member svc found)) h
    · exact h
  | classStop classname =>
    exact serviceForEach_keeps (fun s i member h =>
      keeps.serviceStop (fun svc found => fits svc (by simpa using member svc found)) h) h
  | classReset classname =>
    exact serviceForEach_keeps (fun s i member h =>
      keeps.serviceReset (fun svc found => fits svc (by simpa using member svc found)) h) h
  | setprop name value =>
    simp only [Commands.runCommand, doSetprop]
    split
    · exact h
    · exact keeps.write _ _ _ fits h
  | trigger name => exact keeps.aside _ _ (queueActions_aside _ _) h
  | loadPersistProps => exact keeps.loadPersistProps h
  | mountAll =>
    have asked : P s.ask.2 := keeps.aside _ _ (ask_aside s) h
    have crypto (value : Text) : P (propertySet s.ask.2 "ro.crypto.state".toList value).2 :=
      keeps.write _ _ _ (keeps.ordinary _ (by decide)) asked
    simp only [Commands.runCommand, doMountAll]
    split_ifs
    · exact keeps.write _ _ _ (keeps.ordinary _ (by decide)) (crypto _)
    · exact keeps.aside _ _ (queueActions_aside _ _) (crypto _)
    · exact asked
  | powerctl arg =>
    simp only [Commands.runCommand, doPowerctl]
    split
    · exact h
    · split_ifs
      · exact reboots _ h
      · exact h
      · exact reboots _ h
      · exact h
      · exact h
  | consoleInit =>
    have asked : P s.ask.2 := keeps.aside _ _ (ask_aside s) h
    simp only [Commands.runCommand, consoleInit]
    split_ifs
    · exact keeps.aside s.ask.2 _
        ⟨⟨rfl, rfl, fun _ => rfl, Nat.le_refl _, ⟨0, by simp⟩, id⟩, rfl⟩ asked
    · exact asked
  | propertyServiceInit =>
    exact keeps.loadPersistProps (keeps.loadPropertiesFromFile (keeps.loadPropertiesFromFile h))
  | queuePropertyTriggers =>
    exact keeps.aside _ _ ((queueActions_aside _ _).trans
      (Aside.of_same rfl rfl rfl rfl rfl rfl id)) h
  | other => exact h

theorem runCommands {commands : List Command}
    (fits : ∀ command ∈ commands, CommandFits writes calls command) (h : P s) :
    P (runCommands s commands) := by
  unfold Commands.runCommands
  induction commands generalizing s with
  | nil => exact h
  | cons command rest ih =>
    obtain ⟨first, others⟩ := List.forall_mem_cons.mp fits
    rw [List.foldl_cons]
    apply ih others
    split_ifs
    · exact h
    · exact keeps.runCommand first h

theorem executeOneCommand
    (fits : ∀ command ∈ (nextCommand s).1, CommandFits writes calls command) (h : P s) :
    P (executeOneCommand s) := by
  have moved : P (nextCommand s).2 := keeps.aside _ _ (nextCommand_aside s) h
  unfold Commands.executeOneCommand
  split
  · rename_i t comes
    rw [comes] at moved
    exact moved
  · rename_i command t comes
    rw [comes] at moved fits
    exact keeps.runCommand (fits command rfl) moved

end Keeps

end Keeps

abbrev KeepsAny (writes : Text → Prop) (P : InitState → Prop) : Prop :=
  Keeps writes (fun _ => True) P

namespace KeepsAny

variable {writes : Text → Prop} {P : InitState → Prop}

section

variable (keeps : KeepsAny writes P)
include keeps

theorem needsRestart (time : Nat) (h : P s) : P { s with processNeedsRestart := time } :=
  keeps.aside s _ (Aside.of_same rfl rfl rfl rfl rfl rfl id) h

theorem restartServiceIfNeeded (h : P s) : P (restartServiceIfNeeded s i) := by
  have later : P s.gettime.2 := keeps.aside _ _ (gettime_aside s) h
  unfold Services.restartServiceIfNeeded
  split
  · exact h
  · rename_i svc found
    dsimp only
    split_ifs
    · rw [serviceStart_put (s := s.gettime.2) found]
      exact keeps.start _ _ (fun _ _ => trivial) later
    · exact keeps.needsRestart _ later
    · exact later

theorem restartProcesses (h : P s) : P (restartProcesses s) :=
  serviceForEach_keeps (fun _ _ _ => keeps.restartServiceIfNeeded) (keeps.needsRestart 0 h)

theorem handleKeychord {id : Nat} (h : P s) : P (handleKeychord s id) := by
  unfold Commands.handleKeychord
  split_ifs
  · split
    · exact h
    · exact keeps.start _ _ (fun _ _ => trivial) h
  · exact h

theorem message {m : Message} (name : writes m.propertyName) (startWith : ∀ t i, Aside s t → P t →
      serviceFindByName t (m.propertyValue.takeWhile (· ≠ ':')) = some i →
      m.propertyName = "ctl.start".toList → ':' ∈ m.propertyValue → P (serviceStart t i true))
    (h : P s) : P (handlePropertySetFd s m) := by
  rcases handlePropertySetFd_cases s m with aside | ⟨-, -, set⟩ | ⟨-, t, i, aside, call⟩
  · exact keeps.aside _ _ aside h
  · rw [set]
    exact keeps.write _ _ _ name (keeps.aside _ _ (ask_aside s) h)
  · have before : P t := keeps.aside _ _ aside h
    generalize handlePropertySetFd s m = after at call
    cases call with
    | start => exact keeps.start t i (fun _ _ => trivial) before
    | startWith named found arguments => exact startWith t i aside before found named arguments
    | stop => exact keeps.serviceStop (fun _ _ => trivial) before
    | restart => exact keeps.serviceRestart (fun _ _ => trivial) before

end

theorem handle (keeps : KeepsAny (fun _ => True) P)
    (startWith : ∀ s i, P s → P (serviceStart s i true))
    (reap : ∀ i svc, s.services[i]? = some svc → svc.pid ≠ 0 → P (reaped s i svc)) (event : Event)
    (h : P s) : P (handle s event) := by
  have notify (s : InitState) (h : P s) (name : Text) (state : String) :
      P (notifyServiceState s name state) :=
    notifyServiceState_keeps (fun name value => keeps.write s name value trivial h) h name state
  have fits (command : Command) : CommandFits (fun _ => True) (fun _ => True) command := by
    cases command <;> first | exact trivial | exact fun _ _ => trivial
  cases event with
  | serviceStart i dynamicArgs =>
    cases dynamicArgs with
    | false => exact keeps.start s i (fun _ _ => trivial) h
    | true => exact startWith s i h
  | serviceStop i => exact keeps.serviceStop (fun _ _ => trivial) h
  | serviceReset i => exact keeps.serviceReset (fun _ _ => trivial) h
  | serviceRestart i => exact keeps.serviceRestart (fun _ _ => trivial) h
  | executeOneCommand => exact keeps.executeOneCommand (fun command _ => fits command) h
  | restartProcesses => exact restartProcesses keeps h
  | message m => exact message keeps trivial (fun t i _ before _ _ _ => startWith t i before) h
  | keychord id => exact handleKeychord keeps h
  | childExit pid =>
    rcases waitForOneProcess_cases s pid with unchanged | ⟨i, svc, found, child, reaps⟩
    · rw [Machine.handle, unchanged]
      exact h
    · have decided := reap i svc found child
      rw [Machine.handle, reaps]
      unfold reapService
      unfold reaped at decided
      dsimp only at decided ⊢
      rcases verdict : svc.reap s.gettime.1 with ⟨_ | _ | _, after⟩
      all_goals rw [verdict] at decided
      · exact notify _ decided _ _
      · exact decided
      · have ran : P (Commands.runCommands (s.gettime.2.put i after) after.onrestart) :=
          keeps.runCommands (fun command _ => fits command) decided
        dsimp only
        split_ifs
        · exact ran
        · exact notify _ ran _ _
  | propertySet name value => exact keeps.write s name value trivial h
  | loadPropertiesFromFile => exact keeps.loadPropertiesFromFile h
  | loadPersistentProperties => exact keeps.loadPersistentProperties h

end KeepsAny

section Properties

variable {P : InitState → Prop} (same : ∀ s t, t.properties = s.properties → P s → P t)
  (write : ∀ s name value, P s → P (propertySet s name value).2)
include same write

theorem serviceStart_of_write (s : InitState) (i : Nat) (dynamicArgs : Bool) (h : P s) :
    P (serviceStart s i dynamicArgs) := by
  cases found : s.services[i]? with
  | none => rwa [serviceStart_of_missing found]
  | some svc =>
    rcases serviceStart_cases found dynamicArgs with
      ⟨wanted, t, -, launched, starts⟩ | ⟨-, starts⟩
    · have put : P t := same s t (by rw [launched]; rfl) h
      rw [starts]
      split_ifs
      · exact notifyServiceState_keeps (fun name value => write t name value put) put _ _
      · exact put
    · rw [starts]
      exact same s _ rfl h

theorem serviceStopOrReset_of_write (s : InitState) (i : Nat) (how : How) (h : P s) :
    P (serviceStopOrReset s i how) := by
  cases found : s.services[i]? with
  | none => rwa [serviceStopOrReset_of_missing found]
  | some svc =>
    have put : P (s.put i (svc.stopOrReset how)) := same s _ rfl h
    rw [serviceStopOrReset_eq found]
    exact notifyServiceState_keeps (fun name value => write _ name value put) put _ _

theorem keeps_of_write : KeepsAny (fun _ => True) P where
  ordinary := fun _ _ => trivial
  files := fun _ _ _ _ _ _ _ => trivial
  aside := fun s t aside h => same s t aside.properties h
  write := fun s name value _ h => write s name value h
  start := fun s i _ h => serviceStart_of_write same write s i false h
  stop := fun s i how _ h => serviceStopOrReset_of_write same write s i how h

theorem handle_of_write (event : Event) (h : P s) : P (handle s event) := by
  refine KeepsAny.handle (keeps_of_write same write) ?_ ?_ event h
  · exact fun s i h => serviceStart_of_write same write s i true h
  · intro i svc _ _
    refine same s _ ?_ h
    unfold reaped
    dsimp only
    rcases svc.reap s.gettime.1 with ⟨_ | _ | _, after⟩ <;> rfl

end Properties

end AndroidBoot.Init.Machine
