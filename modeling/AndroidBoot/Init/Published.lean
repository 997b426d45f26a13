/- source: init/init/init.c, init/init/signal_handler.c
   digest: When the states published as init.svc properties agree with the flags of the services. -/

import AndroidBoot.Init.ServiceSafety

set_option autoImplicit false

namespace AndroidBoot.Init.Published

open State Properties Services Commands PropertyService Machine ServiceSafety
open State.InitState (Quiet Aside gettime_aside)
open Foundation.Run

variable {svc : Service} {haveConsole dynamicArgs : Bool}

def Truthful (svc : Service) (value : Option Text) : Prop :=
  (value = some "running".toList ∨ value = some "stopping".toList → svc.running = true) ∧
    (value = some "restarting".toList → svc.restarting = true) ∧
    (value = some "stopped".toList → svc.running = false ∧ svc.restarting = false)

/-- The coming start of a service that is due for one gets it running. -/
def Ready (svc : Service) (haveConsole : Bool) : Prop :=
  svc.restarting = true →
    svc.Startable haveConsole false ∧
      ((svc.launches 0).selinuxEnabled = true → svc.hasContext (svc.launches 0) = true) ∧
      (svc.launches 0).fork ≠ none

theorem truthful_none (svc : Service) : Truthful svc none := ⟨nofun, nofun, nofun⟩

theorem truthful_running (running : svc.running = true) {state : String}
    (named : state = "running" ∨ state = "stopping") : Truthful svc (some state.toList) := by
  refine ⟨fun _ => running, fun other => ?_, fun other => ?_⟩
  · rcases named with rfl | rfl <;> exact absurd (Option.some.inj other) (by decide)
  · rcases named with rfl | rfl <;> exact absurd (Option.some.inj other) (by decide)

theorem truthful_stopped (idle : svc.running = false) (settled : svc.restarting = false) :
    Truthful svc (some "stopped".toList) := by
  refine ⟨fun other => ?_, fun other => ?_, fun _ => ⟨idle, settled⟩⟩
  · rcases other with other | other <;> exact absurd (Option.some.inj other) (by decide)
  · exact absurd (Option.some.inj other) (by decide)

theorem truthful_restarting (restarting : svc.restarting = true) :
    Truthful svc (some "restarting".toList) := by
  refine ⟨fun other => ?_, fun _ => restarting, fun other => ?_⟩
  · rcases other with other | other <;> exact absurd (Option.some.inj other) (by decide)
  · exact absurd (Option.some.inj other) (by decide)

theorem truthful_of_settled {new : Service} {value : Option Text} (told : Truthful svc value)
    (settled : svc.restarting = false) (same : new.running = svc.running)
    (cleared : new.restarting = false) : Truthful new value := by
  obtain ⟨runs, restarts, stops⟩ := told
  refine ⟨fun h => same ▸ runs h, fun h => ?_, fun h => ⟨same ▸ (stops h).1, cleared⟩⟩
  rw [restarts h] at settled
  cases settled

theorem settled_of_running (coherent : Coherent svc) (running : svc.running = true) :
    svc.restarting = false := by
  by_contra due
  exact coherent.2.1 ⟨running, by simpa using due⟩

section Failed

variable (fails : ∀ wanted, svc.outcome haveConsole dynamicArgs ≠ .launched wanted)
include fails

theorem settled_of_outcome (coherent : Coherent svc) (ready : Ready svc haveConsole)
    (arguments : dynamicArgs = true → svc.restarting = true → svc.oneshot = true) :
    svc.restarting = false := by
  by_contra due
  rw [Bool.not_eq_false] at due
  obtain ⟨⟨console, stat, -⟩, context, forks⟩ := ready due
  have startable : svc.Startable haveConsole dynamicArgs :=
    ⟨console, stat, fun given => arguments given due⟩
  rcases svc.outcome_cases haveConsole dynamicArgs with
    ⟨running, -⟩ | ⟨-, refused, -⟩ | ⟨-, -, ⟨enabled, missing, -⟩ | ⟨failed, -⟩ | ⟨wanted, outcome⟩⟩
  · rw [settled_of_running coherent running] at due
    cases due
  · exact refused startable
  · rw [context enabled] at missing
    cases missing
  · exact forks failed
  · exact fails wanted outcome

theorem truthful_start {value : Option Text} (told : Truthful svc value)
    (settled : svc.restarting = false) :
    Truthful (svc.start 0 0 (svc.outcome haveConsole dynamicArgs)) value := by
  cases outcome : svc.outcome haveConsole dynamicArgs with
  | launched wanted => exact absurd outcome (fails wanted)
  | alreadyRunning | refused | noContext | noFork =>
    exact truthful_of_settled told settled rfl rfl

theorem coherent_failed (coherent : Coherent svc) :
    Coherent (svc.start 0 0 (svc.outcome haveConsole dynamicArgs)) := by
  have started : Coherent (svc.start 1 0 (svc.outcome haveConsole dynamicArgs)) :=
    coherent_start (by decide) coherent
  cases outcome : svc.outcome haveConsole dynamicArgs with
  | launched wanted => exact absurd outcome (fails wanted)
  | alreadyRunning | refused | noContext | noFork =>
    rw [outcome] at started
    exact started

end Failed

theorem start_name (svc : Service) (pid now : Nat) (outcome : Service.Outcome) :
    (svc.start pid now outcome).name = svc.name := by
  cases outcome <;> rfl

theorem start_settled (svc : Service) (pid now : Nat) (outcome : Service.Outcome) :
    (svc.start pid now outcome).restarting = false := by
  cases outcome <;> rfl

theorem stopOrReset_same (svc : Service) (how : How) :
    (svc.stopOrReset how).name = svc.name ∧ (svc.stopOrReset how).running = svc.running ∧
      (svc.stopOrReset how).restarting = false := by
  obtain ⟨disabled, reset, restart, killed⟩ := svc.stopOrReset_eq how
  rw [killed]
  exact ⟨rfl, rfl, rfl⟩

section Honest

variable {names : List Text} {E : Nat → Prop} {s t : InitState} {i : Nat}

/-- What is true of init in every run, whatever the published states are. -/
structure Sound (names : List Text) (s : InitState) : Prop where
  legal : LegalStore s
  named : s.services.map Service.name = names
  coherent : ∀ svc ∈ s.services, Coherent svc

def FilesClear (names : List Text) (s : InitState) : Prop :=
  ∀ n content, (s.world n).file = some content →
    ∀ d ∈ definitions (content ++ ['\n']), d.1 ∉ names.map published

/-- While an event is handled: all services but those in `E` are published truly and ready. -/
structure Honest (names : List Text) (E : Nat → Prop) (s : InitState) : Prop
    extends Sound names s where
  area : s.propertyAreaInited = true
  files : FilesClear names s
  told : ∀ (i : Nat) svc, s.services[i]? = some svc → ¬ E i →
    Truthful svc (s.properties (published svc.name)) ∧ Ready svc s.haveConsole

theorem Ready.mono {before after : Bool} (ready : Ready svc before)
    (console : before = true → after = true) : Ready svc after := by
  intro due
  obtain ⟨⟨needs, rest⟩, launch⟩ := ready due
  exact ⟨⟨fun h => console (needs h), rest⟩, launch⟩

theorem Honest.quiet (h : Honest names E s) (quiet : Quiet s t) (legal : LegalStore t)
    (same : ∀ (i : Nat) svc, s.services[i]? = some svc → ¬ E i →
      t.properties (published svc.name) = s.properties (published svc.name)) :
    Honest names E t := by
  refine ⟨⟨legal, ?_, ?_⟩, quiet.area.trans h.area, ?_, ?_⟩
  · rw [quiet.services]
    exact h.named
  · rw [quiet.services]
    exact h.coherent
  · obtain ⟨m, shifted⟩ := quiet.world
    intro n content read
    rw [shifted] at read
    exact h.files _ _ read
  · intro i svc found other
    rw [quiet.services] at found
    rw [same i svc found other]
    obtain ⟨truthful, ready⟩ := h.told i svc found other
    exact ⟨truthful, ready.mono quiet.console⟩

theorem Honest.aside (h : Honest names E s) (aside : Aside s t) : Honest names E t := by
  refine h.quiet aside.toQuiet ?_ fun i svc _ _ => by rw [aside.properties]
  unfold LegalStore
  rw [aside.properties]
  exact h.legal

theorem published_ne_netChange (name : Text) : published name ≠ "net.change".toList := by
  intro same
  exact absurd (List.cons.inj same).1 (by decide)

theorem Honest.write (h : Honest names E s) {name : Text} (value : Text)
    (other : name ∉ names.map published) : Honest names E (propertySet s name value).2 := by
  refine h.quiet (propertySet_quiet s name value) (legalStore_propertySet h.legal name value) ?_
  intro i svc found _
  rw [propertySet_at (published_ne_netChange svc.name), store_elsewhere]
  rintro rfl
  apply other
  rw [← h.named]
  exact List.mem_map_of_mem (List.mem_map_of_mem (List.mem_of_getElem? found))

theorem Honest.put (h : Honest names E s) {new : Service} (found : s.services[i]? = some svc)
    (name : new.name = svc.name) (coherent : Coherent new) :
    Honest names (fun j => E j ∨ j = i) (s.put i new) := by
  refine ⟨⟨h.legal, ?_, ?_⟩, h.area, h.files, ?_⟩
  · rw [← h.named]
    apply List.ext_getElem?
    intro j
    simp only [InitState.put, List.map_set, List.getElem?_set]
    split_ifs with here inside
    · rw [← here, List.getElem?_map, found, name]
      rfl
    · simp_all
    · rfl
  · intro other member
    rcases List.mem_or_eq_of_mem_set member with member | rfl
    · exact h.coherent other member
    · exact coherent
  · intro j other at_j outside
    rw [InitState.put, List.getElem?_set_ne (fun here => outside (Or.inr here.symm))] at at_j
    exact h.told j other at_j fun inside => outside (Or.inl inside)

section

variable (h : Honest names (fun j => E j ∨ j = i) s)
include h

theorem Honest.settle (found : s.services[i]? = some svc)
    (truthful : Truthful svc (s.properties (published svc.name)))
    (ready : Ready svc s.haveConsole) : Honest names E s := by
  refine ⟨h.toSound, h.area, h.files, fun j other at_j outside => ?_⟩
  obtain rfl | here := eq_or_ne j i
  · obtain rfl := Option.some.inj (found.symm.trans at_j)
    exact ⟨truthful, ready⟩
  · exact h.told j other at_j fun inside => inside.elim outside here

theorem Honest.notified (distinct : names.Nodup)
    (found : s.services[i]? = some svc) {state : String}
    (short : state.toList.length < propValueMax) (truthful : Truthful svc (some state.toList)) :
    Honest names (fun j => E j ∨ j = i) (notifyServiceState s svc.name state) ∧
      Truthful svc ((notifyServiceState s svc.name state).properties (published svc.name)) := by
  have others : ∀ (j : Nat) other, s.services[j]? = some other → j ≠ i →
      published other.name ≠ published svc.name := by
    intro j other at_j differs same
    have names_j : names[j]? = some other.name := by rw [← h.named, List.getElem?_map, at_j]; rfl
    have names_i : names[i]? = some svc.name := by rw [← h.named, List.getElem?_map, found]; rfl
    have inside : j < names.length := (List.getElem?_eq_some_iff.mp names_j).1
    rw [List.append_cancel_left same] at names_j
    exact differs ((List.getElem?_inj inside distinct).mp (names_j.trans names_i.symm))
  have legal : LegalStore (notifyServiceState s svc.name state) :=
    notifyServiceState_keeps (legalStore_propertySet h.legal) h.legal _ _
  constructor
  · refine h.quiet (notifyServiceState_quiet s svc.name state) legal fun j other at_j outside => ?_
    exact notifyServiceState_elsewhere (others j other at_j fun here => outside (Or.inr here))
  · rcases notifyServiceState_value h.legal svc.name short with told | told
    · rw [told]
      exact truthful
    · rw [told]
      exact truthful_none svc

theorem Honest.notify (distinct : names.Nodup) (found : s.services[i]? = some svc) {state : String}
    (short : state.toList.length < propValueMax) (truthful : Truthful svc (some state.toList))
    (ready : Ready svc s.haveConsole) : Honest names E (notifyServiceState s svc.name state) := by
  have quiet := notifyServiceState_quiet s svc.name state
  obtain ⟨honest, told⟩ := h.notified distinct found short truthful
  exact honest.settle (quiet.services ▸ found) told (ready.mono quiet.console)

end

theorem getElem_put {new : Service} (found : s.services[i]? = some svc) :
    (s.put i new).services[i]? = some new := by
  obtain ⟨inside, -⟩ := List.getElem?_eq_some_iff.mp found
  exact List.getElem?_set_self inside

theorem ready_of_settled (settled : svc.restarting = false) : Ready svc haveConsole := by
  intro due
  rw [settled] at due
  cases due

theorem Honest.start (h : Honest names E s) (distinct : names.Nodup) (outside : ¬ E i)
    (arguments : dynamicArgs = true → ∀ svc, s.services[i]? = some svc →
      svc.restarting = true → svc.oneshot = true) :
    Honest names E (serviceStart s i dynamicArgs) := by
  cases found : s.services[i]? with
  | none =>
    rw [serviceStart_of_missing found]
    exact h
  | some svc =>
    have coherent : Coherent svc := h.coherent svc (List.mem_of_getElem? found)
    obtain ⟨truthful, ready⟩ := h.told i svc found outside
    rcases serviceStart_cases found dynamicArgs with
      ⟨wanted, t, launches, rfl, starts⟩ | ⟨fails, starts⟩
    · have nonzero := (freshPid_fresh s wanted).1
      have started : Coherent (svc.start (s.freshPid wanted) s.gettime.1 (.launched wanted)) :=
        launches ▸ coherent_start nonzero coherent
      have put := (h.aside (gettime_aside s)).put found (start_name svc _ _ _) started
      rw [starts, if_pos h.area]
      exact put.notify distinct (getElem_put (s := s.gettime.2) found) (by decide)
        (truthful_running rfl (Or.inl rfl)) (ready_of_settled (start_settled svc _ _ _))
    · have settled := settled_of_outcome fails coherent ready fun given => arguments given svc found
      have same := truthful_start fails truthful settled
      have started := coherent_failed fails coherent
      have put := h.put found (start_name svc _ _ _) started
      rw [starts]
      refine put.settle (getElem_put found) ?_ (ready_of_settled (start_settled svc _ _ _))
      rw [start_name]
      exact same

theorem Honest.stopOrReset (h : Honest names E s) (distinct : names.Nodup) (how : How) :
    Honest names E (serviceStopOrReset s i how) := by
  cases found : s.services[i]? with
  | none =>
    rw [serviceStopOrReset_of_missing found]
    exact h
  | some svc =>
    have coherent : Coherent svc := h.coherent svc (List.mem_of_getElem? found)
    obtain ⟨name, running, settled⟩ := stopOrReset_same svc how
    have put := h.put found name (coherent_stopOrReset coherent)
    have placed : (s.put i (svc.stopOrReset how)).services[i]? = some (svc.stopOrReset how) :=
      getElem_put found
    rw [serviceStopOrReset_eq found, ← name]
    split_ifs with child
    · exact put.notify distinct placed (by decide)
        (truthful_running (running.trans (coherent.1.mp child)) (Or.inr rfl))
        (ready_of_settled settled)
    · have idle : svc.running = false := by
        by_contra runs
        exact child (coherent.1.mpr (by simpa using runs))
      exact put.notify distinct placed (by decide)
        (truthful_stopped (running.trans idle) settled) (ready_of_settled settled)

theorem not_published {name : Text} (ordinary : startsWith "init.svc." name = false) :
    name ∉ names.map published := by
  intro member
  obtain ⟨svc, -, rfl⟩ := List.mem_map.mp member
  cases ordinary

theorem keeps_honest (distinct : names.Nodup) :
    KeepsAny (· ∉ names.map published) (Honest names fun _ => False) where
  ordinary := fun _ ordinary => not_published ordinary
  files := fun _ h => h.files
  aside := fun _ _ aside h => h.aside aside
  write := fun _ _ value other h => h.write value other
  start := fun _ _ _ h => h.start distinct id nofun
  stop := fun _ _ how _ h => h.stopOrReset distinct how

def Apart (svc other : Service) : Prop :=
  ¬ (other.name = svc.name ∧ other.classname = svc.classname)

theorem keeps_exempt (distinct : names.Nodup) (k : Nat) (svc : Service) :
    Keeps (· ∉ names.map published) (Apart svc) fun s =>
      Honest names (fun j => False ∨ j = k) s ∧ s.services[k]? = some svc where
  ordinary := fun _ ordinary => not_published ordinary
  files := fun _ h => h.1.files
  aside := fun _ _ aside h => ⟨h.1.aside aside, aside.services ▸ h.2⟩
  write := fun s name value other h =>
    ⟨h.1.write value other, (propertySet_quiet s name value).services ▸ h.2⟩
  start := fun s i fits h => by
    have apart : i ≠ k := by
      rintro rfl
      exact fits svc h.2 ⟨rfl, rfl⟩
    have outside : ¬ (False ∨ i = k) := fun inside => inside.elim id apart
    exact ⟨h.1.start distinct outside nofun,
      ((serviceStart_local s i false).services k apart.symm).trans h.2⟩
  stop := fun s i how fits h => by
    have apart : i ≠ k := by
      rintro rfl
      exact (fits svc h.2).1 ⟨rfl, rfl⟩
    exact ⟨h.1.stopOrReset distinct how,
      ((serviceStopOrReset_local s i how).services k apart.symm).trans h.2⟩

def Told (names : List Text) (s : InitState) : Prop :=
  Sound names s ∧ ∀ svc ∈ s.services, Truthful svc (s.properties (published svc.name))

theorem Honest.toTold (h : Honest names (fun _ => False) s) : Told names s := by
  refine ⟨h.toSound, fun svc member => ?_⟩
  obtain ⟨i, found⟩ := List.getElem?_of_mem member
  exact (h.told i svc found id).1

theorem told_reapService (distinct : names.Nodup) (h : Honest names (fun _ => False) s)
    (found : s.services[i]? = some svc) (child : svc.pid ≠ 0)
    (onrestart : ∀ command ∈ svc.onrestart,
      CommandFits (· ∉ names.map published) (Apart svc) command)
    (goesOn : (reapService s i svc).rebooting = false) : Told names (reapService s i svc) := by
  have coherent : Coherent svc := h.coherent svc (List.mem_of_getElem? found)
  have settled := settled_of_running coherent (coherent.1.mp child)
  have restarts := svc.restarting_reap_iff s.gettime.1 settled
  obtain ⟨name, classname, -, -, -, commands, -, -, -, idle, -⟩ := svc.reap_exit s.gettime.1
  have put := (h.aside (gettime_aside s)).put found name (coherent_reap child coherent)
  have placed : (s.gettime.2.put i (svc.reap s.gettime.1).2).services[i]? =
      some (svc.reap s.gettime.1).2 :=
    getElem_put (s := s.gettime.2) found
  unfold reapService at goesOn ⊢
  dsimp only at goesOn ⊢
  rcases verdict : svc.reap s.gettime.1 with ⟨_ | _ | _, after⟩
  all_goals rw [verdict] at put placed restarts idle name classname commands goesOn
  · have ended : after.restarting = false := by
      by_contra due
      cases restarts.mp (by simpa using due)
    exact (put.notify distinct placed (by decide) (truthful_stopped idle ended)
      (ready_of_settled ended)).toTold
  · cases goesOn
  · have fits : ∀ command ∈ after.onrestart,
        CommandFits (· ∉ names.map published) (Apart after) command := by
      unfold Apart
      rw [name, classname, commands]
      exact onrestart
    obtain ⟨ran, stays⟩ := (keeps_exempt distinct i after).runCommands fits ⟨put, placed⟩
    dsimp only at goesOn ⊢
    split_ifs at goesOn ⊢ with reboots
    · rw [reboots] at goesOn
      cases goesOn
    · obtain ⟨honest, told⟩ := ran.notified distinct stays (by decide)
        (truthful_restarting (restarts.mpr rfl))
      refine ⟨honest.toSound, fun other member => ?_⟩
      obtain ⟨j, at_j⟩ := List.getElem?_of_mem member
      by_cases here : j = i
      · rw [here, (notifyServiceState_quiet _ _ _).services, stays] at at_j
        cases at_j
        exact told
      · exact (honest.told j other at_j fun inside => inside.elim id here).1

end Honest

/-- What the event itself must not do: set a published state, or start a service that is due for
a restart with arguments it does not take. -/
def EventFits (s : InitState) : Event → Prop
  | .serviceStart i dynamicArgs => dynamicArgs = true → ∀ svc, s.services[i]? = some svc →
      svc.restarting = true → svc.oneshot = true
  | .executeOneCommand => ∀ name value, (nextCommand s).1 = some (.setprop name value) →
      name ∉ (s.services.map Service.name).map published
  | .message m => m.propertyName ∉ (s.services.map Service.name).map published ∧
      (m.propertyName = "ctl.start".toList → ':' ∈ m.propertyValue →
        ∀ svc ∈ s.services, svc.name = m.propertyValue.takeWhile (· ≠ ':') →
          svc.restarting = true → svc.oneshot = true)
  | .propertySet name _ => name ∉ (s.services.map Service.name).map published
  | _ => True

structure Fair (s : InitState) (event : Event) : Prop where
  area : s.propertyAreaInited = true
  files : FilesClear (s.services.map Service.name) s
  ready : ∀ svc ∈ s.services, Ready svc s.haveConsole
  onrestart : ∀ svc ∈ s.services, ∀ command ∈ svc.onrestart,
    CommandFits (· ∉ (s.services.map Service.name).map published) (Apart svc) command
  event : EventFits s event

theorem told_handle {names : List Text} {s : InitState} {event : Event} (distinct : names.Nodup)
    (told : Told names s) (fair : Fair s event) (goesOn : (handle s event).rebooting = false) :
    Told names (handle s event) := by
  obtain ⟨sound, truthful⟩ := told
  obtain ⟨area, files, ready, onrestart, fits⟩ := fair
  rw [sound.named] at files onrestart
  have keeps := keeps_honest distinct
  have h : Honest names (fun _ => False) s := by
    refine ⟨sound, area, files, fun i svc found _ => ?_⟩
    have member := List.mem_of_getElem? found
    exact ⟨truthful svc member, ready svc member⟩
  cases event with
  | serviceStart i dynamicArgs => exact (h.start distinct id fits).toTold
  | serviceStop i => exact (h.stopOrReset distinct .disabled).toTold
  | serviceReset i => exact (h.stopOrReset distinct .reset).toTold
  | serviceRestart i => exact (keeps.serviceRestart (fun _ _ => trivial) h).toTold
  | executeOneCommand =>
    refine (keeps.executeOneCommand (fun command comes => ?_) h).toTold
    cases command with
    | setprop name value => exact sound.named ▸ fits name value comes
    | start | stop | restart | classStart | classStop | classReset => exact fun _ _ => trivial
    | trigger | loadPersistProps | mountAll | powerctl | consoleInit | propertyServiceInit
    | queuePropertyTriggers | other => exact trivial
  | restartProcesses => exact (KeepsAny.restartProcesses keeps h).toTold
  | message m =>
    obtain ⟨other, arguments⟩ := fits
    rw [sound.named] at other
    refine (KeepsAny.message keeps other (fun t i aside before found named given => ?_) h).toTold
    refine before.start distinct id fun _ svc at_i => ?_
    obtain ⟨first, at_first, same⟩ := exists_of_findIdx found
    obtain rfl := Option.some.inj (at_first.symm.trans at_i)
    rw [aside.services] at at_i
    exact arguments named given first (List.mem_of_getElem? at_i) (by simpa using same)
  | keychord id => exact (KeepsAny.handleKeychord keeps h).toTold
  | childExit pid =>
    rcases waitForOneProcess_cases s pid with unchanged | ⟨i, svc, found, child, reaps⟩
    · rw [handle, unchanged]
      exact h.toTold
    · rw [handle, reaps] at goesOn ⊢
      exact told_reapService distinct h found child
        (onrestart svc (List.mem_of_getElem? found)) goesOn
  | propertySet name value =>
    rw [EventFits, sound.named] at fits
    exact (h.write value fits).toTold
  | loadPropertiesFromFile => exact (keeps.loadPropertiesFromFile h).toTold
  | loadPersistentProperties => exact (keeps.loadPersistentProperties h).toTold

/-- In every run whose steps are fair, every published state is true between the events. -/
theorem published_states_true {start s : InitState} (fresh : ∀ svc ∈ start.services, Fresh svc)
    (distinct : (start.services.map Service.name).Nodup)
    (empty : ∀ name, start.properties name = none) (run : Reach step Fair start s)
    (alive : s.rebooting = false) {svc : Service} (member : svc ∈ s.services) :
    Truthful svc (s.properties (published svc.name)) := by
  have told : s.rebooting = false → Told (start.services.map Service.name) s := by
    refine run.invariant (fun s => s.rebooting = false → Told _ s) ?_ ?_
    · refine fun _ => ⟨⟨fun name value present => ?_, rfl, fun svc member => ?_⟩, fun svc _ => ?_⟩
      · rw [empty] at present
        cases present
      · exact coherent_of_fresh (fresh svc member)
      · rw [empty]
        exact truthful_none svc
    · intro s event t h fair next goesOn
      obtain ⟨rfl, before⟩ := step_eq_some next
      exact told_handle distinct (h before) fair goesOn
  exact (told alive).2 svc member

def daemonOnly : InitState := booting [parseService "daemon".toList] []

theorem published_states_true_daemon :
    let s := handle daemonOnly (.serviceStart 0 false)
    s.properties "init.svc.daemon".toList = some "running".toList ∧
      ∀ svc ∈ s.services, Truthful svc (s.properties (published svc.name)) := by
  have fair : Fair daemonOnly (.serviceStart 0 false) := by
    have only {svc : Service} (member : svc ∈ daemonOnly.services) :
        svc = parseService "daemon".toList := List.mem_singleton.mp member
    refine ⟨rfl, nofun, fun svc member => ?_, fun svc member => ?_, nofun⟩
    · rw [only member]
      exact nofun
    · rw [only member]
      exact nofun
  have run := Reach.next .start fair (rfl : step _ _ = some _)
  refine ⟨by decide +kernel, fun svc member => ?_⟩
  exact published_states_true (by decide) (by decide) (fun _ => rfl) run (by decide +kernel) member

def removed : Service :=
  { parseService "daemon".toList with
    launches := fun n => if n = 1 then { stat := false } else {} }

/-- A service that cannot be restarted stays published as restarting. -/
theorem failed_restart_stays_published :
    (guardedReplay step (fun _ _ => true) (clocked [removed] fun _ => 5)
        [.serviceStart 0 false, .childExit 1, .restartProcesses]).map
          (fun s => (s.rebooting, s.properties "init.svc.daemon".toList,
            s.services.map fun svc => (svc.restarting, svc.disabled))) =
      some (false, some "restarting".toList, [(false, true)]) := by
  decide +kernel

end AndroidBoot.Init.Published
