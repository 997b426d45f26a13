/- source: init/init/builtins.c, init/init/init.c, init/init/signal_handler.c, init/init/keychords.c
   digest: The built-in commands, the action queue, the reaper of children and the keychords. -/

import AndroidBoot.Init.Services

set_option autoImplicit false

namespace AndroidBoot.Init.Commands

open State Properties Services

def onService (s : InitState) (name : Text) (f : InitState → Nat → InitState) : InitState :=
  match serviceFindByName s name with
  | none => s
  | some i => f s i

def doSetprop (s : InitState) (name value : Text) : InitState :=
  match expandProps s value propValueMax with
  | none => s
  | some expanded => (propertySet s name expanded).2

/-- `do_mount_all`; the child's exit status is an answer, -1 for any failure. -/
def doMountAll (s : InitState) : InitState :=
  let (answer, s) := s.ask
  if answer.mounted = 1 then
    (propertySet (propertySet s "ro.crypto.state".toList "encrypted".toList).2
      "vold.decrypt".toList "1".toList).2
  else if answer.mounted = 0 then
    actionForEachTrigger (propertySet s "ro.crypto.state".toList "unencrypted".toList).2
      "nonencrypted".toList
  else s

def doPowerctl (s : InitState) (arg : Text) : InitState :=
  match expandProps s arg propValueMax with
  | none => s
  | some command =>
    let target := fun len => command[len]? = none || command[len]? = some ','
    if startsWith "shutdown" command then
      if target 8 then { s with rebooting := true } else s
    else if startsWith "reboot" command then
      if target 6 then { s with rebooting := true } else s
    else s

def consoleInit (s : InitState) : InitState :=
  let (answer, s) := s.ask
  if answer.consoleOpens then { s with haveConsole := true } else s

def runCommand (s : InitState) : Command → InitState
  | .start name => onService s name fun s i => serviceStart s i false
  | .stop name => onService s name serviceStop
  | .restart name => onService s name serviceRestart
  | .classStart classname => serviceForEach s (·.classname = classname) serviceStartIfNotDisabled
  | .classStop classname => serviceForEach s (·.classname = classname) serviceStop
  | .classReset classname => serviceForEach s (·.classname = classname) serviceReset
  | .setprop name value => doSetprop s name value
  | .trigger name => actionForEachTrigger s name
  | .loadPersistProps => loadPersistProps s
  | .mountAll => doMountAll s
  | .powerctl arg => doPowerctl s arg
  | .consoleInit => consoleInit s
  | .propertyServiceInit => startPropertyService s
  | .queuePropertyTriggers => { queueAllPropertyTriggers s with propertyTriggersEnabled := true }
  | .other => s

def runCommands (s : InitState) (commands : List Command) : InitState :=
  commands.foldl (fun s command => if s.rebooting then s else runCommand s command) s

def finished (s : InitState) : Bool :=
  match s.current with
  | none => true
  | some (a, c) =>
    match s.actions[a]? with
    | none => true
    | some act => act.commands.length ≤ c + 1

/-- The command that `execute_one_command` comes to, and init about to run it. -/
def nextCommand (s : InitState) : Option Command × InitState :=
  if finished s then
    match s.actionQueue with
    | [] => (none, { s with current := none })
    | a :: queue =>
      (s.actions[a]?.bind fun act => act.commands[0]?,
        { s with actionQueue := queue, current := some (a, 0) })
  else
    match s.current with
    | none => (none, s)
    | some (a, c) =>
      (s.actions[a]?.bind fun act => act.commands[c + 1]?, { s with current := some (a, c + 1) })

def executeOneCommand (s : InitState) : InitState :=
  match nextCommand s with
  | (none, s) => s
  | (some command, s) => runCommand s command

def reapService (s : InitState) (i : Nat) (svc : Service) : InitState :=
  -- Time passes whether or not the exit comes to the crash counter, which reads the clock.
  let (now, s) := s.gettime
  match svc.reap now with
  | (.stopped, svc) => notifyServiceState (s.put i svc) svc.name "stopped"
  | (.reboot, svc) => { s.put i svc with rebooting := true }
  | (.restarting, svc) =>
    let s := runCommands (s.put i svc) svc.onrestart
    if s.rebooting then s else notifyServiceState s svc.name "restarting"

def waitForOneProcess (s : InitState) (pid : Nat) : InitState :=
  if pid = 0 then s
  else match serviceFindByPid s pid with
    | none => s
    | some i => match s.services[i]? with
      | none => s
      | some svc => reapService s i svc

def handleKeychord (s : InitState) (id : Nat) : InitState :=
  if propertyGet s "init.svc.adbd".toList = "running".toList then
    match serviceFindByKeychord s id with
    | none => s
    | some i => serviceStart s i false
  else s

end AndroidBoot.Init.Commands
