/- source: init/init/init.h, init.c, init_parser.c
   digest: The state of init: its services, properties, actions and what the system answers. -/

import Mathlib.Algebra.Order.Ring.Int
import Mathlib.Data.List.Basic
import Mathlib.Logic.Function.Basic

/-!
A service is named by its place in `service_list`. Answers of the system come from streams:
each service has one for its own starts, and init has one for everything else. Signals to
processes, log messages, sockets and what a child does before its `execve` leave no trace.
-/

set_option autoImplicit false

namespace AndroidBoot.Init.State

abbrev Text := List Char

/-- The built-in commands. Those that touch nothing of init's own are `other`. -/
inductive Command
  | start (name : Text)
  | stop (name : Text)
  | restart (name : Text)
  | classStart (classname : Text)
  | classStop (classname : Text)
  | classReset (classname : Text)
  | setprop (name value : Text)
  | trigger (name : Text)
  | loadPersistProps
  | mountAll
  | powerctl (arg : Text)
  | consoleInit
  | propertyServiceInit
  | queuePropertyTriggers
  | other
  deriving DecidableEq

structure Action where
  name : Text
  commands : List Command

/-- What the system answers to one start of a service; `fork` is the pid of the child, replaced
if another child has it. -/
structure Launch where
  stat : Bool := true
  selinuxEnabled : Bool := false
  strdup : Bool := true
  getcon : Bool := true
  getfilecon : Bool := true
  securityComputeCreate : Bool := true
  fork : Option Nat := some 1

inductive How
  | disabled
  | reset
  | restart
  deriving DecidableEq

inductive Request
  | start
  | kill (how : How)
  deriving DecidableEq

/-- A service; its flags are the `SVC_` bits. -/
structure Service where
  name : Text
  classname : Text
  disabled : Bool
  oneshot : Bool
  running : Bool
  restarting : Bool
  console : Bool
  critical : Bool
  reset : Bool
  rcDisabled : Bool
  restart : Bool
  pid : Nat
  timeStarted : Nat
  timeCrashed : Nat
  nrCrashed : Nat
  seclabel : Option Text
  onrestart : List Command
  keychordId : Nat
  launches : Nat → Launch
  -- No function of init reads the rest: a process was started, the requests made since the
  -- last one was, and the times of the exits that no request asked for.
  started : Bool
  requests : List Request
  crashes : List Nat

structure DirEntry where
  name : Text
  regular : Bool
  opens : Bool
  stats : Bool
  mode : Nat
  uid : Nat
  gid : Nat
  nlink : Nat
  content : Option Text

structure Answer where
  elapsed : Nat := 0
  room : Bool := true
  selinuxEnabled : Bool := false
  peerContext : Bool := true
  propertyContexts : Bool := true
  labelled : Bool := true
  granted : Bool := true
  strdup : Bool := true
  file : Option Text := none
  directory : Option (List DirEntry) := none
  mkstemp : Bool := true
  written : Nat := 0
  renamed : Bool := true
  mounted : Int := -1
  consoleOpens : Bool := true

/-- What the system's headers say of users: ids, and `multiuser_get_app_id`. -/
structure Ids where
  aidSystem : Nat
  aidRadio : Nat
  aidBluetooth : Nat
  aidLog : Nat
  aidDhcp : Nat
  aidShell : Nat
  multiuserGetAppId : Nat → Nat

structure InitState where
  ids : Ids
  services : List Service
  properties : Text → Option Text
  propertyAreaInited : Bool
  persistentPropertiesLoaded : Bool
  propertyTriggersEnabled : Bool
  haveConsole : Bool
  processNeedsRestart : Nat
  actions : List Action
  actionQueue : List Nat
  current : Option (Nat × Nat)
  persisted : Text → Option Text
  allowLocalPropOverride : Bool
  clock : Nat
  world : Nat → Answer
  rebooting : Bool

namespace InitState

def ask (s : InitState) : Answer × InitState :=
  (s.world 0, { s with world := fun n => s.world (n + 1) })

@[simp] theorem ask_ids (s : InitState) : s.ask.2.ids = s.ids := rfl

/-- `gettime`; the clock is monotonic. -/
def gettime (s : InitState) : Nat × InitState :=
  (s.clock + (s.world 0).elapsed,
    { s with clock := s.clock + (s.world 0).elapsed, world := fun n => s.world (n + 1) })

structure Quiet (s t : InitState) : Prop where
  services : t.services = s.services
  area : t.propertyAreaInited = s.propertyAreaInited
  console : s.haveConsole = true → t.haveConsole = true
  clock : s.clock ≤ t.clock
  world : ∃ n, ∀ k, t.world k = s.world (n + k)
  rebooting : s.rebooting = true → t.rebooting = true

structure Aside (s t : InitState) : Prop extends Quiet s t where
  properties : t.properties = s.properties

variable (s : InitState)

theorem Quiet.refl : Quiet s s :=
  ⟨rfl, rfl, id, Nat.le_refl _, ⟨0, fun k => by rw [Nat.zero_add]⟩, id⟩

theorem Quiet.trans {s t u : InitState} (first : Quiet s t) (second : Quiet t u) : Quiet s u := by
  obtain ⟨m, shifted⟩ := first.world
  obtain ⟨n, shiftedAgain⟩ := second.world
  refine ⟨second.services.trans first.services, second.area.trans first.area,
    fun h => second.console (first.console h), Nat.le_trans first.clock second.clock,
    ⟨m + n, fun k => ?_⟩, fun h => second.rebooting (first.rebooting h)⟩
  rw [shiftedAgain, shifted, Nat.add_assoc]

theorem Aside.refl : Aside s s := ⟨Quiet.refl s, rfl⟩

theorem Aside.of_same {s t : InitState} (services : t.services = s.services)
    (properties : t.properties = s.properties)
    (area : t.propertyAreaInited = s.propertyAreaInited) (console : t.haveConsole = s.haveConsole)
    (clock : t.clock = s.clock) (world : t.world = s.world)
    (rebooting : s.rebooting = true → t.rebooting = true) : Aside s t := by
  refine ⟨⟨services, area, fun h => console.trans h, Nat.le_of_eq clock.symm,
    ⟨0, fun k => ?_⟩, rebooting⟩, properties⟩
  rw [world, Nat.zero_add]

theorem Aside.trans {s t u : InitState} (first : Aside s t) (second : Aside t u) : Aside s u :=
  ⟨first.toQuiet.trans second.toQuiet, second.properties.trans first.properties⟩

theorem ask_aside : Aside s s.ask.2 :=
  ⟨⟨rfl, rfl, id, Nat.le_refl _, ⟨1, fun k => by rw [Nat.add_comm]; rfl⟩, id⟩, rfl⟩

theorem gettime_aside : Aside s s.gettime.2 :=
  ⟨⟨rfl, rfl, id, Nat.le_add_right _ _, ⟨1, fun k => by rw [Nat.add_comm]; rfl⟩, id⟩, rfl⟩

def put (s : InitState) (i : Nat) (svc : Service) : InitState :=
  { s with services := s.services.set i svc }

def freshPid (s : InitState) (wanted : Nat) : Nat :=
  let pids := s.services.map Service.pid
  if wanted ≠ 0 ∧ wanted ∉ pids then wanted else pids.foldr max 0 + 1

end InitState

end AndroidBoot.Init.State
