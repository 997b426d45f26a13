/- source: ZygoteInit/ZygoteConnection.java
   digest: One spawn request of a connection: reading, security policy, fork and reply. -/

import AndroidBoot.Zygote.SpawnArguments

/-!
What the system answers during a request is a record of its own: the access checks, the
properties, the results of the system calls and of the fork. Log messages and texts for
the requester's stderr are left out, as is what the child does.
-/

set_option autoImplicit false

namespace AndroidBoot.Zygote.SpawnRequest

open Foundation.JavaText SpawnArguments

/-- The permissions of the class `zygote` that are asked for. -/
inductive Permission
  | specifyids
  | specifyrlimits
  | specifycapabilities
  | specifyinvokewith
  | specifyseinfo
  deriving DecidableEq

structure Peer where
  uid : Int
  gid : Int
  permitted : BitVec 64

structure World where
  otherDigits : OtherDigits
  /-- `getAncillaryFileDescriptors`; the outer `none` is an `IOException`. -/
  descriptors : Option (Option (List Int))
  allowed : Permission → Bool
  property : Text → Text
  capget : Bool
  pipe : Bool
  setCloseOnExec : Bool
  fork : Int
  /-- The pid that the wrapper reports; `none` is an `IOException`. -/
  innerPid : Option Int
  parents : Int → List Int
  replies : Bool

structure Connection where
  fd : Nat
  peer : Peer
  reader : Reader
  closed : Bool

def maxZygoteArgc : Int := 1024

def systemUid : Int := 1000

/-- What `readArgumentList` gives; `eof` is `null`. -/
inductive ArgumentsRead
  | arguments (args : List Text) (rest : Reader)
  | eof
  | thrown (exception : Thrown)

def readArguments : Nat → Reader → ArgumentsRead
  | 0, reader => .arguments [] reader
  | argc + 1, reader =>
    match reader.readLine with
    | .eof => .thrown (.io "truncated request")
    | .ioException => .thrown (.io "read")
    | .line arg rest =>
      match readArguments argc rest with
      | .arguments args rest => .arguments (arg :: args) rest
      | failed => failed

def readArgumentList (others : OtherDigits) (reader : Reader) : ArgumentsRead :=
  match reader.readLine with
  | .eof => .eof
  | .ioException => .thrown (.io "read")
  | .line s rest =>
    match parseInt others s with
    | none => .thrown (.io "invalid wire format")
    | some argc =>
      if maxZygoteArgc < argc then .thrown (.io "max arg count exceeded")
      else if argc < 0 then .thrown .negativeArraySize
      else readArguments argc.toNat rest

section Policy

variable (world : World) (peer : Peer)

def applyUidSecurityPolicy (args : Arguments) : Except Thrown Arguments :=
  let specified := args.uidSpecified || args.gidSpecified || args.gids.isSome
  let factoryTest := world.property (text "ro.factorytest")
  let uidRestricted := !(factoryTest = text "1" || factoryTest = text "2")
  if peer.uid = systemUid ∧ uidRestricted ∧ args.uidSpecified ∧ args.uid < systemUid then
    .error (.security "System UID may not launch process with UID < 1000")
  else if peer.uid ≠ 0 ∧ peer.uid ≠ systemUid ∧ specified then
    .error (.security "App UIDs may not specify uid's or gid's")
  else if specified ∧ !world.allowed .specifyids then
    .error (.security "Peer may not specify uid's or gid's")
  else
    let args := if args.uidSpecified then args else { args with uid := peer.uid, uidSpecified := true }
    .ok (if args.gidSpecified then args else { args with gid := peer.gid, gidSpecified := true })

def applyRlimitSecurityPolicy (args : Arguments) : Except Thrown Arguments :=
  if ¬ (peer.uid = 0 ∨ peer.uid = systemUid) ∧ args.rlimits.isSome then
    .error (.security "This UID may not specify rlimits.")
  else if args.rlimits.isSome ∧ !world.allowed .specifyrlimits then
    .error (.security "Peer may not specify rlimits")
  else .ok args

def applyCapabilitiesSecurityPolicy (args : Arguments) : Except Thrown Arguments :=
  if args.permittedCapabilities = 0 ∧ args.effectiveCapabilities = 0 then .ok args
  else if !world.allowed .specifycapabilities then
    .error (.security "Peer may not specify capabilities")
  else if peer.uid = 0 then .ok args
  else if !world.capget then .error (.security "Error retrieving peer's capabilities.")
  else if ~~~args.permittedCapabilities &&& args.effectiveCapabilities ≠ 0 then
    .error (.security "Effective capabilities cannot be superset of  permitted capabilities")
  else if ~~~peer.permitted &&& args.permittedCapabilities ≠ 0 then
    .error (.security "Peer specified unpermitted capabilities")
  else .ok args

def applyInvokeWithSecurityPolicy (args : Arguments) : Except Thrown Arguments :=
  if args.invokeWith.isSome ∧ (peer.uid ≠ 0 ∨ !world.allowed .specifyinvokewith) then
    .error (.security
      "Peer is not permitted to specify an explicit invoke-with wrapper command")
  else .ok args

def applyseInfoSecurityPolicy (args : Arguments) : Except Thrown Arguments :=
  if args.seInfo.isNone then .ok args
  else if ¬ (peer.uid = 0 ∨ peer.uid = systemUid) then
    .error (.security "This UID may not specify SEAndroid info.")
  else if !world.allowed .specifyseinfo then
    .error (.security "Peer may not specify SEAndroid info")
  else .ok args

def applyDebuggerSystemProperty (args : Arguments) : Arguments :=
  if world.property (text "ro.debuggable") = text "1" then
    { args with debugFlags := insert .debugger args.debugFlags }
  else args

def wrapProperty (niceName : Text) : Text := (text "wrap." ++ niceName).take 31

def applyInvokeWithSystemProperty (args : Arguments) : Arguments :=
  match args.invokeWith, args.niceName with
  | none, some niceName =>
    let value := world.property (wrapProperty niceName)
    { args with invokeWith := if value = [] then none else some value }
  | _, _ => args

def openPipe (args : Arguments) : Except Thrown Arguments :=
  if args.runtimeInit && args.invokeWith.isSome then
    if !world.pipe then .error .errno
    else if !world.setCloseOnExec then .error (.io "fcntl")
    else .ok args
  else .ok args

def prepare (args : List Text) : Except Thrown Arguments := do
  let args ← parseArgs world.otherDigits {} args
  let args ← applyUidSecurityPolicy world peer args
  let args ← applyRlimitSecurityPolicy world peer args
  let args ← applyCapabilitiesSecurityPolicy world peer args
  let args ← applyInvokeWithSecurityPolicy world peer args
  let args ← applyseInfoSecurityPolicy world peer args
  openPipe world (applyInvokeWithSystemProperty world (applyDebuggerSystemProperty world args))

end Policy

def caught : Thrown → Bool
  | .io _ | .errno | .illegalArgument _ | .numberFormat | .security _ => true
  | .negativeArraySize => false

inductive Ending
  | closed
  | replied (pid : Int) (usingWrapper : Bool)
  | unanswered
  | thrown (exception : Thrown)
  | child (args : Arguments)
  deriving DecidableEq

structure Served where
  forked : Option Arguments
  ending : Ending
  connection : Connection

def handleParentProc (world : World) (pid : Int) (piped : Bool) : Ending :=
  let inner :=
    if piped ∧ 0 < pid then
      world.innerPid.filter fun inner => 0 < inner ∧ pid ∈ inner :: world.parents inner
    else none
  if world.replies then .replied (inner.getD pid) inner.isSome else .unanswered

def closeSocket (connection : Connection) : Connection := { connection with closed := true }

def runOnce (world : World) (connection : Connection) : Served :=
  match readArgumentList world.otherDigits connection.reader with
  | .eof => ⟨none, .closed, closeSocket connection⟩
  | .thrown (.io _) => ⟨none, .closed, closeSocket connection⟩
  | .thrown exception => ⟨none, .thrown exception, connection⟩
  | .arguments args rest =>
    let connection := { connection with reader := rest }
    match world.descriptors with
    | none => ⟨none, .closed, closeSocket connection⟩
    | some _ =>
      match prepare world connection.peer args with
      | .ok parsed =>
        if world.fork = 0 then ⟨some parsed, .child parsed, connection⟩
        else
          ⟨some parsed, handleParentProc world world.fork
            (parsed.runtimeInit && parsed.invokeWith.isSome), connection⟩
      | .error exception =>
        if caught exception then ⟨none, handleParentProc world (-1) false, connection⟩
        else ⟨none, .thrown exception, connection⟩

end AndroidBoot.Zygote.SpawnRequest
