/- source: init/init/property_service.c, init/init/init.c
   digest: The socket of the property service: who may set what, and the control messages. -/

import AndroidBoot.Init.Services

set_option autoImplicit false

namespace AndroidBoot.Init.PropertyService

open State Properties Services
open State.InitState (Aside ask_aside)

structure PropertyPerm where
  head : String
  uid : Nat
  gid : Nat

def propertyPerms (ids : Ids) : List PropertyPerm := [
  ⟨"net.rmnet0.", ids.aidRadio, 0⟩,
  ⟨"net.gprs.", ids.aidRadio, 0⟩,
  ⟨"net.ppp", ids.aidRadio, 0⟩,
  ⟨"net.qmi", ids.aidRadio, 0⟩,
  ⟨"net.lte", ids.aidRadio, 0⟩,
  ⟨"net.cdma", ids.aidRadio, 0⟩,
  ⟨"ril.", ids.aidRadio, 0⟩,
  ⟨"gsm.", ids.aidRadio, 0⟩,
  ⟨"persist.radio", ids.aidRadio, 0⟩,
  ⟨"net.dns", ids.aidRadio, 0⟩,
  ⟨"sys.usb.config", ids.aidRadio, 0⟩,
  ⟨"net.", ids.aidSystem, 0⟩,
  ⟨"dev.", ids.aidSystem, 0⟩,
  ⟨"runtime.", ids.aidSystem, 0⟩,
  ⟨"hw.", ids.aidSystem, 0⟩,
  ⟨"sys.", ids.aidSystem, 0⟩,
  ⟨"sys.powerctl", ids.aidShell, 0⟩,
  ⟨"service.", ids.aidSystem, 0⟩,
  ⟨"wlan.", ids.aidSystem, 0⟩,
  ⟨"bluetooth.", ids.aidBluetooth, 0⟩,
  ⟨"dhcp.", ids.aidSystem, 0⟩,
  ⟨"dhcp.", ids.aidDhcp, 0⟩,
  ⟨"debug.", ids.aidSystem, 0⟩,
  ⟨"debug.", ids.aidShell, 0⟩,
  ⟨"log.", ids.aidShell, 0⟩,
  ⟨"service.adb.root", ids.aidShell, 0⟩,
  ⟨"service.adb.tcp.port", ids.aidShell, 0⟩,
  ⟨"persist.sys.", ids.aidSystem, 0⟩,
  ⟨"persist.service.", ids.aidSystem, 0⟩,
  ⟨"persist.security.", ids.aidSystem, 0⟩,
  ⟨"persist.service.bdroid.", ids.aidBluetooth, 0⟩,
  ⟨"selinux.", ids.aidSystem, 0⟩]

structure ControlPerm where
  service : String
  uid : Nat
  gid : Nat

def controlPerms (ids : Ids) : List ControlPerm := [
  ⟨"dumpstate", ids.aidShell, ids.aidLog⟩,
  ⟨"ril-daemon", ids.aidRadio, ids.aidRadio⟩]

/-- `check_mac_perms`, by the answers of SELinux. -/
def checkMacPerms (answer : Answer) : Bool :=
  if !answer.selinuxEnabled then true
  else answer.peerContext && answer.propertyContexts && answer.labelled && answer.granted

def checkControlMacPerms (name : Text) (answer : Answer) : Bool :=
  if propValueMax + 4 ≤ ("ctl.".toList ++ name).length then false else checkMacPerms answer

def checkControlPerms (ids : Ids) (name : Text) (uid gid : Nat) (answer : Answer) : Bool :=
  if uid = ids.aidSystem || uid = 0 then checkControlMacPerms name answer
  else (controlPerms ids).any (fun perm => perm.service.toList = name &&
      ((uid ≠ 0 && perm.uid = uid) || (gid ≠ 0 && perm.gid = gid)))
    && checkControlMacPerms name answer

def withoutRo (name : Text) : Text := if startsWith "ro." name then name.drop 3 else name

def permUid (ids : Ids) (uid : Nat) : Nat :=
  if ids.multiuserGetAppId uid = ids.aidBluetooth then ids.multiuserGetAppId uid else uid

def checkPerms (ids : Ids) (name : Text) (uid gid : Nat) (answer : Answer) : Bool :=
  let name := withoutRo name
  if uid = 0 then checkMacPerms answer
  else (propertyPerms ids).any (fun perm => startsWith perm.head name &&
      ((permUid ids uid ≠ 0 && perm.uid = permUid ids uid) || (gid ≠ 0 && perm.gid = gid)))
    && checkMacPerms answer

/-- A connection to the socket: whether it was accepted with its credentials and a whole
message came, the two buffers of the message, and the peer. -/
structure Message where
  complete : Bool := true
  setprop : Bool := true
  name : Text
  value : Text
  uid : Nat
  gid : Nat

/-- `msg_start`: behind a colon come the dynamic arguments. -/
def msgStart (s : InitState) (name : Text) : InitState :=
  if ':' ∉ name then
    match serviceFindByName s name with
    | none => s
    | some i => serviceStart s i false
  else
    let (answer, s) := s.ask
    if !answer.strdup then s
    else match serviceFindByName s (name.takeWhile (· ≠ ':')) with
      | none => s
      | some i => serviceStart s i true

def msgStop (s : InitState) (name : Text) : InitState :=
  match serviceFindByName s name with
  | none => s
  | some i => serviceStop s i

def msgRestart (s : InitState) (name : Text) : InitState :=
  match serviceFindByName s name with
  | none => s
  | some i => serviceRestart s i

def handleControlMessage (s : InitState) (msg arg : Text) : InitState :=
  if msg = "start".toList then msgStart s arg
  else if msg = "stop".toList then msgStop s arg
  else if msg = "restart".toList then msgRestart s arg
  else s

def Message.propertyName (m : Message) : Text := cString (m.name.take (propNameMax - 1))

def Message.propertyValue (m : Message) : Text := cString (m.value.take (propValueMax - 1))

def handlePropertySetFd (s : InitState) (m : Message) : InitState :=
  let name := m.propertyName
  let value := m.propertyValue
  if !m.complete then s
  else if !m.setprop then s
  else if !isLegalPropertyName name then s
  else
    let (answer, s) := s.ask
    if startsWith "ctl." name then
      if checkControlPerms s.ids value m.uid m.gid answer then
        handleControlMessage s (name.drop 4) value
      else s
    else if checkPerms s.ids name m.uid m.gid answer then (propertySet s name value).2
    else s

inductive Call (name value : Text) (s : InitState) (i : Nat) : InitState → Prop
  | start : name = "ctl.start".toList → serviceFindByName s value = some i →
      Call name value s i (serviceStart s i false)
  | startWith : name = "ctl.start".toList →
      serviceFindByName s (value.takeWhile (· ≠ ':')) = some i → ':' ∈ value →
      Call name value s i (serviceStart s i true)
  | stop : name = "ctl.stop".toList → serviceFindByName s value = some i →
      Call name value s i (serviceStop s i)
  | restart : name = "ctl.restart".toList → serviceFindByName s value = some i →
      Call name value s i (serviceRestart s i)

theorem eq_ctl_of_drop {name : Text} {word : String} (control : startsWith "ctl." name = true)
    (rest : name.drop 4 = word.toList) : name = "ctl.".toList ++ word.toList := by
  obtain ⟨behind, rfl⟩ := List.isPrefixOf_iff_prefix.mp control
  rw [← rest]
  rfl

theorem handleControlMessage_cases (s : InitState) {name : Text} (value : Text)
    (control : startsWith "ctl." name = true) :
    Aside s (handleControlMessage s (name.drop 4) value) ∨
      ∃ t i, Aside s t ∧ Call name value t i (handleControlMessage s (name.drop 4) value) := by
  unfold handleControlMessage
  split_ifs with start stop restart
  · have named := eq_ctl_of_drop control start
    unfold msgStart
    split_ifs with arguments
    · dsimp only
      split_ifs
      · exact Or.inl (ask_aside s)
      · cases found : serviceFindByName s.ask.2 (value.takeWhile (· ≠ ':')) with
        | none => exact Or.inl (ask_aside s)
        | some i => exact Or.inr ⟨_, i, ask_aside s, .startWith named found arguments⟩
    · cases found : serviceFindByName s value with
      | none => exact Or.inl (Aside.refl s)
      | some i => exact Or.inr ⟨s, i, Aside.refl s, .start named found⟩
  · unfold msgStop
    cases found : serviceFindByName s value with
    | none => exact Or.inl (Aside.refl s)
    | some i => exact Or.inr ⟨s, i, Aside.refl s, .stop (eq_ctl_of_drop control stop) found⟩
  · unfold msgRestart
    cases found : serviceFindByName s value with
    | none => exact Or.inl (Aside.refl s)
    | some i => exact Or.inr ⟨s, i, Aside.refl s, .restart (eq_ctl_of_drop control restart) found⟩
  · exact Or.inl (Aside.refl s)

theorem handlePropertySetFd_cases (s : InitState) (m : Message) :
    Aside s (handlePropertySetFd s m) ∨
      (checkPerms s.ids m.propertyName m.uid m.gid s.ask.1 = true ∧
        startsWith "ctl." m.propertyName = false ∧
        handlePropertySetFd s m = (propertySet s.ask.2 m.propertyName m.propertyValue).2) ∨
      (checkControlPerms s.ids m.propertyValue m.uid m.gid s.ask.1 = true ∧
        ∃ t i, Aside s t ∧ Call m.propertyName m.propertyValue t i (handlePropertySetFd s m)) := by
  unfold handlePropertySetFd
  dsimp only
  split_ifs with _ _ _ control allowed allowed
  · exact Or.inl (Aside.refl s)
  · exact Or.inl (Aside.refl s)
  · exact Or.inl (Aside.refl s)
  · rcases handleControlMessage_cases s.ask.2 m.propertyValue control with
      aside | ⟨t, i, aside, call⟩
    · exact Or.inl ((ask_aside s).trans aside)
    · exact Or.inr (Or.inr ⟨allowed, t, i, (ask_aside s).trans aside, call⟩)
  · exact Or.inl (ask_aside s)
  · exact Or.inr (Or.inl ⟨allowed, by simpa using control, rfl⟩)
  · exact Or.inl (ask_aside s)

end AndroidBoot.Init.PropertyService
