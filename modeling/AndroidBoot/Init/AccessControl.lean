/- source: init/init/property_service.c, init/init/init.c
   digest: What a peer other than root can change through the socket of the property service. -/

import AndroidBoot.Init.Machine

set_option autoImplicit false

namespace AndroidBoot.Init.AccessControl

open State Properties Services PropertyService Machine
open State.InitState (Aside ask_aside)

/-- A row of `property_perms` for the name, without one `ro.`, names the uid or, for a uid of
the Bluetooth app, that app's id. -/
def Granted (ids : Ids) (uid : Nat) (name : Text) : Prop :=
  ∃ perm ∈ propertyPerms ids, startsWith perm.head (withoutRo name) = true ∧
    (perm.uid = uid ∨
      ids.multiuserGetAppId uid = ids.aidBluetooth ∧ perm.uid = ids.aidBluetooth)

def MayControl (ids : Ids) (m : Message) : Prop :=
  m.uid = ids.aidSystem ∨
    ∃ perm ∈ controlPerms ids, perm.service.toList = m.propertyValue ∧
      (perm.uid = m.uid ∨ perm.gid = m.gid)

def Controls (m : Message) (s : InitState) (i : Nat) : Prop :=
  m.propertyName ∈ ["ctl.start".toList, "ctl.stop".toList, "ctl.restart".toList] ∧
    MayControl s.ids m ∧
    (serviceFindByName s m.propertyValue = some i ∨
      ':' ∈ m.propertyValue ∧
        serviceFindByName s (m.propertyValue.takeWhile (· ≠ ':')) = some i)

structure Confined (m : Message) (s t : InitState) : Prop where
  properties : ∀ name, t.properties name ≠ s.properties name →
    (name = m.propertyName ∧ Granted s.ids m.uid name) ∨
    (name = "net.change".toList ∧ Granted s.ids m.uid m.propertyName ∧
      startsWith "net." m.propertyName = true ∧
      t.properties m.propertyName = some m.propertyValue) ∨
    (∃ i svc, Controls m s i ∧ s.services[i]? = some svc ∧ name = published svc.name)
  services : ∀ i : Nat, t.services[i]? ≠ s.services[i]? → Controls m s i

theorem granted_of_checkPerms {ids : Ids} {name : Text} {uid gid : Nat} {answer : Answer} (peer : uid ≠ 0)
    (allowed : checkPerms ids name uid gid answer = true) : Granted ids uid name := by
  have noGroup : ∀ perm ∈ propertyPerms ids, perm.gid = 0 := by simp [propertyPerms]
  unfold checkPerms at allowed
  simp only [peer, if_false, Bool.and_eq_true, List.any_eq_true] at allowed
  obtain ⟨⟨perm, row, head, owner⟩, -⟩ := allowed
  refine ⟨perm, row, head, ?_⟩
  rw [noGroup perm row] at owner
  have same : perm.uid = permUid ids uid := by
    simp only [Bool.or_eq_true, Bool.and_eq_true, decide_eq_true_eq] at owner
    omega
  unfold permUid at same
  split_ifs at same with bluetooth
  · exact Or.inr ⟨bluetooth, same.trans bluetooth⟩
  · exact Or.inl same

variable {m : Message}

theorem mayControl_of_checkControlPerms {ids : Ids} {answer : Answer} (peer : m.uid ≠ 0)
    (allowed : checkControlPerms ids m.propertyValue m.uid m.gid answer = true) :
    MayControl ids m := by
  unfold checkControlPerms at allowed
  by_cases system : m.uid = ids.aidSystem
  · exact Or.inl system
  · simp only [system, peer, decide_false, Bool.or_false, Bool.false_eq_true, if_false,
      Bool.and_eq_true, List.any_eq_true] at allowed
    obtain ⟨⟨perm, row, service, owner⟩, -⟩ := allowed
    refine Or.inr ⟨perm, row, by simpa using service, ?_⟩
    simp only [Bool.or_eq_true, Bool.and_eq_true, decide_eq_true_eq] at owner
    omega

theorem confined_propertySet {s t : InitState} (aside : Aside s t)
    (granted : Granted s.ids m.uid m.propertyName) :
    Confined m s (propertySet t m.propertyName m.propertyValue).2 := by
  obtain ⟨quiet, -, effect⟩ := propertySet_spec t m.propertyName m.propertyValue
  constructor
  · intro name changed
    by_cases named : name = m.propertyName
    · exact Or.inl ⟨named, named ▸ granted⟩
    rcases effect with direct | ⟨taken, net, other, tracked⟩
    · rw [direct, store_elsewhere named, aside.properties] at changed
      exact absurd rfl changed
    · have change : name = "net.change".toList := by
        by_contra differs
        rw [tracked, trackNetChange, store_elsewhere differs, store_elsewhere named,
          aside.properties] at changed
        exact changed rfl
      have stored : (store t m.propertyName m.propertyValue).1 = true :=
        (store_spec t m.propertyName m.propertyValue).2.1.mpr taken
      refine Or.inr (Or.inl ⟨change, granted, net, ?_⟩)
      rw [tracked, trackNetChange, store_elsewhere other,
        (store_spec t m.propertyName m.propertyValue).2.2, if_pos stored]
      exact Function.update_self _ _ _
  · intro i changed
    rw [quiet.services, aside.services] at changed
    exact absurd rfl changed

theorem confined_local {s t u : InitState} {i : Nat} (aside : Aside s t)
    (controls : Controls m s i) (local_i : Local t i u) : Confined m s u := by
  constructor
  · intro name changed
    rw [← aside.properties] at changed
    obtain ⟨svc, found, named⟩ := local_i.properties name changed
    rw [aside.services] at found
    exact Or.inr (Or.inr ⟨i, svc, controls, found, named⟩)
  · intro j changed
    by_cases here : j = i
    · exact here ▸ controls
    · rw [local_i.services j here, aside.services] at changed
      exact absurd rfl changed

theorem controls_of_call {s t u : InitState} {i : Nat} (aside : Aside s t)
    (may : MayControl s.ids m) (call : Call m.propertyName m.propertyValue t i u) :
    Controls m s i := by
  have same (name : Text) : serviceFindByName t name = serviceFindByName s name := by
    unfold serviceFindByName
    rw [aside.services]
  cases call with
  | start named found | stop named found | restart named found =>
    exact ⟨by simp [named], may, Or.inl ((same _).symm.trans found)⟩
  | startWith named found arguments =>
    exact ⟨by simp [named], may, Or.inr ⟨arguments, (same _).symm.trans found⟩⟩

theorem local_of_call {name value : Text} {s t : InitState} {i : Nat}
    (call : Call name value s i t) : Local s i t := by
  cases call with
  | start => exact serviceStart_local s i false
  | startWith => exact serviceStart_local s i true
  | stop => exact serviceStopOrReset_local s i .disabled
  | restart => exact serviceRestart_local s i

theorem confined_handlePropertySetFd (s : InitState) (peer : m.uid ≠ 0) :
    Confined m s (handlePropertySetFd s m) := by
  rcases handlePropertySetFd_cases s m with aside | ⟨allowed, -, set⟩ | ⟨allowed, t, i, aside, call⟩
  · constructor
    · intro name changed
      exact absurd (congrFun aside.properties name) changed
    · intro i changed
      rw [aside.services] at changed
      exact absurd rfl changed
  · rw [set]
    exact confined_propertySet (ask_aside s) (granted_of_checkPerms peer allowed)
  · have may := mayControl_of_checkControlPerms peer allowed
    exact confined_local aside (controls_of_call aside may call) (local_of_call call)

/-- In every sequence of messages of peers other than root, each message changes only what its
peer may change. -/
theorem messages_confined (s : InitState) {messages : List Message}
    (peers : ∀ m ∈ messages, m.uid ≠ 0) {before after : List Message} {m : Message}
    (split : messages = before ++ m :: after) :
    Confined m (before.foldl handlePropertySetFd s)
      ((before ++ [m]).foldl handlePropertySetFd s) := by
  have peer : m.uid ≠ 0 := peers m (by simp [split])
  rw [List.foldl_append]
  exact confined_handlePropertySetFd _ peer

def radioMessages : List Message := [
  { name := "net.ppp0.dns1".toList, value := "10.0.0.1".toList, uid := 1001, gid := 1001 },
  { name := "ctl.restart".toList, value := "ril-daemon".toList, uid := 1001, gid := 1001 }]

theorem messages_confined_radio :
    let s : InitState := radioMessages.foldl handlePropertySetFd
      (booting [parseService "ril-daemon".toList] [])
    s.properties "net.change".toList = some "net.ppp0.dns1".toList ∧
      (s.services.map (·.running)) = [true] ∧
      ∀ m ∈ radioMessages.getLast?,
        Confined m ((radioMessages.take 1).foldl handlePropertySetFd
          (booting [parseService "ril-daemon".toList] [])) s := by
  have peers : ∀ m ∈ radioMessages, m.uid ≠ 0 := by decide
  refine ⟨by decide +kernel, by decide +kernel, ?_⟩
  rintro m ⟨⟩
  exact messages_confined (booting [parseService "ril-daemon".toList] []) peers rfl

end AndroidBoot.Init.AccessControl
