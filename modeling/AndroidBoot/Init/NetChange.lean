/- source: init/init/property_service.c
   digest: When net.change holds the name of the net property that was set last. -/

import AndroidBoot.Init.AccessControl

set_option autoImplicit false

namespace AndroidBoot.Init.NetChange

open State Properties Services PropertyService Machine AccessControl
open State.InitState (Aside ask_aside)

def netChange : Text := "net.change".toList

/-- A call of `property_set` in init, or a message to the socket. -/
inductive Operation
  | set (name value : Text)
  | message (m : Message)

def perform (s : InitState) : Operation → InitState
  | .set name value => (propertySet s name value).2
  | .message m => handlePropertySetFd s m

def run (s : InitState) (operations : List Operation) : InitState := operations.foldl perform s

def accepted (s : InitState) (m : Message) : Bool :=
  m.complete && m.setprop && isLegalPropertyName m.propertyName &&
    !startsWith "ctl." m.propertyName && checkPerms s.ids m.propertyName m.uid m.gid s.ask.1

/-- The call of `property_set` that an operation makes. -/
def request (s : InitState) : Operation → Option (InitState × Text × Text)
  | .set name value => some (s, name, value)
  | .message m => if accepted s m then some (s.ask.2, m.propertyName, m.propertyValue) else none

def roomFor (s : InitState) (name : Text) : Bool := (s.properties name).isSome || (s.world 0).room

/-- A property that was set, and whether the store then had room for `net.change`. -/
structure Entry where
  name : Text
  value : Text
  room : Bool
  deriving DecidableEq

/-- What a call of `property_set` leaves in the log. -/
def entries (s : InitState) (name value : Text) : List Entry :=
  if (propertySet s name value).1 then
    [⟨name, value, roomFor (store s name value).2 netChange⟩]
  else []

def logged (s : InitState) (operation : Operation) : List Entry :=
  match request s operation with
  | some (t, name, value) => entries t name value
  | none => []

def log : InitState → List Operation → List Entry
  | _, [] => []
  | s, operation :: rest => logged s operation ++ log (perform s operation) rest

def Entry.net (e : Entry) : Bool := startsWith "net." e.name && e.name ≠ netChange

def note (held : Option Text) (e : Entry) : Option Text :=
  if e.name = netChange then some e.value
  else if e.net && e.room then some e.name
  else held

section Steps

variable (s : InitState) (name value : Text)

theorem propertySet_failed (failed : (store s name value).1 = false) :
    (propertySet s name value).1 = false ∧
      (propertySet s name value).2.properties = s.properties := by
  have kept := (store_spec s name value).2.2
  rw [failed] at kept
  unfold propertySet
  simp only [failed]
  exact ⟨rfl, kept⟩

theorem propertySet_ordinary (stored : (store s name value).1 = true)
    (ordinary : startsWith "net." name = false) :
    (propertySet s name value).1 = true ∧
      (propertySet s name value).2.properties netChange = s.properties netChange := by
  obtain ⟨-, taken, effect⟩ := propertySet_spec s name value
  have other : netChange ≠ name := by
    rintro rfl
    cases ordinary
  refine ⟨taken.mpr ((store_spec s name value).2.1.mp stored), ?_⟩
  rcases effect with direct | ⟨-, net, -⟩
  · rw [direct, store_elsewhere other]
  · rw [ordinary] at net
    cases net

theorem propertySet_direct (stored : (store s netChange value).1 = true) :
    (propertySet s netChange value).1 = true ∧
      (propertySet s netChange value).2.properties netChange = some value := by
  have effect := (store_spec s netChange value).2.2
  rw [stored, if_pos rfl] at effect
  have same : propertySet s netChange value = (true, (store s netChange value).2) := by
    unfold propertySet
    simp only [stored]
    rfl
  rw [same, effect]
  exact ⟨rfl, Function.update_self ..⟩

theorem store_netChange (legal : isLegalPropertyName name = true) :
    (store s netChange name).1 = roomFor s netChange := by
  have short : name.length < propValueMax := by
    simp only [isLegalPropertyName, Bool.and_eq_true, decide_eq_true_eq] at legal
    have bound : name.length < propNameMax := legal.1.1.1.1
    unfold propNameMax at bound
    unfold propValueMax
    omega
  have spelled : isLegalPropertyName netChange = true := by decide
  have changeable : startsWith "ro." netChange = false := by decide
  rw [Bool.eq_iff_iff, (store_spec s netChange name).2.1]
  unfold Takes roomFor
  cases s.properties netChange <;> simp [short, spelled, changeable]

theorem propertySet_net (stored : (store s name value).1 = true)
    (net : startsWith "net." name = true) (other : name ≠ netChange) :
    (propertySet s name value).1 = true ∧
      (propertySet s name value).2.properties netChange =
        if roomFor (store s name value).2 netChange then some name
        else s.properties netChange := by
  have legal := ((store_spec s name value).2.1.mp stored).1
  have tracked := (store_spec (store s name value).2 netChange name).2.2
  have same : propertySet s name value =
      (true, propertyChanged (trackNetChange (store s name value).2 name) name value) := by
    unfold propertySet
    simp only [stored, net]
    exact if_neg other
  rw [same, (propertyChanged_aside _ name value).properties]
  refine ⟨rfl, ?_⟩
  show (store (store s name value).2 netChange name).2.properties netChange = _
  rw [tracked, store_netChange _ _ legal]
  split_ifs
  · exact Function.update_self ..
  · exact store_elsewhere other.symm

theorem propertySet_netChange :
    (propertySet s name value).2.properties netChange =
      (entries s name value).foldl note (s.properties netChange) := by
  unfold entries
  cases stored : (store s name value).1 with
  | false =>
    obtain ⟨failed, kept⟩ := propertySet_failed s name value stored
    rw [failed, kept]
    rfl
  | true =>
    obtain rfl | change := eq_or_ne name netChange
    · obtain ⟨done, held⟩ := propertySet_direct s value stored
      rw [done, held]
      rfl
    cases net : startsWith "net." name with
    | false =>
      obtain ⟨done, kept⟩ := propertySet_ordinary s name value stored net
      rw [done, kept]
      simp [note, Entry.net, change, net]
    | true =>
      obtain ⟨done, held⟩ := propertySet_net s name value stored net change
      rw [done, held]
      simp [note, Entry.net, change, net]

theorem call_netChange {t u : InitState} {i : Nat} (call : Call name value t i u) :
    u.properties netChange = t.properties netChange := by
  by_contra changed
  obtain ⟨svc, -, named⟩ := (local_of_call call).properties netChange changed
  cases named

theorem handlePropertySetFd_accepted {m : Message} (ok : accepted s m = true) :
    handlePropertySetFd s m = (propertySet s.ask.2 m.propertyName m.propertyValue).2 := by
  simp only [accepted, Bool.and_eq_true, Bool.not_eq_true'] at ok
  obtain ⟨⟨⟨⟨complete, setprop⟩, legal⟩, plain⟩, allowed⟩ := ok
  simp [handlePropertySetFd, complete, setprop, legal, plain, allowed]

theorem handlePropertySetFd_not_accepted {m : Message} (refused : accepted s m = false) :
    (handlePropertySetFd s m).properties netChange = s.properties netChange := by
  have asked : s.ask.2.properties = s.properties := (ask_aside s).properties
  unfold accepted at refused
  unfold handlePropertySetFd
  dsimp only
  split_ifs with complete setprop legal control
  · rfl
  · rfl
  · rfl
  · rcases handleControlMessage_cases s.ask.2 m.propertyValue control with
      aside | ⟨t, i, aside, call⟩
    · rw [aside.properties, asked]
    · rw [call_netChange _ _ call, aside.properties, asked]
  · rw [asked]
  · simp_all
  · rw [asked]

theorem perform_netChange (operation : Operation) :
    (perform s operation).properties netChange =
      (logged s operation).foldl note (s.properties netChange) := by
  cases operation with
  | set name value => exact propertySet_netChange s name value
  | message m =>
    cases ok : accepted s m with
    | false =>
      simp only [logged, request, ok]
      exact handlePropertySetFd_not_accepted s ok
    | true =>
      simp only [logged, request, ok, perform, handlePropertySetFd_accepted s ok]
      exact propertySet_netChange s.ask.2 m.propertyName m.propertyValue

theorem run_netChange (operations : List Operation) :
    (run s operations).properties netChange =
      (log s operations).foldl note (s.properties netChange) := by
  induction operations generalizing s with
  | nil => rfl
  | cons operation rest ih =>
    rw [log, List.foldl_append, ← perform_netChange]
    exact ih (perform s operation)

end Steps

def lastDirect (entries : List Entry) : Option Entry :=
  (entries.filter fun e => e.name = netChange).getLast?

theorem foldl_note {after : List Entry} (quiet : ∀ e ∈ after, e.net = false) (held : Option Text) :
    after.foldl note held = ((lastDirect after).map Entry.value).or held := by
  induction after using List.reverseRecOn with
  | nil => simp [lastDirect]
  | append_singleton rest e ih =>
    have before := ih (List.forall_mem_append.mp quiet).1
    have here := quiet e (List.mem_append_right _ (List.mem_singleton_self e))
    rw [List.foldl_append, before]
    by_cases change : e.name = netChange
    · simp [note, lastDirect, change]
    · simp [note, lastDirect, change, here]

/-- After every run in which a property of the net was set, with room for `net.change`, the
property holds the name of the one set last, if and only if it was not itself set to something
else since. -/
theorem net_change_tracks_iff (s : InitState) (operations : List Operation)
    {before after : List Entry} {e : Entry} (split : log s operations = before ++ e :: after)
    (net : e.net = true) (latest : ∀ d ∈ after, d.net = false) (room : e.room = true) :
    (run s operations).properties netChange = some e.name ↔
      ∀ d, lastDirect after = some d → d.value = e.name := by
  have other : e.name ≠ netChange := by
    intro same
    simp [Entry.net, same] at net
  have noted (held : Option Text) : note held e = some e.name := by
    simp [note, other, net, room]
  rw [run_netChange, split, List.foldl_append, List.foldl_cons, noted, foldl_note latest]
  cases lastDirect after with
  | none | some => simp

def fromSystem (name value : String) : Operation :=
  .message { name := name.toList, value := value.toList, uid := 1000, gid := 1000 }

theorem net_change_tracks_iff_client :
    (run (booting [] []) [.set "net.dns1".toList "10.0.0.1".toList, fromSystem "net.dns2" "10.0.0.2",
      fromSystem "sys.usb.state" "none"]).properties netChange = some "net.dns2".toList := by
  have split : log (booting [] []) [.set "net.dns1".toList "10.0.0.1".toList,
      fromSystem "net.dns2" "10.0.0.2", fromSystem "sys.usb.state" "none"] =
      [⟨"net.dns1".toList, "10.0.0.1".toList, true⟩] ++
        ⟨"net.dns2".toList, "10.0.0.2".toList, true⟩ ::
        [⟨"sys.usb.state".toList, "none".toList, true⟩] := by
    decide +kernel
  refine (net_change_tracks_iff (booting [] []) _ split rfl ?_ rfl).mpr ?_
  · decide
  · decide

theorem client_sets_net_change :
    let operations := [.set "net.dns1".toList "10.0.0.1".toList, fromSystem "net.change" "net.dns2"]
    log (booting [] []) operations =
        [⟨"net.dns1".toList, "10.0.0.1".toList, true⟩,
          ⟨"net.change".toList, "net.dns2".toList, true⟩] ∧
      (run (booting [] []) operations).properties netChange = some "net.dns2".toList ∧
      (run (booting [] []) operations).properties "net.dns2".toList = none := by
  refine ⟨?_, ?_, ?_⟩ <;> decide +kernel

end AndroidBoot.Init.NetChange
