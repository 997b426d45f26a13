/- source: ZygoteInit/ZygoteConnection.java, ZygoteInit.java
   digest: The select loop above the readers' buffers, and when a buffer keeps a whole request back. -/

import AndroidBoot.Foundation.Run
import AndroidBoot.Zygote.Replies
import AndroidBoot.Zygote.WireFormat

/-!
Here a connection is seen from below: characters arrive at the socket, the
`InputStreamReader` takes some of them and may keep some back, and the `BufferedReader` is
filled with at most 256 of those. Only what is still at the socket makes a descriptor
readable.
-/

set_option autoImplicit false

namespace AndroidBoot.Zygote.BufferedRequests

open Foundation.JavaText Foundation.LineReading Foundation.Run SpawnArguments SpawnRequest Survival
open Replies

/-- What `readArgumentList` gives, with what is left in the buffer and of the fills. -/
inductive BufferedArguments
  | arguments (args : List Text) (buffer : LineBuffer) (fills : List Text)
  | eof
  | thrown (exception : Thrown)

def bufferedArguments (ends : StreamEnd) : Nat → LineBuffer → List Text → BufferedArguments
  | 0, buffer, fills => .arguments [] buffer fills
  | argc + 1, buffer, fills =>
    match buffer.readLine ends [] fills with
    | .eof => .thrown (.io "truncated request")
    | .ioException => .thrown (.io "read")
    | .line arg buffer fills =>
      match bufferedArguments ends argc buffer fills with
      | .arguments args buffer fills => .arguments (arg :: args) buffer fills
      | failed => failed

/-- `readArgumentList`, through the buffer. -/
def bufferedArgumentList (others : OtherDigits) (ends : StreamEnd) (buffer : LineBuffer)
    (fills : List Text) : BufferedArguments :=
  match buffer.readLine ends [] fills with
  | .eof => .eof
  | .ioException => .thrown (.io "read")
  | .line s buffer fills =>
    match parseInt others s with
    | none => .thrown (.io "invalid wire format")
    | some argc =>
      if maxZygoteArgc < argc then .thrown (.io "max arg count exceeded")
      else if argc < 0 then .thrown .negativeArraySize
      else bufferedArguments ends argc.toNat buffer fills

def BufferedArguments.seen (ends : StreamEnd) : BufferedArguments → ArgumentsRead
  | .arguments args buffer fills => .arguments args (buffer.reader fills ends)
  | .eof => .eof
  | .thrown exception => .thrown exception

section Refinement

variable (others : OtherDigits) (ends : StreamEnd)

theorem reader_readLine (buffer : LineBuffer) (fills : List Text) :
    (buffer.reader fills ends).readLine = (buffer.readLine ends [] fills).seen ends :=
  readLine_seen ends fills [] buffer oneLine_nil

theorem bufferedArguments_seen (argc : Nat) (buffer : LineBuffer) (fills : List Text) :
    readArguments argc (buffer.reader fills ends) =
      (bufferedArguments ends argc buffer fills).seen ends := by
  induction argc generalizing buffer fills with
  | zero => rfl
  | succ argc ih =>
    unfold readArguments bufferedArguments
    rw [reader_readLine]
    rcases buffer.readLine ends [] fills with ⟨arg, buffer, fills⟩ | _ | _
    · simp only [BufferedRead.seen, ih]
      rcases bufferedArguments ends argc buffer fills with ⟨args, buffer, fills⟩ | _ | _
      · rfl
      · rfl
      · rfl
    · rfl
    · rfl

theorem bufferedArgumentList_seen (buffer : LineBuffer) (fills : List Text) :
    readArgumentList others (buffer.reader fills ends) =
      (bufferedArgumentList others ends buffer fills).seen ends := by
  unfold readArgumentList bufferedArgumentList
  rw [reader_readLine]
  rcases buffer.readLine ends [] fills with ⟨s, buffer, fills⟩ | _ | _
  · simp only [BufferedRead.seen]
    rcases parseInt others s with _ | argc
    · rfl
    · dsimp only
      split
      · rfl
      · split
        · rfl
        · exact bufferedArguments_seen ends argc.toNat buffer fills
  · rfl
  · rfl

end Refinement

/-- A fill of the buffer: how many characters the `InputStreamReader` takes from the
socket, and how many it then gives. -/
structure Fill where
  taken : Nat
  given : Nat

structure Client where
  fd : Nat
  peer : Peer
  arrived : Text
  hungUp : Bool
  ahead : Text
  buffer : LineBuffer

def Client.receive (client : Client) (s : Text) : Client :=
  { client with arrived := client.arrived ++ s }

def bufferSize : Nat := 256

def Client.fill (client : Client) (fill : Fill) : Option (Text × Client) :=
  let ahead := client.ahead ++ client.arrived.take fill.taken
  if 0 < fill.given ∧ fill.given ≤ bufferSize ∧ fill.given ≤ ahead.length then
    some (ahead.take fill.given,
      { client with arrived := client.arrived.drop fill.taken, ahead := ahead.drop fill.given })
  else none

def Client.deliver (client : Client) : List Fill → Option (List Text × Client)
  | [] => some ([], client)
  | first :: fills => do
      let (s, client) ← client.fill first
      let (more, client) ← client.deliver fills
      return (s :: more, client)

def Client.connection (client : Client) (fills : List Text) (ends : StreamEnd) : Connection where
  fd := client.fd
  peer := client.peer
  reader := client.buffer.reader fills ends
  closed := false

inductive Event
  | connects (fd : Nat) (peer : Peer)
  | arrives (index : Nat) (s : Text)
  | hangsUp (index : Nat)
  /-- `selectReadable` returns this peer, and `runOnce` reads with these fills; `during`
  arrives in the meantime. -/
  | readable (index : Nat) (world : World) (during : Text) (fills : List Fill) (ends : StreamEnd)

def Client.Readable (client : Client) : Prop := client.arrived ≠ [] ∨ client.hungUp = true

instance (client : Client) : Decidable client.Readable :=
  inferInstanceAs (Decidable (_ ∨ _))

/-- A call of `runOnce` with what its fills give: the clients of the loop afterwards. A fill
that the call does not make is no fill of this event. -/
def serve (others : OtherDigits) (clients : List Client) (index : Nat) (client : Client)
    (world : World) (fills : List Text) (ends : StreamEnd) : Option (List Client) :=
  let world := { world with otherDigits := others }
  match (runOnce world (client.connection fills ends)).ending with
  | .closed | .unanswered => some (clients.eraseIdx index)
  | .replied _ _ =>
    match bufferedArgumentList others ends client.buffer fills with
    | .arguments _ buffer [] => some (clients.set index { client with buffer })
    | _ => none
  | .thrown _ | .child _ => none

def step (others : OtherDigits) (clients : List Client) : Event → Option (List Client)
  | .connects fd peer =>
    some (clients ++ [⟨fd, peer, [], false, [], ⟨[], false⟩⟩])
  | .arrives index s => some (clients.modify index (·.receive s))
  | .hangsUp index => some (clients.modify index ({ · with hungUp := true }))
  | .readable index world during fills ends => do
      let client ← clients[index]?
      if client.Readable then
        let (texts, client) ← (client.receive during).deliver fills
        serve others clients index client world texts ends
      else none

def HoldsRequest (others : OtherDigits) (buffer : LineBuffer) : Prop :=
  ∃ args rest, readArgumentList others (buffer.reader [] .ioException) = .arguments args rest

def NoneStranded (others : OtherDigits) (clients : List Client) : Prop :=
  ∀ client ∈ clients, ¬ HoldsRequest others client.buffer

def TwoRequests (others : OtherDigits) (reader : Reader) : Prop :=
  ∃ args rest, readArgumentList others reader = .arguments args rest ∧
    ∃ more left, readArgumentList others { rest with ends := .ioException } = .arguments more left

def Paced (others : OtherDigits) (clients : List Client) : Event → Prop
  | .readable index world during fills ends =>
    ∀ client texts after, clients[index]? = some client →
      (client.receive during).deliver fills = some (texts, after) →
        world.descriptors.isSome → world.replies = true →
          ¬ TwoRequests others (client.buffer.reader texts ends)
  | .connects _ _ | .arrives _ _ | .hangsUp _ => True

section Rounds

variable {others : OtherDigits} {clients next : List Client} {index : Nat} {client : Client}
  {world : World} {fills : List Text} {ends : StreamEnd}

theorem Client.fill_buffer {fill : Fill} {s : Text} {after : Client}
    (filled : client.fill fill = some (s, after)) : after.buffer = client.buffer := by
  unfold Client.fill at filled
  dsimp only at filled
  split at filled
  · cases filled
    rfl
  · cases filled

theorem Client.deliver_buffer {requested : List Fill} {texts : List Text} {after : Client}
    (delivered : client.deliver requested = some (texts, after)) :
    after.buffer = client.buffer := by
  induction requested generalizing client texts with
  | nil =>
    cases delivered
    rfl
  | cons fill requested ih =>
    obtain ⟨⟨s, middle⟩, filled, rest⟩ := Option.bind_eq_some_iff.mp delivered
    obtain ⟨⟨more, last⟩, later, result⟩ := Option.bind_eq_some_iff.mp rest
    cases result
    exact (ih later).trans (Client.fill_buffer filled)

theorem not_holdsRequest_empty (others : OtherDigits) : ¬ HoldsRequest others ⟨[], false⟩ := by
  rintro ⟨args, rest, read⟩
  cases read

theorem noneStranded_modify (quiet : NoneStranded others clients) {f : Client → Client}
    (same : ∀ client, (f client).buffer = client.buffer) :
    NoneStranded others (clients.modify index f) := by
  intro client member
  obtain ⟨i, found⟩ := List.mem_iff_getElem?.mp member
  rw [List.getElem?_modify] at found
  obtain ⟨old, before, rfl⟩ := Option.map_eq_some_iff.mp found
  have still := quiet old (List.mem_of_getElem? before)
  split
  · rwa [same]
  · exact still

theorem noneStranded_set_iff (quiet : NoneStranded others clients) (found : index < clients.length) :
    NoneStranded others (clients.set index client) ↔ ¬ HoldsRequest others client.buffer := by
  constructor
  · intro after
    exact after client (List.mem_set found client)
  · intro empty other member
    rcases List.mem_or_eq_of_mem_set member with earlier | rfl
    · exact quiet other earlier
    · exact empty

theorem holdsRequest_iff_twoRequests {args : List Text} {buffer : LineBuffer}
    (read : bufferedArgumentList others ends client.buffer fills = .arguments args buffer []) :
    HoldsRequest others buffer ↔ TwoRequests others (client.buffer.reader fills ends) := by
  have whole : readArgumentList others (client.buffer.reader fills ends) =
      .arguments args (buffer.reader [] ends) := by
    rw [bufferedArgumentList_seen, read]
    rfl
  constructor
  · rintro ⟨more, left, further⟩
    exact ⟨args, _, whole, more, left, further⟩
  · rintro ⟨args', rest, read', more, left, further⟩
    rw [whole] at read'
    cases read'
    exact ⟨more, left, further⟩

theorem complete_connection_iff : Complete { world with otherDigits := others }
      (client.connection fills ends) ↔
    (∃ args rest, readArgumentList others (client.buffer.reader fills ends) = .arguments args rest) ∧
      world.descriptors.isSome :=
  complete_iff

theorem serve_cases (served : serve others clients index client world fills ends = some next) :
    (next = clients.eraseIdx index ∧
      (world.descriptors.isSome → world.replies = true →
        ¬ TwoRequests others (client.buffer.reader fills ends))) ∨
    ∃ args buffer, bufferedArgumentList others ends client.buffer fills =
        .arguments args buffer [] ∧
      next = clients.set index { client with buffer } ∧
      world.descriptors.isSome ∧ world.replies = true := by
  unfold serve at served
  by_cases complete : Complete { world with otherDigits := others } (client.connection fills ends)
  · rcases ending_of_complete complete with ⟨args, child⟩ | ⟨pid, wrapped, replied, replies⟩ |
      ⟨unanswered, fails⟩
    · simp only [child] at served
      cases served
    · simp only [replied] at served
      refine .inr ?_
      split at served
      · rename_i args buffer read
        cases served
        exact ⟨args, buffer, read, rfl, (complete_connection_iff.mp complete).2, replies⟩
      · cases served
    · simp only [unanswered] at served
      cases served
      refine .inl ⟨rfl, fun _ replies => ?_⟩
      rw [replies] at fails
      cases fails
  · rcases ending_of_not_complete complete with closed | ⟨exception, thrown⟩
    · simp only [closed] at served
      cases served
      refine .inl ⟨rfl, fun described _ two => complete ?_⟩
      obtain ⟨args, rest, read, -⟩ := two
      exact complete_connection_iff.mpr ⟨⟨args, rest, read⟩, described⟩
    · simp only [thrown] at served
      cases served

theorem step_readable {during : Text} {requested : List Fill}
    (taken : step others clients (.readable index world during requested ends) = some next) :
    ∃ client texts after, clients[index]? = some client ∧ client.Readable ∧
      (client.receive during).deliver requested = some (texts, after) ∧
      after.buffer = client.buffer ∧
      serve others clients index after world texts ends = some next := by
  obtain ⟨client, found, rest⟩ := Option.bind_eq_some_iff.mp taken
  by_cases readable : client.Readable
  · rw [if_pos readable] at rest
    obtain ⟨⟨texts, after⟩, delivered, served⟩ := Option.bind_eq_some_iff.mp rest
    have kept := Client.deliver_buffer delivered
    exact ⟨client, texts, after, found, readable, delivered, kept, served⟩
  · rw [if_neg readable] at rest
    cases rest

theorem noneStranded_step_iff {event : Event} (quiet : NoneStranded others clients)
    (taken : step others clients event = some next) :
    NoneStranded others next ↔ Paced others clients event := by
  cases event with
  | connects fd peer =>
    cases taken
    exact iff_of_true (List.forall_mem_append.mpr
      ⟨quiet, List.forall_mem_singleton.mpr (not_holdsRequest_empty others)⟩) trivial
  | arrives | hangsUp =>
    cases taken
    exact iff_of_true (noneStranded_modify quiet fun _ => rfl) trivial
  | readable index world during requested ends =>
    obtain ⟨client, texts, after, found, -, delivered, kept, served⟩ := step_readable taken
    have paced : Paced others clients (.readable index world during requested ends) ↔
        (world.descriptors.isSome → world.replies = true →
          ¬ TwoRequests others (client.buffer.reader texts ends)) := by
      constructor
      · intro all
        exact all client texts after found delivered
      · intro this client' texts' after' found' delivered'
        rw [found] at found'
        cases found'
        rw [delivered] at delivered'
        cases delivered'
        exact this
    rw [paced]
    rcases serve_cases served with ⟨rfl, single⟩ | ⟨args, buffer, read, rfl, described, replies⟩
    · refine iff_of_true ?_ (by rwa [← kept])
      intro other member
      exact quiet other (List.mem_of_mem_eraseIdx member)
    · obtain ⟨inside, -⟩ := List.getElem?_eq_some_iff.mp found
      rw [noneStranded_set_iff quiet inside, holdsRequest_iff_twoRequests read, kept]
      exact ⟨fun single _ _ => single, fun single => single described replies⟩

end Rounds

/-- In every run of the loop whose requests are paced, no buffer holds a whole request when
`selectReadable` is called; and a step from such a state keeps it so just when it is paced
itself. -/
theorem none_stranded_of_paced (others : OtherDigits) (clients : List Client)
    (reach : Reach (step others) (Paced others) [] clients) :
    NoneStranded others clients ∧
      ∀ event next, step others clients event = some next →
        (NoneStranded others next ↔ Paced others clients event) := by
  have quiet : NoneStranded others clients := by
    refine reach.invariant (NoneStranded others) (fun _ member => by cases member) ?_
    intro before event after quiet paced taken
    exact (noneStranded_step_iff quiet taken).mpr paced
  exact ⟨quiet, fun event next taken => noneStranded_step_iff quiet taken⟩

def Blocked (clients : List Client) : Prop := ∀ client ∈ clients, ¬ client.Readable

def servedClient (held : Text) : Client :=
  ⟨5, ⟨10001, 10001, 0⟩, [], false, [], ⟨held, false⟩⟩

theorem none_stranded_of_paced_single : NoneStranded (fun _ => none) [servedClient []] := by
  refine (none_stranded_of_paced (fun _ => none) _ ?_).1
  refine .next (.next (.next (l := .connects 5 ⟨10001, 10001, 0⟩) .start trivial rfl)
    (l := .arrives 0 (text "1\nMain\n")) trivial rfl)
    (l := .readable 0 Confinement.permissive [] [⟨7, 7⟩] .ioException) ?_ rfl
  intro client texts after found delivered _ _
  cases found
  cases delivered
  rintro ⟨args, rest, read, more, left, further⟩
  cases read
  cases further

theorem second_request_stranded :
    Reach (step fun _ => none) (fun _ _ => True) [] [servedClient (text "1\nOther\n")] ∧
      Blocked [servedClient (text "1\nOther\n")] ∧
      HoldsRequest (fun _ => none) (servedClient (text "1\nOther\n")).buffer := by
  refine ⟨?_, ?_, [text "Other"], ⟨[], .ioException⟩, rfl⟩
  · exact .next (.next (.next (l := .connects 5 ⟨10001, 10001, 0⟩) .start trivial rfl)
      (l := .arrives 0 (text "1\nMain\n1\nOther\n")) trivial rfl)
      (l := .readable 0 Confinement.permissive [] [⟨15, 15⟩] .ioException) trivial rfl
  · intro client member
    rw [List.mem_singleton.mp member]
    rintro (arrived | closed)
    · exact arrived rfl
    · cases closed

end AndroidBoot.Zygote.BufferedRequests
