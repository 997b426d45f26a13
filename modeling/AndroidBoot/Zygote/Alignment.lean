/- source: ZygoteInit/ZygoteInit.java
   digest: In every round of the select loop the array of descriptors is that of the connections. -/

import AndroidBoot.Foundation.Run
import AndroidBoot.Zygote.Replies
import Mathlib.Data.List.InsertIdx

set_option autoImplicit false

namespace AndroidBoot.Zygote.Alignment

open Foundation.Run SpawnRequest SelectLoop Replies

def round (loop : Loop) (event : Event) : Option Loop :=
  match step loop event with
  | some (.running loop) => some loop
  | _ => none

def atSelect (loop : Loop) : Loop := { loop with fdArray := toArray loop.fds loop.fdArray }

def FreshPeer : Event → Prop
  | .accepts (some connection) => connection.closed = false
  | .accepts none | .selectFails | .readable _ _ => True

def Spare (loop : Loop) : Prop := ∀ i, loop.fds.length < i → loop.fdArray[i]?.join = none

structure Tracks (serverFd : Nat) (loop : Loop) (connections : List Connection) : Prop where
  peers : loop.peers = none :: connections.map some
  fds : loop.fds = serverFd :: connections.map Connection.fd
  opened : ∀ connection ∈ connections, connection.closed = false
  spare : Spare loop

section Rounds

variable {serverFd : Nat} {loop next : Loop} {connections : List Connection}

theorem toArray_getElem? (spare : Spare loop) (i : Nat) :
    (i < loop.fds.length → (toArray loop.fds loop.fdArray)[i]? = loop.fds[i]?.map some) ∧
      (loop.fds.length ≤ i → (toArray loop.fds loop.fdArray)[i]?.join = none) := by
  unfold toArray
  split
  · rename_i longer
    constructor
    · intro inside
      rw [List.getElem?_append_left (by simpa using inside), List.getElem?_map]
    · intro behind
      rw [List.getElem?_append_right (by simpa using behind), List.length_map]
      rcases Nat.eq_or_lt_of_le behind with same | later
      · simp [same]
      · obtain ⟨k, rfl⟩ : ∃ k, i = loop.fds.length + 1 + k := ⟨i - (loop.fds.length + 1), by omega⟩
        have shift : loop.fds.length + 1 + k - loop.fds.length = k + 1 := by omega
        rw [shift, List.getElem?_cons_succ, List.getElem?_drop]
        exact spare _ later
  · constructor
    · intro _
      rw [List.getElem?_map]
    · intro behind
      rw [List.getElem?_eq_none (by simpa using behind)]
      rfl

theorem spare_of_length_le (spare : Spare loop) (array : next.fdArray = (atSelect loop).fdArray)
    (nearly : loop.fds.length ≤ next.fds.length + 1) : Spare next := by
  intro i behind
  rw [array]
  exact (toArray_getElem? spare i).2 (by omega)

theorem tracks_start (serverFd : Nat) : Tracks serverFd (runSelectLoopStart serverFd) [] where
  peers := rfl
  fds := rfl
  opened := nofun
  spare := by
    intro i behind
    rcases i with _ | _ | _ | _ | i
    all_goals rfl

section Tracks

variable (tracks : Tracks serverFd loop connections)
include tracks

theorem Tracks.accepts {connection : Connection} (fresh : connection.closed = false) :
    Tracks serverFd { atSelect loop with
      peers := loop.peers ++ [some connection], fds := loop.fds ++ [connection.fd] }
      (connections ++ [connection]) where
  peers := by simp [tracks.peers]
  fds := by simp [tracks.fds]
  opened := List.forall_mem_append.mpr ⟨tracks.opened, List.forall_mem_singleton.mpr fresh⟩
  spare := spare_of_length_le tracks.spare rfl (by simp; omega)

theorem Tracks.removes (i : Nat) :
    Tracks serverFd (removePeer (atSelect loop) (i + 1)) (connections.eraseIdx i) where
  peers := by simp [removePeer, atSelect, tracks.peers, List.eraseIdx_map]
  fds := by simp [removePeer, atSelect, tracks.fds, List.eraseIdx_map]
  opened := fun other member => tracks.opened other (List.mem_of_mem_eraseIdx member)
  spare := spare_of_length_le tracks.spare rfl (by
    have shorter : loop.fds.length - 1 ≤ (loop.fds.eraseIdx (i + 1)).length := by
      rw [List.length_eraseIdx]
      split <;> omega
    simp only [removePeer, atSelect]
    omega)

theorem Tracks.replies {i : Nat}
    {old new : Connection} (served : connections[i]? = some old) (fd : new.fd = old.fd)
    (fresh : new.closed = false) :
    Tracks serverFd { atSelect loop with peers := loop.peers.set (i + 1) (some new) }
      (connections.set i new) where
  peers := by simp [tracks.peers, List.map_set]
  fds := by
    obtain ⟨inside, rfl⟩ := List.getElem?_eq_some_iff.mp served
    have same : (connections.map Connection.fd).set i connections[i].fd =
        connections.map Connection.fd := by
      rw [← List.map_set, List.set_getElem_self]
    rw [List.map_set, fd, same]
    exact tracks.fds
  opened := by
    intro other member
    rcases List.mem_or_eq_of_mem_set member with earlier | rfl
    · exact tracks.opened other earlier
    · exact fresh
  spare := spare_of_length_le tracks.spare rfl (by simp [atSelect])

theorem Tracks.peer (i : Nat) : loop.peers[i + 1]? = connections[i]?.map some := by
  rw [tracks.peers, List.getElem?_cons_succ, List.getElem?_map]

end Tracks

theorem round_cases {event : Event} (taken : round loop event = some next) :
    (∃ connection, event = .accepts (some connection) ∧
      next = { atSelect loop with
        peers := loop.peers ++ [some connection], fds := loop.fds ++ [connection.fd] }) ∨
    ∃ i world connection, event = .readable (i + 1) world ∧
      loop.peers[i + 1]? = some (some connection) ∧
      (next = removePeer (atSelect loop) (i + 1) ∨
        (runOnce world connection).ending ≠ .closed ∧
          next = { atSelect loop with
            peers := loop.peers.set (i + 1) (some (runOnce world connection).connection) }) := by
  unfold round step at taken
  rcases event with _ | (_ | connection) | ⟨index, world⟩
  · cases taken
  · cases taken
  · cases taken
    exact .inl ⟨connection, rfl, rfl⟩
  · refine .inr ?_
    dsimp only at taken
    split at taken
    case h_2 => cases taken
    rename_i loop' served
    cases taken
    split at served
    case isFalse => cases served
    rename_i reported
    obtain ⟨i, rfl⟩ := Nat.exists_eq_succ_of_ne_zero reported.1
    refine ⟨i, world, ?_⟩
    unfold serve at served
    rcases found : loop.peers[i + 1]? with _ | _ | connection
    · simp only [found] at served
      cases served
    · simp only [found] at served
      cases served
    · refine ⟨connection, rfl, rfl, ?_⟩
      simp only [found] at served
      rcases ending : (runOnce world connection).ending with _ | ⟨pid, wrapped⟩ | _ | _ | _
      · simp only [ending] at served
        cases served
        exact .inl rfl
      · simp only [ending] at served
        cases served
        exact .inr ⟨nofun, rfl⟩
      · simp only [ending] at served
        cases served
        exact .inl rfl
      · simp only [ending] at served
        cases served
      · simp only [ending] at served
        cases served

theorem tracks_round {event : Event} (tracks : Tracks serverFd loop connections)
    (fresh : FreshPeer event) (taken : round loop event = some next) :
    ∃ later, Tracks serverFd next later := by
  obtain ⟨connection, rfl, rfl⟩ | ⟨i, world, connection, rfl, found, rfl | ⟨kept, rfl⟩⟩ :=
    round_cases taken
  · exact ⟨_, tracks.accepts fresh⟩
  · exact ⟨_, tracks.removes i⟩
  · have served : connections[i]? = some connection := by
      rw [tracks.peer, Option.map_eq_some_iff] at found
      obtain ⟨old, at_i, eq⟩ := found
      rw [at_i, Option.some.inj eq]
    have opened := tracks.opened connection (List.mem_of_getElem? served)
    refine ⟨_, tracks.replies served runOnce_fd ?_⟩
    by_contra closed
    exact kept ((runOnce_closed_iff opened).mp (by simpa using closed))

theorem tracks_of_reach
    (reach : Reach round (fun _ event => FreshPeer event) (runSelectLoopStart serverFd) loop) :
    ∃ connections, Tracks serverFd loop connections := by
  refine reach.invariant (fun loop => ∃ connections, Tracks serverFd loop connections)
    ⟨[], tracks_start serverFd⟩ ?_
  rintro loop event next ⟨connections, tracks⟩ fresh taken
  exact tracks_round tracks fresh taken

end Rounds

/-- The descriptor of an entry of `peers`; the first one is the server socket. -/
def descriptor (serverFd : Nat) : Option Connection → Nat
  | none => serverFd
  | some connection => connection.fd

/-- The lists and the array that `selectReadable` gets belong together. -/
structure Aligned (serverFd : Nat) (loop : Loop) : Prop where
  lengths : loop.fds.length = loop.peers.length
  server : loop.peers[0]? = some none
  entries : ∀ (i : Nat) peer, loop.peers[i]? = some peer →
    loop.fdArray[i]? = some (some (descriptor serverFd peer))
  spare : ∀ (i : Nat) slot, loop.peers.length ≤ i → loop.fdArray[i]? = some slot → slot = none
  live : ∀ (i : Nat) fd, i ≠ 0 → loop.fdArray[i]? = some (some fd) →
    ∃ connection, loop.peers[i]? = some (some connection) ∧ connection.fd = fd ∧
      connection.closed = false

theorem Tracks.aligned {serverFd : Nat} {loop : Loop} {connections : List Connection}
    (tracks : Tracks serverFd loop connections) : Aligned serverFd (atSelect loop) := by
  have lengths : loop.fds.length = loop.peers.length := by
    rw [tracks.fds, tracks.peers, List.length_cons, List.length_cons, List.length_map,
      List.length_map]
  have array := toArray_getElem? tracks.spare
  have entry (i : Nat) : loop.fds[i]? = loop.peers[i]?.map (descriptor serverFd) := by
    rw [tracks.fds, tracks.peers]
    cases i with
    | zero => rfl
    | succ i =>
      rw [List.getElem?_cons_succ, List.getElem?_cons_succ, List.getElem?_map,
        List.getElem?_map, Option.map_map]
      rfl
  have entries : ∀ (i : Nat) peer, loop.peers[i]? = some peer →
      (atSelect loop).fdArray[i]? = some (some (descriptor serverFd peer)) := by
    intro i peer found
    obtain ⟨inside, -⟩ := List.getElem?_eq_some_iff.mp found
    have written := (array i).1 (by omega)
    rw [entry, found] at written
    exact written
  have spare : ∀ (i : Nat) slot, loop.peers.length ≤ i →
      (atSelect loop).fdArray[i]? = some slot → slot = none := by
    intro i slot behind found
    have cleared := (array i).2 (by omega)
    exact (congrArg Option.join found).symm.trans cleared
  refine ⟨lengths, ?_, entries, spare, ?_⟩
  · exact (congrArg (·[0]?) tracks.peers).trans rfl
  · intro i fd other reported
    obtain ⟨i, rfl⟩ := Nat.exists_eq_succ_of_ne_zero other
    have inside : i + 1 < loop.peers.length := by
      by_contra behind
      cases spare _ _ (by omega) reported
    have found := List.getElem?_eq_getElem inside
    rw [tracks.peer, Option.map_eq_some_iff] at found
    obtain ⟨connection, at_i, eq⟩ := found
    have peer : loop.peers[i + 1]? = some (some connection) := by rw [tracks.peer, at_i]; rfl
    have same := (entries _ _ peer).symm.trans reported
    exact ⟨connection, peer, Option.some.inj (Option.some.inj same),
      tracks.opened connection (List.mem_of_getElem? at_i)⟩

/-- However connections come and go, at each call of `selectReadable` the array holds the
descriptors of the peers and nothing else, so that an index it returns denotes the open
connection with that descriptor. -/
theorem loop_aligned (serverFd : Nat) (loop : Loop)
    (reach : Reach round (fun _ event => FreshPeer event) (runSelectLoopStart serverFd) loop) :
    Aligned serverFd (atSelect loop) := by
  obtain ⟨connections, tracks⟩ := tracks_of_reach reach
  exact tracks.aligned

theorem loop_aligned_two_peers :
    Aligned 3 (atSelect ⟨[3, 5, 6], [none, some { Confinement.applicationRequest with
        reader := ⟨[], .eof⟩ }, some { Confinement.applicationRequest with fd := 6 }],
      [some 3, some 5, none, none]⟩) := by
  refine loop_aligned 3 _ ?_
  refine .next (.next (.next (l := .accepts (some Confinement.applicationRequest)) .start rfl rfl)
    (l := .readable 1 Confinement.permissive) trivial rfl)
    (l := .accepts (some { Confinement.applicationRequest with fd := 6 })) rfl rfl

end AndroidBoot.Zygote.Alignment
