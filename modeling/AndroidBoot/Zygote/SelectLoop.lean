/- source: ZygoteInit/ZygoteInit.java
   digest: The loop that accepts connections and serves their requests, and what ends it. -/

import AndroidBoot.Zygote.SpawnRequest

set_option autoImplicit false

namespace AndroidBoot.Zygote.SelectLoop

open SpawnArguments SpawnRequest

/-- The variables of `runSelectLoop`; the first peer is the server socket. -/
structure Loop where
  fds : List Nat
  peers : List (Option Connection)
  fdArray : List (Option Nat)

def toArray (fds : List Nat) (fdArray : List (Option Nat)) : List (Option Nat) :=
  if fds.length < fdArray.length then
    fds.map some ++ none :: fdArray.drop (fds.length + 1)
  else fds.map some

def runSelectLoopStart (serverFd : Nat) : Loop where
  fds := [serverFd]
  peers := [none]
  fdArray := List.replicate 4 none

inductive Event
  | selectFails
  | accepts (connection : Option Connection)
  | readable (index : Nat) (world : World)

inductive Cause
  | select
  | accept
  | indexOutOfBounds
  | request (exception : Thrown)

inductive Fate
  | running (loop : Loop)
  | child (args : Arguments)
  | died (cause : Cause)

def removePeer (loop : Loop) (index : Nat) : Loop :=
  { loop with peers := loop.peers.eraseIdx index, fds := loop.fds.eraseIdx index }

def serve (loop : Loop) (index : Nat) (world : World) : Fate :=
  match loop.peers[index]? with
  | none | some none => .died .indexOutOfBounds
  | some (some connection) =>
    let served := runOnce world connection
    match served.ending with
    | .closed | .unanswered => .running (removePeer loop index)
    | .replied _ _ =>
      .running { loop with peers := loop.peers.set index (some served.connection) }
    | .thrown exception => .died (.request exception)
    | .child args => .child args

def step (loop : Loop) (event : Event) : Option Fate :=
  let loop := { loop with fdArray := toArray loop.fds loop.fdArray }
  match event with
  | .selectFails => some (.died .select)
  | .accepts none => some (.died .accept)
  | .accepts (some connection) =>
    some (.running { loop with
      peers := loop.peers ++ [some connection], fds := loop.fds ++ [connection.fd] })
  | .readable index world =>
    if index ≠ 0 ∧ (loop.fdArray[index]?.join).isSome then some (serve loop index world) else none

end AndroidBoot.Zygote.SelectLoop
