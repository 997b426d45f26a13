/- source: bootable/lk/app/aboot/fastboot.c
   digest: The fastboot command loop, its replies and the download command. -/

import Mathlib.Algebra.Order.Ring.Int
import Mathlib.Data.List.Basic

/-!
One round is one command packet with everything the host and the handler do until
the next packet is read. The USB transport reports no error here: every request is
queued and completes, possibly short. A handler registered by other code can only
reach the host through the functions of `fastboot.h`, so a call of one is the list
of the calls it makes, and whether it returns.
-/

set_option autoImplicit false

namespace AndroidBoot.Aboot.Fastboot

abbrev Text := List Char

def maxRspSize : Nat := 64

def maxUsbfsBulkSize : Nat := 16 * 1024

inductive FastbootState where
  | offline | command | complete | error
  deriving DecidableEq, Repr

inductive Code where
  | info | data | okay | fail
  deriving DecidableEq, Repr

def Code.terminal : Code → Bool
  | .okay => true
  | .fail => true
  | _ => false

inductive Event where
  | received (packet : Text)
  | sent (code : Code) (reason : Text)
  deriving DecidableEq, Repr

inductive Handler where
  | getvar
  | download
  | other
  deriving DecidableEq, Repr

structure Command where
  word : Text
  handle : Handler
  deriving DecidableEq, Repr

/-- The static data of `fastboot.c`, with the traffic so far; the lists are latest first. -/
structure Session where
  commands : List Command
  vars : List (Text × Text)
  downloadMax : BitVec 32
  downloadSize : BitVec 32
  state : FastbootState
  log : List Event

def fastbootRegister (s : Session) (word : Text) (handle : Handler) : Session :=
  { s with commands := ⟨word, handle⟩ :: s.commands }

def fastbootPublish (s : Session) (name value : Text) : Session :=
  { s with vars := (name, value) :: s.vars }

def fit (reason : Text) : Text := reason.take (maxRspSize - 1 - 4)

def usbWrite (s : Session) (code : Code) (reason : Text) : Session :=
  if s.state = .error then s else { s with log := s.log ++ [.sent code reason] }

/-- `fastboot_ack`; a null reason is the empty one. -/
def fastbootAck (s : Session) (code : Code) (reason : Option Text) : Session :=
  if s.state ≠ .command then s
  else usbWrite { s with state := .complete } code (fit (reason.getD []))

def fastbootInfo (s : Session) (reason : Option Text) : Session :=
  if s.state ≠ .command then s
  else
    match reason with
    | none => s
    | some reason => usbWrite s .info (fit reason)

def fastbootFail (s : Session) (reason : Option Text) : Session := fastbootAck s .fail reason

def fastbootOkay (s : Session) (info : Option Text) : Session := fastbootAck s .okay info

def hexDigit (c : Char) : Option Nat :=
  if '0' ≤ c ∧ c ≤ '9' then some (c.toNat - '0'.toNat)
  else if 'a' ≤ c ∧ c ≤ 'f' then some (c.toNat - 'a'.toNat + 10)
  else if 'A' ≤ c ∧ c ≤ 'F' then some (c.toNat - 'A'.toNat + 10)
  else none

def hexLoop (n : BitVec 32) : Text → BitVec 32
  | [] => n
  | c :: rest =>
    match hexDigit c with
    | none => n
    | some digit => hexLoop ((n <<< 4) ||| BitVec.ofNat 32 digit) rest

def hex2unsigned (x : Text) : BitVec 32 := hexLoop 0 x

def hexChar (digit : Nat) : Char :=
  if digit < 10 then Char.ofNat ('0'.toNat + digit) else Char.ofNat ('a'.toNat + digit - 10)

def hex8 (n : BitVec 32) : Text :=
  (List.range 8).map fun i => hexChar ((n.toNat >>> (4 * (7 - i))) % 16)

def xferLength (len : Nat) : Nat := if maxUsbfsBulkSize < len then maxUsbfsBulkSize else len

/-- The loop of `usb_read` for `len` bytes, given the lengths with which the host
completes the transfers; `none` while the host owes one. A short transfer ends it. -/
def usbReadLoop (len count : Nat) : List Nat → Option Nat
  | [] => if len = 0 then some count else none
  | actual :: rest =>
    if len = 0 then some count
    else if actual < xferLength len then some (count + actual)
    else usbReadLoop (len - xferLength len) (count + xferLength len) rest

def usbRead (len : BitVec 32) (transfers : List Nat) : Option (BitVec 32) :=
  (usbReadLoop len.toNat 0 transfers).map fun count => BitVec.ofNat 32 count

def cmdGetvar (s : Session) (arg : Text) : Session :=
  match s.vars.find? fun var => var.1 = arg with
  | some var => fastbootOkay s (some var.2)
  | none => fastbootOkay s (some [])

/-- `cmd_download`; `none` while the host owes data. -/
def cmdDownload (s : Session) (arg : Text) (transfers : List Nat) : Option Session :=
  let len := hex2unsigned arg
  let s := { s with downloadSize := 0 }
  if s.downloadMax < len then some (fastbootFail s (some "data too large".toList))
  else
    let s := usbWrite s .data (hex8 len)
    (usbRead len transfers).map fun r =>
      if r.toInt < 0 ∨ r ≠ len then { s with state := .error }
      else fastbootOkay { s with downloadSize := len } (some [])

inductive Call where
  | info (reason : Option Text)
  | okay (info : Option Text)
  | fail (reason : Option Text)
  | register (word : Text)
  | publish (name value : Text)
  deriving DecidableEq, Repr

def perform (s : Session) : Call → Session
  | .info reason => fastbootInfo s reason
  | .okay info => fastbootOkay s info
  | .fail reason => fastbootFail s reason
  | .register word => fastbootRegister s word .other
  | .publish name value => fastbootPublish s name value

structure Round where
  packet : Text
  calls : List Call
  returns : Bool
  transfers : List Nat
  short : packet.length ≤ maxRspSize

inductive Served where
  | returned (s : Session)
  | gone (s : Session)

/-- The first command whose prefix the packet has. The byte after the packet is set to
zero, so `memcmp` does not match a prefix that is longer than the packet. -/
def lookup (s : Session) (packet : Text) : Option Command :=
  s.commands.find? fun cmd => cmd.word.isPrefixOf packet

def argument (cmd : Command) (packet : Text) : Text :=
  (packet.drop cmd.word.length).takeWhile fun c => c.toNat ≠ 0

def handle (s : Session) (cmd : Command) (arg : Text) (round : Round) : Option Served :=
  match cmd.handle with
  | .getvar => some (.returned (cmdGetvar s arg))
  | .download => (cmdDownload s arg round.transfers).map .returned
  | .other =>
    let s := round.calls.foldl perform s
    some (if round.returns then .returned s else .gone s)

def conclude : Served → Served
  | .returned s =>
    .returned (if s.state = .command then fastbootFail s (some "unknown reason".toList) else s)
  | .gone s => .gone s

def serve (s : Session) (round : Round) : Option Served :=
  let heard := { s with log := s.log ++ [.received round.packet] }
  match lookup s round.packet with
  | none => some (.returned (fastbootFail heard (some "unknown command".toList)))
  | some cmd =>
    (handle { heard with state := .command } cmd (argument cmd round.packet) round).map conclude

def reenter (s : Session) : Session :=
  if s.state = .error then { s with state := .offline } else s

/-- `fastboot_handler` over the rounds that the host makes; `none` while the host owes
data. After a handler that does not return, no packet is read. -/
def fastbootHandler (s : Session) : List Round → Option Session
  | [] => some s
  | round :: rest =>
    match serve s round with
    | none => none
    | some (.returned s) => fastbootHandler (reenter s) rest
    | some (.gone s) => some s

def opened (commands : List Command) (vars : List (Text × Text)) (downloadMax : BitVec 32) :
    Session where
  commands := commands
  vars := vars
  downloadMax := downloadMax
  downloadSize := 0
  state := .offline
  log := []

def fastbootInit (s : Session) (size : BitVec 32) : Session :=
  let s := { s with downloadMax := size }
  let s := fastbootRegister s "getvar:".toList .getvar
  let s := fastbootRegister s "download:".toList .download
  fastbootPublish s "version".toList "0.5".toList

end AndroidBoot.Aboot.Fastboot
