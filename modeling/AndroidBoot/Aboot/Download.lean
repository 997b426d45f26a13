/- source: bootable/lk/app/aboot/fastboot.c
   digest: The command loop over a bus that may fail, with the memory that downloads go to. -/

import AndroidBoot.Aboot.Fastboot
import AndroidBoot.Foundation.Memory

/-!
`Fastboot` follows the replies over a bus without errors. Here every request to the
controller may be refused, may fail or may be short, and the bytes of a data phase
land at `download_base`. `history` is not in the source: it has the calls of the
handlers and what the download command receives.
-/

set_option autoImplicit false

namespace AndroidBoot.Aboot.Download

open Fastboot Foundation.Memory

/-- How a request to read ends. The host sends as much as it likes; what exceeds the
request is not stored. -/
inductive Transfer where
  | refused
  | failed (bytes : List UInt8)
  | done (bytes : List UInt8)

inductive Occurrence where
  | called (size : BitVec 32) (memory : Nat → UInt8)
  | download
  | read (len : BitVec 32)
  | data (bytes : List UInt8)
  | completed

structure Device where
  session : Session
  memory : Nat → UInt8
  /-- Whether the next calls of `usb_write` succeed; those after the last entry do. -/
  writes : List Bool
  history : List Occurrence

def Device.setState (d : Device) (state : FastbootState) : Device :=
  { d with session := { d.session with state := state } }

def Device.setSize (d : Device) (size : BitVec 32) : Device :=
  { d with session := { d.session with downloadSize := size } }

def Device.record (d : Device) (o : Occurrence) : Device := { d with history := d.history ++ [o] }

/-- `usb_write`, and whether its result is not negative. -/
def usbWrite (d : Device) (code : Code) (reason : Text) : Device × Bool :=
  if d.session.state = .error then (d, false)
  else
    match d.writes with
    | false :: rest => ({ d with writes := rest }.setState .error, false)
    | writes =>
      ({ d with session := Fastboot.usbWrite d.session code reason, writes := writes.tail }, true)

theorem usbWrite_log (d : Device) (code : Code) (reason : Text) :
    (usbWrite d code reason).1.session.log =
      d.session.log ++ if (usbWrite d code reason).2 then [.sent code reason] else [] := by
  unfold usbWrite
  split
  case isTrue => exact (List.append_nil _).symm
  case isFalse fine =>
    split
    case h_1 => exact (List.append_nil _).symm
    case h_2 =>
      rw [Fastboot.usbWrite, if_neg fine]
      rfl

def fastbootAck (d : Device) (code : Code) (reason : Option Text) : Device :=
  if d.session.state ≠ .command then d
  else (usbWrite (d.setState .complete) code (fit (reason.getD []))).1

def fastbootInfo (d : Device) (reason : Option Text) : Device :=
  if d.session.state ≠ .command then d
  else
    match reason with
    | none => d
    | some reason => (usbWrite d .info (fit reason)).1

def fastbootFail (d : Device) (reason : Option Text) : Device := fastbootAck d .fail reason

def fastbootOkay (d : Device) (info : Option Text) : Device := fastbootAck d .okay info

def cmdGetvar (d : Device) (arg : Text) : Device :=
  match d.session.vars.find? fun var => var.1 = arg with
  | some var => fastbootOkay d (some var.2)
  | none => fastbootOkay d (some [])

/-- Bytes that arrive at `download_base + buf`. -/
def Device.store (d : Device) (buf : Nat) (bytes : List UInt8) : Device :=
  { d with memory := overlay d.memory buf (bytes.map some) }

/-- The loop of `usb_read(download_base, …)`: `buf`, `len` and `count` are its variables. Its
count is none if it leaves at `oops`, as it does when the transfers end. -/
def usbReadLoop (d : Device) (buf len count : Nat) : List Transfer → Device × Option Nat
  | [] => if len = 0 then (d, some count) else (d, none)
  | transfer :: rest =>
    if len = 0 then (d, some count)
    else
      match transfer with
      | .refused => (d, none)
      | .failed bytes => (d.store buf (bytes.take (xferLength len)), none)
      | .done bytes =>
        let got := bytes.take (xferLength len)
        let d := (d.store buf got).record (.data got)
        if got.length ≠ xferLength len then (d, some (count + got.length))
        else usbReadLoop d (buf + got.length) (len - got.length) (count + got.length) rest

theorem usbReadLoop_zero (d : Device) (buf count : Nat) (transfers : List Transfer) :
    usbReadLoop d buf 0 count transfers = (d, some count) := by
  cases transfers with
  | nil => rfl
  | cons transfer rest => cases transfer <;> rfl

theorem usbReadLoop_session (d : Device) (buf len count : Nat) (transfers : List Transfer) :
    (usbReadLoop d buf len count transfers).1.session = d.session := by
  fun_induction usbReadLoop d buf len count transfers <;> first | rfl | assumption

/-- `usb_read(download_base, len)`, whose result is an `int`. -/
def usbRead (d : Device) (len : BitVec 32) (transfers : List Transfer) : Device × BitVec 32 :=
  let d := d.record (.read len)
  if d.session.state = .error then (d, -1)
  else
    match usbReadLoop d 0 len.toNat 0 transfers with
    | (d, some count) => (d, BitVec.ofNat 32 count)
    | (d, none) => (d.setState .error, -1)

theorem usbRead_log (d : Device) (len : BitVec 32) (transfers : List Transfer) :
    (usbRead d len transfers).1.session.log = d.session.log := by
  have session := usbReadLoop_session (d.record (.read len)) 0 len.toNat 0 transfers
  unfold usbRead
  dsimp only
  split
  · rfl
  · split
    case h_1 d' count loop =>
      rw [loop] at session
      exact congrArg Session.log session
    case h_2 d' loop =>
      rw [loop] at session
      show d'.session.log = d.session.log
      exact congrArg Session.log session

def downloadStart (d : Device) : Device := (d.record .download).setSize 0

def downloadEnd (d : Device) (len r : BitVec 32) : Device :=
  if r.toInt < 0 ∨ r ≠ len then d.setState .error
  else fastbootOkay ((d.setSize len).record .completed) (some [])

def downloadData (d : Device) (len : BitVec 32) (transfers : List Transfer) : Device :=
  match usbWrite d .data (hex8 len) with
  | (d, false) => d
  | (d, true) => downloadEnd (usbRead d len transfers).1 len (usbRead d len transfers).2

def cmdDownload (d : Device) (arg : Text) (transfers : List Transfer) : Device :=
  let len := hex2unsigned arg
  if d.session.downloadMax < len then
    fastbootFail (downloadStart d) (some "data too large".toList)
  else downloadData (downloadStart d) len transfers

def perform (d : Device) : Call → Device
  | .info reason => fastbootInfo d reason
  | .okay info => fastbootOkay d info
  | .fail reason => fastbootFail d reason
  | .register word => { d with session := fastbootRegister d.session word .other }
  | .publish name value => { d with session := fastbootPublish d.session name value }

structure Round where
  /-- What `usb_read` finds in `buffer`; none if the transfer is refused or fails. -/
  packet : Option Text
  calls : List Call
  stores : (Nat → UInt8) → Nat → UInt8
  returns : Bool
  writes : List Bool
  transfers : List Transfer

inductive Served where
  | returned (d : Device)
  | gone (d : Device)

def Served.device : Served → Device
  | .returned d => d
  | .gone d => d

def handle (d : Device) (cmd : Command) (packet : Text) (round : Round) : Served :=
  let d := d.record (.called d.session.downloadSize d.memory)
  match cmd.handle with
  | .getvar => .returned (cmdGetvar d (argument cmd packet))
  | .download => .returned (cmdDownload d (argument cmd packet) round.transfers)
  | .other =>
    let d := round.calls.foldl perform { d with memory := round.stores d.memory }
    if round.returns then .returned d else .gone d

def conclude : Served → Served
  | .returned d =>
    .returned (if d.session.state = .command then fastbootFail d (some "unknown reason".toList)
      else d)
  | .gone d => .gone d

/-- One round of `fastboot_command_loop`. If the packet cannot be read, the loop ends. -/
def serve (d : Device) (round : Round) : Served :=
  let d := { d with writes := round.writes }
  match round.packet with
  | none => .returned (d.setState .error)
  | some packet =>
    let heard := { d with session.log := d.session.log ++ [.received packet] }
    match lookup d.session packet with
    | none => .returned (fastbootFail heard (some "unknown command".toList))
    | some cmd => conclude (handle (heard.setState .command) cmd packet round)

def reconnect (d : Device) : Device := { d with session := reenter d.session }

def fastbootHandler (d : Device) : List Round → Device
  | [] => d
  | round :: rest =>
    match serve d round with
    | .returned d => fastbootHandler (reconnect d) rest
    | .gone d => d

def opened (commands : List Command) (vars : List (Text × Text)) (downloadMax : BitVec 32)
    (memory : Nat → UInt8) : Device where
  session := Fastboot.opened commands vars downloadMax
  memory := memory
  writes := []
  history := []

section WithoutErrors

variable {d : Device} {s : Session}

structure Quiet (d : Device) (s : Session) : Prop where
  session : d.session = s
  writes : d.writes = []

section Quiet

variable (quiet : Quiet d s)
include quiet

theorem Quiet.usbWrite (fine : s.state ≠ .error) (code : Code) (reason : Text) :
    ∃ d', usbWrite d code reason = (d', true) ∧ Quiet d' (Fastboot.usbWrite s code reason) := by
  obtain ⟨rfl, writes⟩ := quiet
  unfold Download.usbWrite
  rw [if_neg fine, writes]
  exact ⟨_, rfl, rfl, rfl⟩

theorem Quiet.ack (code : Code) (reason : Option Text) :
    Quiet (fastbootAck d code reason) (Fastboot.fastbootAck s code reason) := by
  obtain ⟨rfl, writes⟩ := quiet
  unfold fastbootAck Fastboot.fastbootAck
  split
  · exact ⟨rfl, writes⟩
  · have set : Quiet (d.setState .complete) { d.session with state := .complete } := ⟨rfl, writes⟩
    obtain ⟨d', written, quiet'⟩ := set.usbWrite (fun same => by cases same) code
      (fit (reason.getD []))
    rw [written]
    exact quiet'

theorem Quiet.info (reason : Option Text) :
    Quiet (fastbootInfo d reason) (Fastboot.fastbootInfo s reason) := by
  obtain ⟨rfl, writes⟩ := quiet
  unfold fastbootInfo Fastboot.fastbootInfo
  split
  · exact ⟨rfl, writes⟩
  case isFalse command =>
    rw [ne_eq, not_not] at command
    cases reason with
    | none => exact ⟨rfl, writes⟩
    | some reason =>
      have fine : d.session.state ≠ .error := by simp [command]
      obtain ⟨d', written, quiet'⟩ := Quiet.usbWrite ⟨rfl, writes⟩ fine .info (fit reason)
      dsimp only
      rw [written]
      exact quiet'

theorem Quiet.getvar (arg : Text) : Quiet (cmdGetvar d arg) (Fastboot.cmdGetvar s arg) := by
  unfold cmdGetvar Fastboot.cmdGetvar
  rw [quiet.session]
  cases s.vars.find? fun var => var.1 = arg with
  | some var => exact quiet.ack .okay (some var.2)
  | none => exact quiet.ack .okay (some [])

theorem Quiet.perform (call : Call) : Quiet (perform d call) (Fastboot.perform s call) := by
  cases call with
  | info reason => exact quiet.info reason
  | okay info => exact quiet.ack .okay info
  | fail reason => exact quiet.ack .fail reason
  | register | publish => exact ⟨by rw [Download.perform, quiet.session]; rfl, quiet.writes⟩

theorem Quiet.performAll (calls : List Call) :
    Quiet (calls.foldl Download.perform d) (calls.foldl Fastboot.perform s) := by
  induction calls generalizing d s with
  | nil => exact quiet
  | cons call rest ih => exact ih (quiet.perform call)

theorem Quiet.readLoop (buf len count : Nat) (data : List (List UInt8)) {n : Nat}
    (ends : Fastboot.usbReadLoop len count (data.map List.length) = some n) :
    ∃ d', usbReadLoop d buf len count (data.map .done) = (d', some n) ∧ Quiet d' s := by
  induction data generalizing d buf len count with
  | nil =>
    simp only [List.map_nil, Fastboot.usbReadLoop] at ends
    split at ends
    case isTrue none =>
      obtain rfl : count = n := Option.some.inj ends
      rw [none]
      exact ⟨d, usbReadLoop_zero d buf count _, quiet⟩
    case isFalse => cases ends
  | cons bytes rest ih =>
    simp only [List.map_cons, Fastboot.usbReadLoop] at ends ⊢
    split at ends
    case isTrue none =>
      obtain rfl : count = n := Option.some.inj ends
      rw [none]
      exact ⟨d, usbReadLoop_zero d buf count _, quiet⟩
    case isFalse some =>
      rw [usbReadLoop, if_neg some]
      have stored : ∀ got, Quiet ((d.store buf got).record (.data got)) s :=
        fun _ => ⟨quiet.session, quiet.writes⟩
      split at ends
      case isTrue short =>
        obtain rfl : count + bytes.length = n := Option.some.inj ends
        have all : bytes.take (xferLength len) = bytes := List.take_of_length_le (by omega)
        rw [all, if_pos (by omega)]
        exact ⟨_, rfl, stored bytes⟩
      case isFalse full =>
        have length : (bytes.take (xferLength len)).length = xferLength len := by
          rw [List.length_take]
          omega
        rw [if_neg (by simp [length]), length]
        exact ih (stored _) _ _ _ ends

theorem Quiet.downloadEnd (len r : BitVec 32) :
    Quiet (downloadEnd d len r) (if r.toInt < 0 ∨ r ≠ len then { s with state := .error }
      else Fastboot.fastbootOkay { s with downloadSize := len } (some [])) := by
  obtain ⟨rfl, writes⟩ := quiet
  unfold Download.downloadEnd
  split
  · exact ⟨rfl, writes⟩
  · have sized : Quiet ((d.setSize len).record .completed)
        { d.session with downloadSize := len } := ⟨rfl, writes⟩
    exact sized.ack .okay _

theorem Quiet.read (fine : s.state ≠ .error) (len : BitVec 32)
    (data : List (List UInt8)) {r : BitVec 32}
    (ends : Fastboot.usbRead len (data.map List.length) = some r) :
    ∃ d', usbRead d len (data.map .done) = (d', r) ∧ Quiet d' s := by
  obtain ⟨n, loop, rfl⟩ := Option.map_eq_some_iff.mp ends
  have recorded : Quiet (d.record (.read len)) s := ⟨quiet.session, quiet.writes⟩
  obtain ⟨d', read, quiet'⟩ := recorded.readLoop 0 _ 0 data loop
  refine ⟨d', ?_, quiet'⟩
  have fine' : (d.record (.read len)).session.state ≠ .error := recorded.session ▸ fine
  unfold usbRead
  rw [if_neg fine', read]

theorem Quiet.download (fine : s.state ≠ .error) (arg : Text)
    (data : List (List UInt8)) {s' : Session}
    (ends : Fastboot.cmdDownload s arg (data.map List.length) = some s') :
    Quiet (cmdDownload d arg (data.map .done)) s' := by
  obtain ⟨rfl, writes⟩ := quiet
  have zeroed : Quiet (downloadStart d) { d.session with downloadSize := 0 } := ⟨rfl, writes⟩
  unfold Fastboot.cmdDownload at ends
  unfold cmdDownload
  by_cases large : d.session.downloadMax < hex2unsigned arg
  · rw [if_pos large] at ends ⊢
    rw [← Option.some.inj ends]
    exact zeroed.ack .fail _
  · rw [if_neg large] at ends ⊢
    obtain ⟨r, counted, rfl⟩ := Option.map_eq_some_iff.mp ends
    obtain ⟨d₁, written, quiet₁⟩ := zeroed.usbWrite fine .data (hex8 (hex2unsigned arg))
    have fine₁ : (Fastboot.usbWrite { d.session with downloadSize := 0 } .data
        (hex8 (hex2unsigned arg))).state ≠ .error := by
      rw [Fastboot.usbWrite, if_neg fine]
      exact fine
    obtain ⟨d₂, read, quiet₂⟩ := quiet₁.read fine₁ _ data counted
    unfold downloadData
    rw [written]
    dsimp only
    rw [read]
    exact quiet₂.downloadEnd _ r

end Quiet

def Served.Quiet : Served → Fastboot.Served → Prop
  | .returned d, .returned s => Download.Quiet d s
  | .gone d, .gone s => Download.Quiet d s
  | _, _ => False

structure PlainRound where
  round : Fastboot.Round
  data : List (List UInt8)
  stores : (Nat → UInt8) → Nat → UInt8
  lengths : round.transfers = data.map List.length

def PlainRound.toRound (plain : PlainRound) : Round where
  packet := some plain.round.packet
  calls := plain.round.calls
  stores := plain.stores
  returns := plain.round.returns
  writes := []
  transfers := plain.data.map .done

variable {served : Fastboot.Served}

theorem quiet_handle {cmd : Command} (plain : PlainRound) (quiet : Quiet d s)
    (fine : s.state ≠ .error) (ends : Fastboot.handle s cmd (argument cmd plain.round.packet)
      plain.round = some served) :
    (handle d cmd plain.round.packet plain.toRound).Quiet served := by
  have called : Quiet (d.record (.called d.session.downloadSize d.memory)) s :=
    ⟨quiet.session, quiet.writes⟩
  unfold Fastboot.handle at ends
  unfold handle
  cases kind : cmd.handle with
  | getvar =>
    rw [kind] at ends
    rw [← Option.some.inj ends]
    exact called.getvar _
  | download =>
    rw [kind] at ends
    obtain ⟨s', downloaded, rfl⟩ := Option.map_eq_some_iff.mp ends
    rw [plain.lengths] at downloaded
    exact called.download fine _ plain.data downloaded
  | other =>
    rw [kind] at ends
    rw [← Option.some.inj ends]
    have stored : Quiet { d.record (.called d.session.downloadSize d.memory) with
        memory := plain.stores d.memory } s := ⟨quiet.session, quiet.writes⟩
    have performed := stored.performAll plain.round.calls
    unfold PlainRound.toRound
    cases plain.round.returns with
    | true | false => exact performed

theorem quiet_conclude {after : Served} (quiet : after.Quiet served) :
    (conclude after).Quiet (Fastboot.conclude served) := by
  rcases after with d | d <;> rcases served with s | s
  · have same : d.session = s := Download.Quiet.session quiet
    by_cases command : s.state = .command
    · rw [conclude, Fastboot.conclude, same, if_pos command, if_pos command]
      exact Download.Quiet.ack quiet .fail _
    · rw [conclude, Fastboot.conclude, same, if_neg command, if_neg command]
      exact quiet
  · exact quiet.elim
  · exact quiet.elim
  · exact quiet

theorem serve_session (d : Device) (plain : PlainRound)
    (ends : Fastboot.serve d.session plain.round = some served) :
    (serve d plain.toRound).Quiet served := by
  unfold Fastboot.serve at ends
  unfold serve
  dsimp only [PlainRound.toRound] at ends ⊢
  cases found : lookup d.session plain.round.packet with
  | none =>
    rw [found] at ends
    rw [← Option.some.inj ends]
    exact Quiet.ack ⟨rfl, rfl⟩ .fail _
  | some cmd =>
    rw [found] at ends
    obtain ⟨s', handled, rfl⟩ := Option.map_eq_some_iff.mp ends
    refine quiet_conclude ?_
    exact quiet_handle plain ⟨rfl, rfl⟩ (fun same => by cases same) handled

theorem fastbootHandler_session (d : Device) (rounds : List PlainRound) {s : Session}
    (ends : Fastboot.fastbootHandler d.session (rounds.map PlainRound.round) = some s) :
    (fastbootHandler d (rounds.map PlainRound.toRound)).session = s := by
  induction rounds generalizing d with
  | nil => exact Option.some.inj ends
  | cons plain rest ih =>
    rw [List.map_cons, Fastboot.fastbootHandler] at ends
    rw [List.map_cons, fastbootHandler]
    cases served : Fastboot.serve d.session plain.round with
    | none =>
      rw [served] at ends
      cases ends
    | some after =>
      rw [served] at ends
      have quiet := serve_session d plain served
      cases here : serve d plain.toRound with
      | returned d' =>
        rw [here] at quiet
        rcases after with s' | s'
        · obtain rfl : d'.session = s' := Download.Quiet.session quiet
          exact ih (reconnect d') ends
        · exact quiet.elim
      | gone d' =>
        rw [here] at quiet
        rcases after with s' | s'
        · exact quiet.elim
        · exact (Download.Quiet.session quiet).trans (Option.some.inj ends)

theorem fastbootHandler_session_two :
    let d := opened [⟨"download:".toList, .download⟩, ⟨"flash:".toList, .other⟩] [] 16 fun _ => 0
    let rounds : List PlainRound :=
      [⟨⟨"download:00000002".toList, [], true, [2], by decide⟩, [[7, 8]], id, rfl⟩,
        ⟨⟨"flash:boot".toList, [.okay none], true, [], by decide⟩, [], fun _ _ => 9, rfl⟩]
    ∃ s, Fastboot.fastbootHandler d.session (rounds.map PlainRound.round) = some s ∧
      (fastbootHandler d (rounds.map PlainRound.toRound)).session = s :=
  ⟨_, rfl, fastbootHandler_session _ _ rfl⟩

end WithoutErrors

end AndroidBoot.Aboot.Download
