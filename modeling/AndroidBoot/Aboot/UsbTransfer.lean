/- source: bootable/lk/app/aboot/fastboot.c, platform/msm_shared/hsusb.c, kernel/event.c
   digest: The transfers of fastboot, interrupted at any statement by the USB controller. -/

import Mathlib.Logic.Function.Basic
import AndroidBoot.Foundation.Handoff

/-!
The thread of fastboot takes one statement at a time; a critical section is one statement. An
interrupt runs as a whole. What it reads from the registers of the controller and from a transfer
descriptor is arbitrary. Buffers, caches and register writes leave no trace.

`queued`, `signaller` and `log` are not in the source: every request on a bulk endpoint has a
number, and the log has what happens to it.
-/

set_option autoImplicit false

namespace AndroidBoot.Aboot.UsbTransfer

open Function

open Foundation.Handoff (Note)

abbrev Word := BitVec 32

section Events

/-- An `event_t` with `EVENT_FLAG_AUTOUNSIGNAL`; `waiters` is the count of its wait queue. -/
structure Event where
  signalled : Bool
  waiters : Nat
  deriving DecidableEq

def eventSignal (e : Event) : Event × Bool :=
  if e.signalled then (e, false)
  else if 0 < e.waiters then ({ e with waiters := e.waiters - 1 }, true)
  else ({ e with signalled := true }, false)

def eventWait (e : Event) : Event × Bool :=
  if e.signalled then ({ e with signalled := false }, true)
  else ({ e with waiters := e.waiters + 1 }, false)

end Events

section State

inductive Endpoint where
  | bulkOut | bulkIn | ep0in | ep0out
  deriving DecidableEq

def eptList : List Endpoint := [.bulkOut, .bulkIn, .ep0in, .ep0out]

def Endpoint.num : Endpoint → Nat
  | .bulkOut => 1
  | .bulkIn => 1
  | .ep0in => 0
  | .ep0out => 0

def Endpoint.isIn : Endpoint → Bool
  | .bulkOut => false
  | .bulkIn => true
  | .ep0in => true
  | .ep0out => false

inductive Request where
  | fastboot | control
  deriving DecidableEq

inductive Callback where
  | reqComplete | ep0SetupAckComplete | ep0inComplete
  deriving DecidableEq

/-- `struct usb_request`; `info` is that of its `item`. -/
structure UsbRequest where
  buf : Word
  length : Word
  complete : Option Callback
  info : Word

inductive FastbootState where
  | offline | command | complete | error
  deriving DecidableEq

inductive Call where
  | read (buf len count xfer : Word)
  | write (buf len : Word)
  deriving DecidableEq

/-- The statement a call is at. `buf`, `length` and `complete` are the assignments to `req`, `item`
and `prime` are `udc_request_queue` outside and inside its critical section. -/
inductive Point where
  | enter | test | buf | length | complete | item | prime | wait | blocked | status | account
  deriving DecidableEq

inductive Thread where
  | idle
  | offline
  | busy (call : Call) (point : Point)
  deriving DecidableEq

structure Usb where
  pending : Endpoint → Option (Request × Nat)
  request : Request → UsbRequest
  online : Bool
  highspeed : Bool
  configValue : Nat
  testMode : Nat
  descList : List (Nat × Nat)
  usbOnline : Event
  txnDone : Event
  txnStatus : Int
  fastbootState : FastbootState
  thread : Thread
  returned : Word
  queued : Nat
  signaller : Nat
  log : List (Note Endpoint)

def Usb.setRequest (s : Usb) (r : Request) (f : UsbRequest → UsbRequest) : Usb :=
  { s with request := update s.request r (f (s.request r)) }

end State

section Controller

def infoActive : Word := 0x80#32
def infoHalted : Word := 0x40#32
def infoIoc : Word := 0x8000#32

def queueItem (s : Usb) (r : Request) : Usb :=
  s.setRequest r fun q => { q with info := q.length <<< 16 ||| infoIoc ||| infoActive }

def prime (s : Usb) (e : Endpoint) (r : Request) : Usb :=
  match r with
  | .control => { s with pending := update s.pending e (some (.control, 0)) }
  | .fastboot =>
    { s with
      pending := update s.pending e (some (.fastboot, s.queued))
      queued := s.queued + 1
      log := s.log ++ [.offered s.queued e] }

def udcRequestQueue (s : Usb) (e : Endpoint) (r : Request) : Usb := prime (queueItem s r) e r

def wake (s : Usb) : Usb :=
  match s.thread with
  | .busy call .blocked =>
    { s with
      thread := .busy call .status
      log := s.log ++ [.released (s.queued - 1) s.signaller] }
  | _ => s

def signalTxnDone (s : Usb) : Usb :=
  let (e, woken) := eventSignal s.txnDone
  let s := { s with txnDone := e }
  if woken then wake s else s

def reqComplete (s : Usb) (r : Request) (id : Nat) (actual : Word) (status : Int) : Usb :=
  let s := { s with txnStatus := status }
  let s := s.setRequest r fun q => { q with length := actual }
  signalTxnDone { s with signaller := id, log := s.log ++ [.completed id] }

def ep0inComplete (s : Usb) (r : Request) (status : Int) : Usb :=
  if status = 0 then
    udcRequestQueue (s.setRequest r fun q => { q with length := 0, complete := none }) .ep0out r
  else s

/-- `req->complete(req, actual, status)`. The one for the acknowledgement of a setup packet only
writes to registers. -/
def callBack (s : Usb) (r : Request) (id : Nat) (actual : Word) (status : Int) : Usb :=
  match (s.request r).complete with
  | none => s
  | some .reqComplete => reqComplete s r id actual status
  | some .ep0SetupAckComplete => s
  | some .ep0inComplete => ep0inComplete s r status

def residue (info : Word) : Word := info >>> 16 &&& 0x7fff#32

/-- `handle_ept_complete`. If the item is active, its `info` is read until it is not; `final` is
what is read last. -/
def handleEptComplete (s : Usb) (e : Endpoint) (final : Word) : Usb :=
  match s.pending e with
  | none => s
  | some (r, id) =>
    let info := if (s.request r).info &&& infoActive ≠ 0 then final else (s.request r).info
    let s := { s with pending := update s.pending e none }
    let s := s.setRequest r fun q => { q with info := info }
    if info &&& 0xff#32 ≠ 0 then callBack s r id 0 (-1)
    else callBack s r id ((s.request r).length - residue info) 0

end Controller

section Setup

structure SetupPacket where
  type : Nat
  request : Nat
  value : Nat
  index : Nat
  length : Nat

def setupAck (s : Usb) : Usb :=
  udcRequestQueue
    (s.setRequest .control fun q => { q with complete := some .ep0SetupAckComplete, length := 0 })
    .ep0in .control

def setupTx (s : Usb) (len : Nat) : Usb :=
  udcRequestQueue
    (s.setRequest .control fun q =>
      { q with complete := some .ep0inComplete, length := BitVec.ofNat 32 len })
    .ep0in .control

/-- `fastboot_notify` with `UDC_EVENT_ONLINE`; with `UDC_EVENT_OFFLINE` it does nothing. -/
def notifyOnline (s : Usb) : Usb :=
  let (e, woken) := eventSignal s.usbOnline
  let s := { s with usbOnline := e }
  if woken then { s with thread := if s.thread = .offline then .idle else s.thread } else s

/-- `handle_setup`. A packet that no case returns for is stalled, which is a register write. -/
def handleSetup (s : Usb) (p : SetupPacket) : Usb :=
  -- DEVICE_READ, GET_STATUS
  if p.type = 0x80 ∧ p.request = 0 then if p.length = 2 then setupTx s 2 else s
  -- DEVICE_READ, GET_DESCRIPTOR
  else if p.type = 0x80 ∧ p.request = 6 then
    match s.descList.find? (·.1 = p.value) with
    | some (_, len) => setupTx s (min len p.length)
    | none => s
  -- DEVICE_READ, GET_CONFIGURATION
  else if p.type = 0x80 ∧ p.request = 8 then
    if p.value = 0 ∧ p.index = 0 ∧ p.length = 1 then setupTx s 1 else s
  -- DEVICE_WRITE, SET_CONFIGURATION
  else if p.type = 0 ∧ p.request = 9 then
    let s := if p.value = 1 then notifyOnline { s with configValue := 1 }
      else { s with configValue := 0 }
    { setupAck s with online := p.value ≠ 0 }
  -- DEVICE_WRITE, SET_ADDRESS
  else if p.type = 0 ∧ p.request = 5 then setupAck s
  -- INTERFACE_WRITE, SET_INTERFACE
  else if p.type = 1 ∧ p.request = 11 then s
  -- DEVICE_WRITE, SET_FEATURE
  else if p.type = 0 ∧ p.request = 3 then setupAck { s with testMode := p.index }
  -- ENDPOINT_WRITE, CLEAR_FEATURE
  else if p.type = 2 ∧ p.request = 1 then
    if p.value = 0 ∧ p.length = 0 ∧
        eptList.any (fun e => e.num = p.index % 16 && e.isIn = (p.index / 128 % 2 = 1)) then
      setupAck s
    else s
  else s

structure Interrupt where
  uri : Bool
  pci : Bool
  ui : Bool
  uei : Bool
  speed : Nat
  setup : Option SetupPacket
  complete : Endpoint → Bool
  final : Endpoint → Word

def errorOut (final : Endpoint → Word) (s : Usb) (e : Endpoint) : Usb :=
  match s.pending e with
  | none => s
  | some (r, _) =>
    handleEptComplete (s.setRequest r fun q => { q with info := infoHalted }) e (final e)

def reset (i : Interrupt) (s : Usb) : Usb :=
  eptList.foldl (errorOut i.final) { s with online := false, configValue := 0 }

def completions (i : Interrupt) (s : Usb) : Usb :=
  eptList.foldl (fun s e => if i.complete e then handleEptComplete s e (i.final e) else s) s

def udcInterrupt (i : Interrupt) (s : Usb) : Usb :=
  let s := if i.uri then reset i s else s
  let s := if i.pci then { s with highspeed := i.speed = 2 } else s
  if i.ui ∨ i.uei then
    let s := match i.setup with
      | some p => handleSetup s p
      | none => s
    completions i s
  else s

end Setup

section Fastboot

def maxBulkSize : Word := 16384#32

def Call.endpoint : Call → Endpoint
  | .read .. => .bulkOut
  | .write .. => .bulkIn

def Call.next : Call → Word × Word
  | .read buf _ _ xfer => (buf, xfer)
  | .write buf len => (buf, len)

def Usb.goTo (s : Usb) (call : Call) (point : Point) : Usb := { s with thread := .busy call point }

def Usb.return (s : Usb) (value : Word) : Usb := { s with thread := .idle, returned := value }

def oops (s : Usb) : Usb := Usb.return { s with fastbootState := .error } (-1)

def waitTxnDone (s : Usb) (call : Call) : Usb :=
  let (e, passed) := eventWait s.txnDone
  if passed then
    Usb.goTo { s with txnDone := e, log := s.log ++ [.released (s.queued - 1) s.signaller] } call
      .status
  else Usb.goTo { s with txnDone := e } call .blocked

def statement (s : Usb) (call : Call) : Point → Option Usb
  | .enter =>
    if s.fastbootState = .error then some (oops s)
    else match call with
      | .read .. => some (s.goTo call .test)
      | .write .. => some (s.goTo call .buf)
  | .test =>
    match call with
    | .read buf len count _ =>
      if 0 < len then
        some (s.goTo (.read buf len count (if maxBulkSize < len then maxBulkSize else len)) .buf)
      else some (s.return count)
    | .write .. => none
  | .buf => some ((s.setRequest .fastboot fun q => { q with buf := call.next.1 }).goTo call .length)
  | .length =>
    some ((s.setRequest .fastboot fun q => { q with length := call.next.2 }).goTo call .complete)
  | .complete =>
    some ((s.setRequest .fastboot fun q => { q with complete := some .reqComplete }).goTo call .item)
  | .item => some ((queueItem s .fastboot).goTo call .prime)
  | .prime => some ((prime s call.endpoint .fastboot).goTo call .wait)
  | .wait => some (waitTxnDone s call)
  | .blocked => none
  | .status => if s.txnStatus < 0 then some (oops s) else some (s.goTo call .account)
  | .account =>
    let length := (s.request .fastboot).length
    match call with
    | .read buf len count xfer =>
      if length ≠ xfer then some (s.return (count + length))
      else some (s.goTo (.read (buf + length) (len - length) (count + length) xfer) .test)
    | .write .. => some (s.return length)

inductive Label where
  | read (buf len : Word)
  | write (buf len : Word)
  | other (state : FastbootState)
  | waitOnline
  | thread
  | interrupt (i : Interrupt)

def step (s : Usb) : Label → Option Usb
  | .read buf len => if s.thread = .idle then some (s.goTo (.read buf len 0 0) .enter) else none
  | .write buf len => if s.thread = .idle then some (s.goTo (.write buf len) .enter) else none
  | .other state => if s.thread = .idle then some { s with fastbootState := state } else none
  | .waitOnline =>
    if s.thread = .idle then
      let (e, passed) := eventWait s.usbOnline
      some { s with usbOnline := e, thread := if passed then .idle else .offline }
    else none
  | .thread =>
    match s.thread with
    | .busy call point => statement s call point
    | _ => none
  | .interrupt i => some (udcInterrupt i s)

/-- After `fastboot_init`. The memory of the requests is not initialised. -/
structure Initial (s : Usb) : Prop where
  pending : ∀ e, s.pending e = none
  txnDone : s.txnDone = ⟨false, 0⟩
  usbOnline : s.usbOnline = ⟨false, 0⟩
  thread : s.thread = .idle
  queued : s.queued = 0
  log : s.log = []

end Fastboot

end AndroidBoot.Aboot.UsbTransfer
