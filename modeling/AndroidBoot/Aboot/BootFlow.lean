/- source: bootable/lk/app/aboot/aboot.c, recovery.c
   digest: From power-on to the kernel: device record, recovery message, boot images, commands. -/

import AndroidBoot.Aboot.FlashCommands

/-!
The transfers of a power-on or command succeed or fail as its `Io` says, purpose by
purpose. Images are loaded to addresses of their own headers: a load over the boot loader's
memory, or over what else is loaded, leaves anything. Fuses and the secure processor, which the
record's flags also go to on some platforms, are left out.
-/

set_option autoImplicit false

namespace AndroidBoot.Aboot.BootFlow

open Foundation.Memory Platform.Mmc Platform.Nand
open Fastboot (Text)
open DeviceInfo FlashCommands

structure Target where
  useSignedKernel : Bool
  emmcRecovery : Bool
  imageVerify : List UInt8 → List UInt8 → Bool
  own : List (Nat × Nat)
  scratchAddress : Nat

def apart (one other : Nat × Nat) : Bool :=
  one.2 = 0 || other.2 = 0 || one.1 + one.2 ≤ other.1 || other.1 + other.2 ≤ one.1

/-- What is loaded to some addresses stays in the address space, and changes neither the boot
loader's memory nor one another. -/
def Target.clear (target : Target) : List (Nat × Nat) → Bool
  | [] => true
  | load :: rest =>
    load.1 + load.2 ≤ 2 ^ 32 && (target.own ++ rest).all (apart load) && target.clear rest

structure Io where
  infoRead : Fault := none
  infoFresh : Fault := none
  message : Fault := none
  messageInfo : Fault := none
  messageReread : Fault := none
  messageWrite : Fault := none
  fota : Fault := none
  log : Fault := none
  header : Fault := none
  image : Fault := none
  signature : Fault := none
  tamper : Fault := none
  kernel : Fault := none
  ramdisk : Fault := none

structure Transfer where
  image : List UInt8
  accepted : Bool
  flagged : Bool
  deriving DecidableEq, Repr

inductive Phase where
  | off | bootloader | fastboot | kernel
  deriving DecidableEq, Repr

structure Device where
  storage : Storage
  phase : Phase
  info : Info
  infoBuf : Nat → UInt8
  buf : Nat → UInt8
  bufReads : List Nat
  bootIntoRecovery : Bool
  /-- `page_size`; `page_mask` is one less. -/
  pageSize : Nat
  scratch : Nat → UInt8
  downloadSize : Nat
  verified : List (List UInt8)
  transfers : List Transfer

/-- The fields of `struct boot_img_hdr` that decide what is loaded. -/
structure BootImgHdr where
  magic : List UInt8
  kernelSize : Nat
  kernelAddr : Nat
  ramdiskSize : Nat
  ramdiskAddr : Nat
  pageSize : Nat

def bootImgHdrSize : Nat := 608

def bufSize : Nat := 4096

def readHdr (memory : Nat → UInt8) : BootImgHdr where
  magic := bytesAt memory 0 bootMagicSize
  kernelSize := le32 memory 8
  kernelAddr := le32 memory 12
  ramdiskSize := le32 memory 16
  ramdiskAddr := le32 memory 20
  pageSize := le32 memory 36

def Device.pageMask (device : Device) : Nat := (device.pageSize + 2 ^ 32 - 1) % 2 ^ 32

def Device.kernelActual (device : Device) (hdr : BootImgHdr) : Nat :=
  roundToPage hdr.kernelSize device.pageMask

def Device.ramdiskActual (device : Device) (hdr : BootImgHdr) : Nat :=
  roundToPage hdr.ramdiskSize device.pageMask

def Device.imageSize (device : Device) (hdr : BootImgHdr) : Nat :=
  (device.pageSize + device.kernelActual hdr + device.ramdiskActual hdr) % 2 ^ 32

def Device.extent (device : Device) (hdr : BootImgHdr) : Nat :=
  max (device.pageSize + hdr.kernelSize)
    (device.pageSize + device.kernelActual hdr + hdr.ramdiskSize)

def BootImgHdr.copies (hdr : BootImgHdr) : List (Nat × Nat) :=
  [(hdr.kernelAddr, hdr.kernelSize), (hdr.ramdiskAddr, hdr.ramdiskSize)]

def Device.scratchImage (device : Device) (target : Target) (hdr : BootImgHdr) : Nat × Nat :=
  (target.scratchAddress, device.imageSize hdr + device.pageSize)

def bootLinux (device : Device) (image : List UInt8) : Device :=
  { device with
    phase := .kernel
    transfers := device.transfers ++
      [⟨image, device.verified.any fun accepted => image.isPrefixOf accepted,
        device.storage.flagged⟩] }

def saveInfo (device : Device) (fault : Fault) : Device :=
  let written := writeDeviceInfo device.storage device.pageSize device.infoBuf device.info fault
  { device with storage := written.1, infoBuf := written.2 }

def resetDeviceInfo (device : Device) (fault : Fault) : Device :=
  saveInfo { device with info := { device.info with isTampered := 0 } } fault

def setDeviceRoot (device : Device) (fault : Fault) : Device :=
  saveInfo { device with info := { device.info with isTampered := 1 } } fault

def partition (storage : Storage) (name : Text) : Option Nat :=
  match storage with
  | .mmc emmc =>
    let ptn := partitionGetOffset emmc.entries (partitionGetIndex emmc.entries name)
    if ptn = 0 then none else some ptn
  | .nand flash => flash.find name

def judge (target : Target) (device : Device) (size : Nat) (unread : Bool) : Device :=
  let image := bytesAt device.scratch 0 size
  if unread = false ∧ target.imageVerify image (bytesAt device.scratch size device.pageSize) then
    { device with
      info := { device.info with isTampered := 0 }
      verified := image :: device.verified }
  else device

/-- What an attempt to boot finds: memory at `EMMC_BOOT_IMG_HEADER_ADDR`, what an earlier
stage has loaded along with a header there, the transfers, and what comes of a device whose
memory is overwritten. -/
structure Attempt where
  unified : Nat → UInt8
  preloaded : List UInt8
  io : Io
  overwritten : Device → Device

def runImage (device : Device) (hdr : BootImgHdr) (fault : Fault) : Device :=
  let device := if device.info.isTampered ≠ 0 then saveInfo device fault else device
  bootLinux device (bytesAt device.scratch 0 (device.extent hdr))

def enterImage (target : Target) (device : Device) (hdr : BootImgHdr) (size : Nat)
    (unread : Bool) (attempt : Attempt) : Device :=
  let device := judge target device size unread
  -- kernel and ramdisk are moved before the verdict is looked at
  if target.clear (device.scratchImage target hdr :: hdr.copies) = false then
    attempt.overwritten device
  else runImage device hdr attempt.io.tamper

/-- The authentication that `boot_linux_from_mmc` and `boot_linux_from_flash` share, up to
the transfer of control. A failed read of the image returns. -/
def authenticate (target : Target) (device : Device) (ptn : Nat) (hdr : BootImgHdr)
    (attempt : Attempt) : Device :=
  let size := device.imageSize hdr
  -- the device is taken to be rooted until the image is accepted
  let device := { device with info := { device.info with isTampered := 1 } }
  if target.clear [device.scratchImage target hdr] = false then attempt.overwritten device
  else
    let read := device.storage.read ptn 0 size device.scratch 0 attempt.io.image
    let device := { device with scratch := read.2 }
    if read.1 then device
    else
      let signature := device.storage.read ptn size device.pageSize device.scratch size
        attempt.io.signature
      enterImage target { device with scratch := signature.2 } hdr size signature.1 attempt

/-- The branch without authentication. A failed read returns; only the one for eMMC does
not read an empty ramdisk. -/
def loadUnchecked (target : Target) (device : Device) (ptn : Nat) (hdr : BootImgHdr)
    (attempt : Attempt) : Device :=
  let n := device.kernelActual hdr
  if target.clear [(hdr.kernelAddr, n)] = false then attempt.overwritten device
  else
    let kernel := device.storage.read ptn device.pageSize n (fun _ => 0) 0 attempt.io.kernel
    if kernel.1 then device
    else
      let m := device.ramdiskActual hdr
      if target.clear [(hdr.kernelAddr, n), (hdr.ramdiskAddr, m)] = false then
        attempt.overwritten device
      else
        let ramdisk := device.storage.read ptn ((device.pageSize + n) % 2 ^ 32) m (fun _ => 0) 0
          attempt.io.ramdisk
        let skipped := m = 0 ∧ device.storage.isMmc
        if ¬ skipped ∧ ramdisk.1 then device
        else
          bootLinux device
            (bytesAt kernel.2 0 hdr.kernelSize ++ bytesAt ramdisk.2 0 hdr.ramdiskSize)

def loadImage (target : Target) (device : Device) (ptn : Nat) (hdr : BootImgHdr)
    (attempt : Attempt) : Device :=
  if target.useSignedKernel ∧ device.info.flagged = false then
    authenticate target device ptn hdr attempt
  else loadUnchecked target device ptn hdr attempt

def readHeader (device : Device) (ptn : Nat) (io : Io) : Bool × Device :=
  let read := device.storage.read ptn 0 device.pageSize device.buf 0 io.header
  let reads := if device.storage.isMmc then [device.pageSize] else []
  (read.1, { device with buf := read.2, bufReads := reads ++ device.bufReads })

def bootPartition (device : Device) : Option Nat :=
  partition device.storage (if device.bootIntoRecovery then "recovery".toList else "boot".toList)

def adoptPageSize (device : Device) (hdr : BootImgHdr) : Device :=
  if hdr.pageSize ≠ 0 then { device with pageSize := hdr.pageSize } else device

def openHeader (device : Device) (ptn : Nat) (io : Io) : Device × Option BootImgHdr :=
  let read := readHeader device ptn io
  let hdr := readHdr read.2.buf
  if read.1 ∨ hdr.magic ≠ bootMagic then (read.2, none)
  else if device.storage.isMmc then (adoptPageSize read.2 hdr, some hdr)
  else if hdr.pageSize ≠ read.2.pageSize then (read.2, none)
  else (read.2, some hdr)

/-- The part from the header on that the two functions below share. A page that is larger than
`buf` is read over what is behind it. -/
def bootStored (target : Target) (device : Device) (ptn : Nat) (attempt : Attempt) : Device :=
  if bufSize < device.pageSize then attempt.overwritten (readHeader device ptn attempt.io).2
  else
    match openHeader device ptn attempt.io with
    | (device, none) => device
    | (device, some hdr) => loadImage target device ptn hdr attempt

def bootLinuxFromMmc (target : Target) (device : Device) (attempt : Attempt) : Device :=
  if (readHdr attempt.unified).magic = bootMagic then bootLinux device attempt.preloaded
  else
    match bootPartition device with
    | none => device
    | some ptn => bootStored target device ptn attempt

/-- `boot_linux_from_flash`; its branch for eMMC is not reached from its callers. -/
def bootLinuxFromFlash (target : Target) (device : Device) (attempt : Attempt) : Device :=
  match bootPartition device with
  | none => device
  | some ptn => bootStored target device ptn attempt

def bootFromStorage (target : Target) (device : Device) (attempt : Attempt) : Device :=
  if device.storage.isMmc then bootLinuxFromMmc target device attempt
  else bootLinuxFromFlash target device attempt

def messageSize : Nat := 1088

def messageCommand (message : Nat → UInt8) : List UInt8 :=
  (bytesAt message 0 31).takeWhile fun byte => byte ≠ 0

def messageStatus (message : Nat → UInt8) : List UInt8 :=
  (bytesAt message 32 32).takeWhile fun byte => byte ≠ 0

def putString (memory : Nat → UInt8) (start : Nat) (text : List UInt8) : Nat → UInt8 :=
  splice memory start (text.length + 1) fun i => text.getD i 0

/-- What `aboot_init` finds besides the storage. -/
structure Start where
  recoveryKey : Bool
  fastbootKey : Bool
  trigger : Bool
  rebootMode : Nat
  updated : Bool
  stack : Nat → UInt8
  log : Nat → UInt8
  logSize : Nat
  scratch : Nat → UInt8
  attempt : Attempt

def emmcSetRecoveryMsg (device : Device) (message : Nat → UInt8) (start : Start) : Device :=
  match device.storage with
  | .nand _ => device
  | .mmc emmc =>
    match partition device.storage "misc".toList with
    | none => device
    | some ptn =>
      let data := splice start.stack 0 messageSize message
      let written := mmcWrite (emmc.card [start.attempt.io.messageWrite]) ptn
        (roundToPage messageSize 511) data
      { device with storage := .mmc { emmc with content := written.2.content } }

def emmcRecoveryInit (device : Device) (start : Start) : Device :=
  match partition device.storage "misc".toList with
  | none => device
  | some ptn =>
    let read := device.storage.read ptn 0 (roundToPage messageSize 511) start.stack 0
      start.attempt.io.message
    if read.1 then device
    else
      -- the command is made to end at its last byte
      let message := putString read.2 31 []
      let command := messageCommand message
      let message :=
        if command = ascii "update-radio" then
          putString message 32 (if start.updated then ascii "OKAY" else ascii "failed-update")
        else message
      let device :=
        if command = ascii "update-radio" then { device with bootIntoRecovery := true }
        else device
      let device :=
        if command = ascii "reset-device-info" then
          resetDeviceInfo device start.attempt.io.messageInfo
        else device
      if command = ascii "root-detect" then
        emmcSetRecoveryMsg (setDeviceRoot device start.attempt.io.messageInfo)
          (putString message 0 []) start
      else device

def writePartition (device : Device) (flash : Flash) (name : Text) (source : Nat → UInt8)
    (bytes : Nat) (fault : Fault) : Bool × Device :=
  match flash.find name with
  | none => (true, device)
  | some ptn =>
    let written := flashWrite flash ptn 0 source bytes fault
    (written.1, { device with storage := .nand written.2 })

def setRecoveryMessage (device : Device) (flash : Flash) (message : Nat → UInt8) (io : Io) :
    Device :=
  match flash.find "misc".toList with
  | none => device
  | some ptn =>
    let n := flash.pageSize * 2
    let read := flashRead flash ptn 0 device.scratch 0 n io.messageReread
    if read.1 then { device with scratch := read.2 }
    else
      let pages := splice read.2 flash.pageSize messageSize message
      (writePartition { device with scratch := pages } flash "misc".toList pages n
        io.messageWrite).2

def ssdCookie (stack : Nat → UInt8) : Nat → UInt8 :=
  splice stack 0 8 fun i => (toLe32 0x53534443 ++ toLe32 0x4F4F4B49).getD i 0

/-- `recovery_init` without `OLD_FOTA_UPGRADE`; a radio update ends in a reboot. -/
def recoveryInit (device : Device) (flash : Flash) (start : Start) : Device :=
  let io := start.attempt.io
  match flash.find "misc".toList with
  | none => device
  | some ptn =>
    let read := flashRead flash ptn flash.pageSize (fun _ => 0) 0 flash.pageSize io.message
    if read.1 then device
    else
      let message := putString read.2 31 []
      let cleared := putString message 0 []
      if messageCommand message = ascii "boot-recovery" then
        let status :=
          if messageStatus message = ascii "RADIO" ∧ ¬ start.updated then ascii "failed-update"
          else ascii "OKAY"
        { setRecoveryMessage device flash (putString cleared 32 status) io with
          bootIntoRecovery := true }
      else if messageCommand message = ascii "update-radio" then
        let update := writePartition device flash "FOTA".toList (ssdCookie start.stack)
          (roundToPage 8 (flash.pageSize - 1)) io.fota
        let status := if update.1 then ascii "failed-update" else []
        match update.2.storage with
        | .mmc _ => device
        | .nand flash =>
          { setRecoveryMessage update.2 flash (putString cleared 32 status) io with
            bootIntoRecovery := true
            phase := .off }
      else device

def saveDebugMessage (device : Device) (flash : Flash) (start : Start) : Device :=
  let scratch := splice device.scratch 0 start.logSize start.log
  let device :=
    match flash.find "FOTA".toList with
    | none => device
    | some _ => { device with scratch := scratch }
  (writePartition device flash "FOTA".toList scratch
    ((start.logSize / flash.pageSize + 1) * flash.pageSize) start.attempt.io.log).2

def enterFastboot (device : Device) (start : Start) : Device :=
  let device :=
    match device.storage with
    | .mmc _ => device
    | .nand flash => saveDebugMessage device flash start
  { device with phase := .fastboot }

def prepareBoot (target : Target) (device : Device) (start : Start) : Device :=
  match device.storage with
  | .mmc _ => if target.emmcRecovery then emmcRecoveryInit device start else device
  | .nand flash =>
    let device := recoveryInit device flash start
    match device.storage with
    | .mmc _ => device
    | .nand flash => if device.phase = .off then device else saveDebugMessage device flash start

def normalBoot (target : Target) (device : Device) (start : Start) : Device :=
  if device.phase = .off then device
  else
    let device := bootFromStorage target device start.attempt
    if device.phase = .kernel then device else enterFastboot device start

def recoveryMode : Nat := 0x77665502

def fastbootMode : Nat := 0x77665500

def initialPageSize : Storage → Nat
  | .mmc _ => 2048
  | .nand flash => flash.pageSize

def powered (storage : Storage) (transfers : List Transfer) (start : Start) : Device where
  storage := storage
  phase := .bootloader
  info := Info.clear
  infoBuf := fun _ => 0
  buf := fun _ => 0
  bufReads := []
  bootIntoRecovery := start.recoveryKey
  pageSize := initialPageSize storage
  scratch := start.scratch
  downloadSize := 0
  verified := []
  transfers := transfers

def loadInfo (device : Device) (io : Io) : Device :=
  let read := readDeviceInfo device.storage device.pageSize device.infoBuf device.info
    io.infoRead io.infoFresh
  { device with storage := read.1, infoBuf := read.2.1, info := read.2.2 }

def chooseBoot (device : Device) (start : Start) : Option Device :=
  if device.bootIntoRecovery = false ∧ start.fastbootKey then none
  else if start.trigger then none
  else if start.rebootMode = recoveryMode then some { device with bootIntoRecovery := true }
  else if start.rebootMode = fastbootMode then none
  else some device

def initDevice (target : Target) (storage : Storage) (transfers : List Transfer)
    (start : Start) : Device :=
  let device := powered storage transfers start
  if target.useSignedKernel then loadInfo device start.attempt.io else device

def bootCandidate (target : Target) (storage : Storage) (transfers : List Transfer)
    (start : Start) : Option Device :=
  (chooseBoot (initDevice target storage transfers start) start).map fun device =>
    prepareBoot target device start

def abootInit (target : Target) (storage : Storage) (transfers : List Transfer) (start : Start) :
    Device :=
  match bootCandidate target storage transfers start with
  | none => enterFastboot (initDevice target storage transfers start) start
  | some device => normalBoot target device start

def cmdBoot (device : Device) : Device :=
  if device.downloadSize < bootImgHdrSize then device
  else
    let hdr := readHdr device.scratch
    let device := if device.storage.isMmc then adoptPageSize device hdr else device
    if device.downloadSize < device.imageSize hdr then device
    else bootLinux device (bytesAt device.scratch 0 (device.extent hdr))

def bootClear (target : Target) (device : Device) : Bool :=
  target.clear ((target.scratchAddress, device.downloadSize) :: (readHdr device.scratch).copies)

def cmdOemUnlock (device : Device) (fault : Fault) : Device :=
  if device.info.isUnlocked = 0 then
    saveInfo { device with info := { device.info with isUnlocked := 1 } } fault
  else device

structure FlashEnv where
  faults : List Fault
  partitioned : Bool × Emmc
  secured : Option ((Nat → UInt8) × Nat)
  bch : Bool
  fault : Fault

def flashed (device : Device) (arg : Text) (env : FlashEnv) : Storage :=
  match device.storage with
  | .mmc emmc =>
    .mmc (cmdFlashMmc emmc device.scratch arg device.downloadSize env.faults env.partitioned
      env.secured).2
  | .nand flash =>
    .nand (cmdFlash flash device.pageSize device.scratch arg device.downloadSize env.bch
      env.fault).2

def erased (device : Device) (arg : Text) (env : FlashEnv) : Storage :=
  match device.storage with
  | .mmc emmc => .mmc (cmdEraseMmc emmc arg env.faults).2
  | .nand flash => .nand (cmdErase flash arg).2

inductive Label where
  /-- Power-on or reset; a kernel that ran may have written the storage. -/
  | powerOn (written : Storage) (start : Start)
  | download (data : Nat → UInt8) (size : Nat)
  | boot (overwritten : Device → Device)
  | flash (arg : Text) (env : FlashEnv)
  | erase (arg : Text) (env : FlashEnv)
  | continue (attempt : Attempt)
  | oemUnlock (fault : Fault)
  | oemDeviceInfo
  | reboot

def command (target : Target) (device : Device) : Label → Device
  | .powerOn _ _ => device
  | .download data size => { device with scratch := data, downloadSize := size }
  | .boot overwritten =>
    if (cmdBoot device).phase = .kernel ∧ bootClear target device = false then overwritten device
    else cmdBoot device
  | .flash arg env => { device with storage := flashed device arg env }
  | .erase arg env => { device with storage := erased device arg env }
  | .continue attempt => bootFromStorage target device attempt
  | .oemUnlock fault => cmdOemUnlock device fault
  | .oemDeviceInfo => device
  | .reboot => { device with phase := .off }

/-- One event of the device's life. Commands are served in fastboot mode. -/
def step (target : Target) (device : Device) (label : Label) : Option Device :=
  match label with
  | .powerOn written start =>
    let storage := if device.phase = .kernel then written else device.storage
    some (abootInit target storage device.transfers start)
  | label => if device.phase = .fastboot then some (command target device label) else none

def shipped (storage : Storage) : Device where
  storage := storage
  phase := .off
  info := Info.clear
  infoBuf := fun _ => 0
  buf := fun _ => 0
  bufReads := []
  bootIntoRecovery := false
  pageSize := initialPageSize storage
  scratch := fun _ => 0
  downloadSize := 0
  verified := []
  transfers := []

end AndroidBoot.Aboot.BootFlow
