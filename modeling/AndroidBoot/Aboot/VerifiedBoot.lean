/- source: bootable/lk/app/aboot/aboot.c, recovery.c
   digest: When an unverified kernel runs only on a device whose stored record has a flag set. -/

import AndroidBoot.Aboot.BootFlow
import AndroidBoot.Foundation.Run

set_option autoImplicit false

namespace AndroidBoot.Aboot.VerifiedBoot

open Foundation.Memory Foundation.Run Platform.Mmc Platform.Nand DeviceInfo FlashCommands BootFlow

variable {attempt : Attempt} {storage : Storage} {flash : Flash}

def Lawful (device : Device) : Prop :=
  ∀ transfer ∈ device.transfers, transfer.accepted = true ∨ transfer.flagged = true

/-- A flag in RAM is also stored, and the page size of the flash is the device's. -/
structure Sound (device : Device) : Prop where
  lawful : Lawful device
  recorded : device.info.flagged = true → device.storage.flagged = true
  paged : device.storage.Paged device.pageSize

def recordFound (storage : Storage) : Bool := storage.record.isSome

/-- What a boot image is loaded to is clear of everything else. -/
def loadsClear (target : Target) (device : Device) (hdr : BootImgHdr) : Bool :=
  if target.useSignedKernel ∧ device.info.flagged = false then
    target.clear (device.scratchImage target hdr :: hdr.copies)
  else
    target.clear [(hdr.kernelAddr, device.kernelActual hdr),
      (hdr.ramdiskAddr, device.ramdiskActual hdr)]

/-- The header that an attempt to boot from storage accepts, if it gets to one, meets a condition
along with the device that has taken over its page size. -/
def attemptMeets (device : Device) (attempt : Attempt) (ok : Device → BootImgHdr → Bool) : Bool :=
  (device.storage.isMmc && (readHdr attempt.unified).magic = bootMagic) ||
    (bootPartition device).all fun ptn =>
      (openHeader device ptn attempt.io).2.all (ok (openHeader device ptn attempt.io).1)

/-- The verified bytes cover the kernel and the ramdisk: the sum of their sizes in the
header of the image does not wrap. -/
def covered (device : Device) (hdr : BootImgHdr) : Bool := device.extent hdr ≤ device.imageSize hdr

/-- An attempt to boot whose header fits `buf` and whose image is loaded clear of everything else; on
a device without flags nothing of an earlier stage is taken over, the image can be read and is
verified as a whole, and a flag can be stored. -/
def attemptAllowed (target : Target) (device : Device) (attempt : Attempt) : Bool :=
  device.pageSize ≤ bufSize && (attemptMeets device attempt fun opened hdr =>
    loadsClear target opened hdr && (device.info.flagged || covered opened hdr)) &&
  (device.info.flagged ||
    (recordFound device.storage &&
      (!device.storage.isMmc || (readHdr attempt.unified).magic ≠ bootMagic) &&
      attempt.io.image.isNone && attempt.io.tamper.isNone))

/-- The blocks of the recovery message are not that of the record. -/
def messageApart (storage : Storage) : Bool :=
  match storage with
  | .nand _ => true
  | .mmc emmc =>
    match emmc.infoAddress, partition storage "misc".toList with
    | some info, some misc =>
      let record := (emmc.card []).address info
      let message := (emmc.card []).address (misc % 2 ^ 64)
      message + roundToPage messageSize 511 ≤ record || record + 512 ≤ message
    | _, _ => true

def messageAllowed (start : Start) (device : Device) : Bool :=
  !device.storage.isMmc ||
    (recordFound device.storage && start.attempt.io.messageInfo.isNone &&
      messageApart device.storage)

def startAllowed (target : Target) (storage : Storage) (transfers : List Transfer)
    (start : Start) : Bool :=
  (chooseBoot (initDevice target storage transfers start) start).all (messageAllowed start) &&
    (bootCandidate target storage transfers start).all fun device =>
      device.phase = .off || attemptAllowed target device start.attempt

def allowed (target : Target) (device : Device) : Label → Bool
  | .powerOn written start =>
    startAllowed target (if device.phase = .kernel then written else device.storage)
      device.transfers start
  | .boot _ => device.info.flagged && bootClear target device
  | .flash arg env =>
    !device.info.flagged || (flashed device arg env).recordBytes = device.storage.recordBytes
  | .erase arg env =>
    !device.info.flagged || (erased device arg env).recordBytes = device.storage.recordBytes
  | .continue attempt => attemptAllowed target device attempt
  | .oemUnlock fault =>
    device.info.isUnlocked ≠ 0 || (recordFound device.storage && fault.isNone)
  | _ => true

section Attempt

variable {target : Target} {device : Device} {ptn : Nat} {hdr : BootImgHdr}

theorem clear_head {load : Nat × Nat} {rest : List (Nat × Nat)}
    (clear : target.clear (load :: rest) = true) : target.clear [load] = true := by
  simp only [Target.clear, List.all_append, Bool.and_eq_true, List.append_nil] at clear ⊢
  exact ⟨⟨clear.1.1, clear.1.2.1⟩, trivial⟩

theorem openHeader_eq (device : Device) (ptn : Nat) (io : Io) : ∃ pageSize,
    (openHeader device ptn io).1 = { (readHeader device ptn io).2 with pageSize := pageSize } ∧
    (pageSize = device.pageSize ∨ device.storage.isMmc = true ∧
      ∃ hdr, (openHeader device ptn io).2 = some hdr ∧ pageSize = hdr.pageSize) := by
  unfold openHeader adoptPageSize
  dsimp only
  split_ifs with refused mmc
  · exact ⟨_, rfl, .inl rfl⟩
  · exact ⟨_, rfl, .inr ⟨mmc, _, rfl, rfl⟩⟩
  all_goals exact ⟨_, rfl, .inl rfl⟩

theorem bootFromStorage_rule {P : Device → Prop} {ok : Device → BootImgHdr → Bool}
    (fits : device.pageSize ≤ bufSize) (meets : attemptMeets device attempt ok = true)
    (unified : device.storage.isMmc = true → (readHdr attempt.unified).magic = bootMagic →
      P (bootLinux device attempt.preloaded))
    (same : P device)
    (opened : ∀ ptn, (openHeader device ptn attempt.io).2 = none →
      P (openHeader device ptn attempt.io).1)
    (loaded : ∀ ptn hdr, (openHeader device ptn attempt.io).2 = some hdr →
      ok (openHeader device ptn attempt.io).1 hdr = true →
      P (loadImage target (openHeader device ptn attempt.io).1 ptn hdr attempt)) :
    P (bootFromStorage target device attempt) := by
  have stored {ptn : Nat} (meets : (openHeader device ptn attempt.io).2.all
      (ok (openHeader device ptn attempt.io).1) = true) :
      P (bootStored target device ptn attempt) := by
    rw [bootStored, if_neg (Nat.not_lt.mpr fits)]
    have result := opened ptn
    have loads := loaded ptn
    generalize openHeader device ptn attempt.io = header at meets result loads
    obtain ⟨next, _ | hdr⟩ := header
    · exact result rfl
    · exact loads hdr rfl meets
  rw [attemptMeets, Bool.or_eq_true, Bool.and_eq_true, decide_eq_true_eq] at meets
  rw [bootFromStorage, bootLinuxFromMmc, bootLinuxFromFlash]
  cases found : bootPartition device with
  | none =>
    split_ifs with mmc magic
    · exact unified mmc magic
    · exact same
    · exact same
  | some ptn =>
    rw [found, Option.all_some] at meets
    split_ifs with mmc magic
    · exact unified mmc magic
    · exact stored (meets.resolve_left fun both => magic both.2)
    · exact stored (meets.resolve_left fun both => mmc both.1)

theorem loadImage_rule {P : Device → Prop} (clear : loadsClear target device hdr = true)
    (same : P device)
    (unchecked : ¬ (target.useSignedKernel = true ∧ device.info.flagged = false) →
      ∀ image, P (bootLinux device image))
    (checked : target.useSignedKernel = true → device.info.flagged = false → ∀ scratch,
      ((device.storage.read ptn 0 (device.imageSize hdr) device.scratch 0 attempt.io.image).1 = true →
        P { device with info := { device.info with isTampered := 1 }, scratch := scratch }) ∧
      ∀ unread, P (runImage (judge target
        { device with info := { device.info with isTampered := 1 }, scratch := scratch }
        (device.imageSize hdr) unread) hdr attempt.io.tamper)) :
    P (loadImage target device ptn hdr attempt) := by
  unfold loadsClear at clear
  unfold loadImage
  split_ifs at clear ⊢ with signed
  · have image : target.clear [device.scratchImage target hdr] = true := clear_head clear
    unfold authenticate
    dsimp only
    rw [if_neg (Bool.not_eq_false _ ▸ image)]
    split_ifs with failed
    · exact (checked signed.1 signed.2 _).1 failed
    · have judged (device : Device) (size : Nat) (unread : Bool) :
          (judge target device size unread).scratchImage target hdr =
            device.scratchImage target hdr := by
        unfold judge
        dsimp only
        split_ifs <;> rfl
      unfold enterImage
      dsimp only
      rw [judged, if_neg (Bool.not_eq_false _ ▸ clear)]
      exact (checked signed.1 signed.2 _).2 _
  · have kernel := clear_head clear
    simp only [loadUnchecked, kernel, clear, Bool.true_eq_false, if_false]
    split_ifs
    · exact same
    · exact same
    · exact unchecked signed _

end Attempt

section Boot

variable {target : Target} {device : Device} {ptn : Nat} {hdr : BootImgHdr}

theorem Sound.bootLinux (sound : Sound device) {image : List UInt8}
    (lawful : (device.verified.any fun accepted => image.isPrefixOf accepted) = true ∨
      device.storage.flagged = true) : Sound (bootLinux device image) := by
  refine ⟨?_, sound.recorded, sound.paged⟩
  exact List.forall_mem_append.mpr ⟨sound.lawful, List.forall_mem_singleton.mpr lawful⟩

private theorem read_start (storage : Storage) (len : Nat) (buffer : Nat → UInt8) (start : Nat) :
    (storage.read ptn 0 len buffer start none).1 = false := by
  rcases storage with emmc | flash
  · rfl
  · simp [Storage.read, flashRead]

private theorem bytesAt_isPrefixOf (memory : Nat → UInt8) {n k : Nat} (shorter : n ≤ k) :
    (bytesAt memory 0 n).isPrefixOf (bytesAt memory 0 k) = true := by
  rw [ List.isPrefixOf_iff_prefix]
  obtain ⟨rest, rfl⟩ := Nat.exists_eq_add_of_le shorter
  rw [bytesAt, bytesAt, List.range_add, List.map_append]
  exact List.prefix_append _ _

section Stored

variable (lawful : Lawful device) (paged : device.storage.Paged device.pageSize)
include lawful paged

theorem saveInfo_sound (found : recordFound device.storage = true) :
    Sound (saveInfo device none) := by
  refine ⟨lawful, fun flagged => ?_, writeDeviceInfo_paged paged _ _ _⟩
  rw [← flagged]
  exact writeDeviceInfo_flagged paged _ _ found

theorem runImage_sound {size : Nat} (locked : device.info.isUnlocked = 0)
    (rooted : device.info.isTampered = 1) (found : recordFound device.storage = true)
    (whole : device.extent hdr ≤ size) (unread : Bool) :
    Sound (runImage (judge target device size unread) hdr none) := by
  rw [runImage, judge]
  split
  · have accepted : Sound
        { device with
          info := { device.info with isTampered := 0 }
          verified := bytesAt device.scratch 0 size :: device.verified } := by
      refine ⟨lawful, fun flagged => ?_, paged⟩
      simp [Info.flagged, locked] at flagged
    refine accepted.bootLinux (.inl ?_)
    exact Bool.or_eq_true_iff.mpr (.inl (bytesAt_isPrefixOf _ whole))
  · have kept : device.info.isTampered ≠ 0 := by
      rw [rooted]
      decide
    rw [if_pos kept]
    have saved := saveInfo_sound lawful paged found
    refine saved.bootLinux (.inr (saved.recorded ?_))
    show device.info.flagged = true
    simp [Info.flagged, rooted]

end Stored

section Signed

variable (signed : target.useSignedKernel = true)
include signed

theorem loadImage_sound (sound : Sound device) (clear : loadsClear target device hdr = true)
    (ok : device.info.flagged = false → recordFound device.storage = true ∧
      attempt.io.image = none ∧ attempt.io.tamper = none ∧ covered device hdr = true) :
    Sound (loadImage target device ptn hdr attempt) := by
  refine loadImage_rule clear sound (fun other image => ?_) fun _ plain scratch => ?_
  · refine sound.bootLinux (.inr (sound.recorded ?_))
    by_contra plain
    exact other ⟨signed, by simpa using plain⟩
  · obtain ⟨found, image, tamper, whole⟩ := ok plain
    have locked : device.info.isUnlocked = 0 := by
      simp [Info.flagged] at plain
      exact plain.1
    refine ⟨fun failed => ?_, fun unread => ?_⟩
    · rw [image, read_start] at failed
      cases failed
    · rw [tamper]
      refine runImage_sound ?_ ?_ ?_ rfl ?_ ?_ unread
      exacts [sound.lawful, sound.paged, locked, found, of_decide_eq_true whole]

theorem bootFromStorage_sound (sound : Sound device)
    (ok : attemptAllowed target device attempt = true) :
    Sound (bootFromStorage target device attempt) := by
  rw [attemptAllowed, Bool.and_eq_true, Bool.and_eq_true, decide_eq_true_eq] at ok
  obtain ⟨⟨fits, meets⟩, plain⟩ := ok
  simp only [Bool.and_eq_true, Bool.or_eq_true, Option.isNone_iff_eq_none, decide_eq_true_eq,
    Bool.not_eq_true'] at plain
  have opened (ptn : Nat) : Sound (openHeader device ptn attempt.io).1 := by
    obtain ⟨pageSize, same, page⟩ := openHeader_eq device ptn attempt.io
    rw [same]
    refine ⟨sound.lawful, sound.recorded, fun flash nand => ?_⟩
    rcases page with kept | ⟨mmc, -⟩
    · exact kept.trans (sound.paged flash nand)
    · rw [show device.storage = .nand flash from nand] at mmc
      cases mmc
  refine bootFromStorage_rule fits meets (fun mmc magic => ?_) sound (fun ptn _ => opened ptn)
    fun ptn hdr _ ok => ?_
  · refine sound.bootLinux (.inr (sound.recorded (plain.resolve_right ?_)))
    rintro ⟨⟨⟨-, fresh⟩, -⟩, -⟩
    rcases fresh with nand | other
    · rw [mmc] at nand
      cases nand
    · exact other magic
  · rw [Bool.and_eq_true, Bool.or_eq_true] at ok
    refine loadImage_sound signed (opened ptn) ok.1 fun clean => ?_
    obtain ⟨pageSize, same, -⟩ := openHeader_eq device ptn attempt.io
    rw [same] at clean ⊢
    have clean : device.info.flagged = false := clean
    rw [clean] at plain ok
    obtain ⟨⟨⟨found, -⟩, image⟩, tamper⟩ := plain.resolve_left (by simp)
    exact ⟨found, image, tamper, same ▸ ok.2.resolve_left (by simp)⟩

end Signed

end Boot

section Preparation

/-- A property of the device that the bootloader's memory is no part of, and that the writes of
partitions keep. -/
structure KeptOnFlash (P : Device → Prop) : Prop where
  memory : ∀ {device}, P device → ∀ scratch recovery phase,
    P { device with scratch := scratch, bootIntoRecovery := recovery, phase := phase }
  partition : ∀ {device flash name}, P device → device.storage = .nand flash →
    name ≠ "devinfo".toList → ∀ source bytes fault,
      P (writePartition device flash name source bytes fault).2

/-- Also the changes of the record and of the message on eMMC keep it. -/
structure Kept (start : Start) (P : Device → Prop) : Prop extends KeptOnFlash P where
  info : ∀ {device}, P device → device.storage.isMmc = true → ∀ info,
    P (saveInfo { device with info := info } start.attempt.io.messageInfo)
  message : ∀ {device}, P device → ∀ message, P (emmcSetRecoveryMsg device message start)

variable {device : Device} {start : Start} {P : Device → Prop}

section Flash

variable (kept : KeptOnFlash P) (held : P device)
include kept held

section

variable (kind : device.storage = .nand flash)
include kind

theorem KeptOnFlash.setRecoveryMessage (message : Nat → UInt8)
    (io : Io) : P (setRecoveryMessage device flash message io) := by
  rw [BootFlow.setRecoveryMessage]
  split
  · exact held
  · dsimp only
    split
    · exact kept.memory held _ _ _
    · refine kept.partition ?_ ?_ ?_ _ _ _
      exacts [kept.memory held _ _ _, kind, by decide]

theorem KeptOnFlash.recoveryInit : P (recoveryInit device flash start) := by
  rw [BootFlow.recoveryInit]
  dsimp only
  split
  · exact held
  · split
    · exact held
    · split
      · exact kept.memory (kept.setRecoveryMessage held kind _ _) _ _ _
      · split
        · have update := kept.partition held kind
            (show "FOTA".toList ≠ "devinfo".toList by decide) (ssdCookie start.stack)
            (roundToPage 8 (flash.pageSize - 1)) start.attempt.io.fota
          split
          · exact held
          · rename_i flash' there
            exact kept.memory (kept.setRecoveryMessage update there _ _) _ _ _
        · exact held

theorem KeptOnFlash.saveDebugMessage : P (saveDebugMessage device flash start) := by
  rw [BootFlow.saveDebugMessage]
  split
  · exact kept.partition held kind (by decide) _ _ _
  · refine kept.partition ?_ ?_ ?_ _ _ _
    exacts [kept.memory held _ _ _, kind, by decide]

end

theorem KeptOnFlash.enterFastboot : P (enterFastboot device start) := by
  rw [BootFlow.enterFastboot]
  split
  · exact kept.memory held _ _ _
  · rename_i flash kind
    exact kept.memory (kept.saveDebugMessage held kind) _ _ _

theorem KeptOnFlash.chooseBoot {chosen : Device} (taken : chooseBoot device start = some chosen) :
    P chosen := by
  unfold BootFlow.chooseBoot at taken
  split_ifs at taken
  · cases taken
    exact kept.memory held _ _ _
  · cases taken
    exact held

end Flash

variable (kept : Kept start P) (held : P device)
include kept held

theorem Kept.emmcRecoveryInit (mmc : device.storage.isMmc = true) :
    P (emmcRecoveryInit device start) := by
  rw [BootFlow.emmcRecoveryInit]
  split
  · exact held
  · dsimp only
    split
    · exact held
    · generalize messageCommand _ = command
      by_cases root : command = ascii "root-detect"
      · rw [if_pos root, if_neg (by rw [root]; decide), if_neg (by rw [root]; decide)]
        exact kept.message (kept.info held mmc _) _
      · rw [if_neg root]
        have chosen : P (if command = ascii "update-radio" then
            { device with bootIntoRecovery := true } else device) ∧
            (if command = ascii "update-radio" then
              { device with bootIntoRecovery := true } else device).storage.isMmc = true := by
          split
          · exact ⟨kept.memory held _ _ _, mmc⟩
          · exact ⟨held, mmc⟩
        split
        · exact kept.info chosen.1 chosen.2 _
        · exact chosen.1

theorem Kept.prepareBoot (target : Target) : P (prepareBoot target device start) := by
  rw [BootFlow.prepareBoot]
  split
  · rename_i emmc kind
    split
    · exact kept.emmcRecoveryInit held (by rw [kind]; rfl)
    · exact held
  · rename_i flash kind
    have recovered : P (recoveryInit device flash start) := kept.recoveryInit held kind
    dsimp only
    split
    · exact recovered
    · rename_i flash' there
      split
      · exact recovered
      · exact kept.saveDebugMessage recovered there

end Preparation

section Recovery

variable {target : Target} {device : Device} {start : Start}

theorem Sound.keep (sound : Sound device)
    (same : storage.recordBytes = device.storage.recordBytes)
    (paged : storage.Paged device.pageSize) : Sound { device with storage := storage } :=
  ⟨sound.lawful, fun flagged => (flagged_congr same).trans (sound.recorded flagged), paged⟩

theorem messageWrite_recordBytes {emmc : Emmc} {misc : Nat}
    (located : partition (.mmc emmc) "misc".toList = some misc)
    (apart : messageApart (.mmc emmc) = true) (data : Nat → UInt8) (fault : Fault) :
    (Storage.mmc { emmc with
      content := (mmcWrite (emmc.card [fault]) misc (roundToPage messageSize 511)
        data).2.content }).recordBytes = (Storage.mmc emmc).recordBytes := by
  have size : roundToPage messageSize 511 = 1536 := by decide
  have record (content : Nat → UInt8) : (Storage.mmc { emmc with content := content }).record =
      emmc.infoAddress.map fun info i => content ((emmc.card []).address info + i) := rfl
  rw [Storage.recordBytes, Storage.recordBytes, record, record emmc.content]
  rcases address : emmc.infoAddress with _ | info
  · rfl
  · simp only [messageApart, address, located, Bool.or_eq_true, decide_eq_true_eq, size] at apart
    rw [Option.map_some, Option.map_some, Option.map_some, Option.map_some, size,
      mmcWrite_short _ _ _ rfl (by decide) (by decide)]
    refine congrArg some (bytesAt_congr fun i bound => ?_)
    refine mmcBootWriteToCard_apart _ _ ?_
    have block : i < 24 := bound
    show _ < (emmc.card []).address (misc % 2 ^ 64) ∨ (emmc.card []).address (misc % 2 ^ 64) + 1536 ≤ _
    omega

theorem replace_recordBytes {name : List Char} {ptn : Nat} (located : flash.find name = some ptn)
    (other : name ≠ "devinfo".toList) (bytes : Nat → UInt8) :
    (Storage.nand (flash.replace ptn bytes)).recordBytes = (Storage.nand flash).recordBytes := by
  rcases devinfo : flash.find "devinfo".toList with _ | info
  · simp only [Storage.recordBytes, Storage.record, Flash.replace_find, devinfo, Option.map_none]
  · have apart := Flash.find_ne other located devinfo
    simp only [Storage.recordBytes, Storage.record, Flash.replace_find, devinfo, Option.map_some,
      Flash.replace_content_other flash bytes apart.symm]

private theorem flashWrite_replace (flash : Flash) (ptn extra : Nat) (source : Nat → UInt8)
    (bytes : Nat) (fault : Fault) : ∃ content,
      (flashWrite flash ptn extra source bytes fault).2 = flash.replace ptn content := by
  cases fault with
  | none => exact ⟨_, rfl⟩
  | some debris => exact ⟨debris, rfl⟩

def OnFlash (device : Device) : Prop := ∃ flash, device.storage = .nand flash

theorem writePartition_sound (sound : Sound device) (kind : device.storage = .nand flash)
    {name : List Char} (other : name ≠ "devinfo".toList) (source : Nat → UInt8) (bytes : Nat)
    (fault : Fault) :
    Sound (writePartition device flash name source bytes fault).2 ∧
      OnFlash (writePartition device flash name source bytes fault).2 := by
  rw [writePartition]
  split
  · exact ⟨sound, flash, kind⟩
  · rename_i ptn located
    obtain ⟨content, written⟩ := flashWrite_replace flash ptn 0 source bytes fault
    refine ⟨sound.keep ?_ ?_, _, rfl⟩
    · rw [kind, written]
      exact replace_recordBytes located other content
    · rintro flash' ⟨⟩
      rw [flashWrite_pageSize]
      exact sound.paged flash kind

theorem keptOnFlash_sound : KeptOnFlash Sound where
  memory sound _ _ _ := { sound with }
  partition sound kind other source bytes fault :=
    (writePartition_sound sound kind other source bytes fault).1

/-- A sound device; on eMMC the recovery message can change the stored record, and is not stored
over it. -/
structure Prepared (start : Start) (device : Device) : Prop where
  sound : Sound device
  message : device.storage.isMmc = true → recordFound device.storage = true ∧
    start.attempt.io.messageInfo = none ∧ messageApart device.storage = true

theorem recordFound_content (emmc : Emmc) (content : Nat → UInt8) :
    recordFound (.mmc { emmc with content := content }) = recordFound (.mmc emmc) := by
  show (Option.map _ emmc.infoAddress).isSome = (Option.map _ emmc.infoAddress).isSome
  rw [Option.isSome_map, Option.isSome_map]

theorem kept_prepared (start : Start) : Kept start (Prepared start) where
  memory held _ _ _ := ⟨keptOnFlash_sound.memory held.sound _ _ _, held.message⟩
  partition held kind other source bytes fault := by
    obtain ⟨sound, flash, there⟩ := writePartition_sound held.sound kind other source bytes fault
    refine ⟨sound, fun mmc => ?_⟩
    rw [there] at mmc
    cases mmc
  info {device} held mmc info := by
    obtain ⟨found, stored, apart⟩ := held.message mmc
    rw [stored]
    refine ⟨saveInfo_sound held.sound.lawful held.sound.paged found, fun _ => ?_⟩
    rcases kind : device.storage with emmc | flash
    · obtain ⟨content, written⟩ := writeDeviceInfo_mmc emmc device.pageSize device.infoBuf info none
      rw [kind] at found apart
      simp only [saveInfo, written, recordFound_content]
      exact ⟨found, stored, apart⟩
    · rw [kind] at mmc
      cases mmc
  message {device} held message := by
    rw [emmcSetRecoveryMsg]
    split
    · exact held
    · rename_i emmc kind
      split
      · exact held
      · rename_i misc located
        obtain ⟨found, stored, apart⟩ := held.message (by rw [kind]; rfl)
        rw [kind] at located found apart
        refine ⟨held.sound.keep ?_ (fun _ same => by cases same), fun _ => ⟨?_, stored, apart⟩⟩
        · rw [kind]
          exact messageWrite_recordBytes located apart _ _
        · exact (recordFound_content emmc _).trans found

theorem prepareBoot_sound (sound : Sound device) (ok : messageAllowed start device = true) :
    Sound (prepareBoot target device start) := by
  simp only [messageAllowed, Bool.and_eq_true, Bool.or_eq_true, Bool.not_eq_true',
    Option.isNone_iff_eq_none] at ok
  refine ((kept_prepared start).prepareBoot ⟨sound, fun mmc => ?_⟩ target).sound
  rcases ok with nand | ⟨⟨found, stored⟩, apart⟩
  · rw [mmc] at nand
    cases nand
  · exact ⟨found, stored, apart⟩

theorem normalBoot_sound (signed : target.useSignedKernel = true) (sound : Sound device)
    (ok : device.phase = .off ∨ attemptAllowed target device start.attempt = true) :
    Sound (normalBoot target device start) := by
  rw [normalBoot]
  dsimp only
  split
  · exact sound
  · rename_i running
    have booted := bootFromStorage_sound signed sound (ok.resolve_left running)
    split
    · exact booted
    · exact keptOnFlash_sound.enterFastboot booted

end Recovery

section Device

variable {target : Target} {device : Device}

private theorem initialPageSize_paged (storage : Storage) :
    storage.Paged (initialPageSize storage) := by
  rintro flash rfl
  rfl

theorem initDevice_sound {transfers : List Transfer} (start : Start)
    (lawful : ∀ transfer ∈ transfers, transfer.accepted = true ∨ transfer.flagged = true) :
    Sound (initDevice target storage transfers start) := by
  have paged : (powered storage transfers start).storage.Paged
      (powered storage transfers start).pageSize := initialPageSize_paged storage
  rw [initDevice]
  split
  · refine ⟨lawful, fun flagged => ?_, readDeviceInfo_paged paged _ _ _ _⟩
    exact readDeviceInfo_flagged paged rfl flagged
  · exact ⟨lawful, nofun, paged⟩

theorem abootInit_sound (signed : target.useSignedKernel = true) {transfers : List Transfer}
    {start : Start}
    (lawful : ∀ transfer ∈ transfers, transfer.accepted = true ∨ transfer.flagged = true)
    (ok : startAllowed target storage transfers start = true) :
    Sound (abootInit target storage transfers start) := by
  have init : Sound (initDevice target storage transfers start) := initDevice_sound start lawful
  rw [startAllowed, Bool.and_eq_true] at ok
  obtain ⟨message, attempt⟩ := ok
  rw [abootInit]
  split
  · exact keptOnFlash_sound.enterFastboot init
  · rename_i prepared taken
    obtain ⟨chosen, chose, rfl⟩ := Option.map_eq_some_iff.mp taken
    rw [chose, Option.all_some] at message
    rw [taken, Option.all_some, Bool.or_eq_true, decide_eq_true_eq] at attempt
    exact normalBoot_sound signed
      (prepareBoot_sound (keptOnFlash_sound.chooseBoot init chose) message) attempt

private theorem adoptPageSize_sound {hdr : BootImgHdr} (sound : Sound device)
    (mmc : device.storage.isMmc = true) :
    Sound (adoptPageSize device hdr) ∧ (adoptPageSize device hdr).info = device.info := by
  rw [adoptPageSize]
  split
  · refine ⟨⟨sound.lawful, sound.recorded, fun flash same => ?_⟩, rfl⟩
    replace same : device.storage = .nand flash := same
    rw [same] at mmc
    cases mmc
  · exact ⟨sound, rfl⟩

theorem cmdBoot_sound (sound : Sound device) (flagged : device.info.flagged = true) :
    Sound (cmdBoot device) := by
  rw [cmdBoot]
  split
  · exact sound
  · have adopted : Sound (if device.storage.isMmc then
          adoptPageSize device (readHdr device.scratch) else device) ∧
        (if device.storage.isMmc then
          adoptPageSize device (readHdr device.scratch) else device).info = device.info := by
      split
      · rename_i mmc
        exact adoptPageSize_sound sound mmc
      · exact ⟨sound, rfl⟩
    dsimp only
    generalize (if device.storage.isMmc then
      adoptPageSize device (readHdr device.scratch) else device) = paged at adopted ⊢
    obtain ⟨kept, same⟩ := adopted
    split
    · exact kept
    · refine kept.bootLinux (.inr (kept.recorded ?_))
      rw [same]
      exact flagged

theorem cmdOemUnlock_sound (sound : Sound device) {fault : Fault}
    (ok : device.info.isUnlocked ≠ 0 ∨ recordFound device.storage = true ∧ fault = none) :
    Sound (cmdOemUnlock device fault) := by
  rw [cmdOemUnlock]
  split
  · rename_i locked
    obtain ⟨found, rfl⟩ := ok.resolve_left (not_not.mpr locked)
    refine saveInfo_sound ?_ ?_ ?_
    · exact sound.lawful
    · exact sound.paged
    · exact found
  · exact sound

private theorem flashed_paged (paged : device.storage.Paged device.pageSize) (arg : List Char)
    (env : FlashEnv) : (flashed device arg env).Paged device.pageSize := by
  rw [flashed]
  split
  · exact nofun
  · rename_i flash kind
    rintro flash' ⟨⟩
    rw [paged flash kind, cmdFlash]
    split
    · rfl
    · split
      · rfl
      · split
        · rfl
        · simp only [apply_ite Prod.snd, ite_self, flashWrite_pageSize]

private theorem erased_paged (paged : device.storage.Paged device.pageSize) (arg : List Char)
    (env : FlashEnv) : (erased device arg env).Paged device.pageSize := by
  rw [erased]
  split
  · exact nofun
  · rename_i flash kind
    rintro flash' ⟨⟩
    rw [paged flash kind, cmdErase]
    split
    · rfl
    · split <;> rfl

private theorem Sound.rewrite (sound : Sound device) (paged : storage.Paged device.pageSize)
    (ok : device.info.flagged = false ∨ storage.recordBytes = device.storage.recordBytes) :
    Sound { device with storage := storage } := by
  rcases ok with plain | same
  · refine ⟨sound.lawful, fun flagged => ?_, paged⟩
    rw [show device.info.flagged = true from flagged] at plain
    cases plain
  · exact sound.keep same paged

theorem command_sound (signed : target.useSignedKernel = true) (sound : Sound device)
    (label : Label) (ok : allowed target device label = true) :
    Sound (command target device label) := by
  cases label with
  | powerOn | oemDeviceInfo => exact sound
  | download | reboot => exact { sound with }
  | boot overwritten =>
    simp only [allowed, Bool.and_eq_true] at ok
    simp only [command, ok.2, Bool.true_eq_false, and_false, if_false]
    exact cmdBoot_sound sound ok.1
  | flash arg env =>
    refine sound.rewrite (flashed_paged sound.paged arg env) ?_
    simpa [allowed] using ok
  | erase arg env =>
    refine sound.rewrite (erased_paged sound.paged arg env) ?_
    simpa [allowed] using ok
  | «continue» attempt => exact bootFromStorage_sound signed sound ok
  | oemUnlock fault =>
    refine cmdOemUnlock_sound sound ?_
    simpa [allowed] using ok

theorem step_sound (signed : target.useSignedKernel = true) {next : Device} {label : Label}
    (sound : Sound device) (ok : allowed target device label = true)
    (taken : step target device label = some next) : Sound next := by
  cases label with
  | powerOn written start =>
    cases taken
    exact abootInit_sound signed sound.lawful ok
  | _ =>
    simp only [step] at taken
    split at taken
    · cases taken
      exact command_sound signed sound _ ok
    · cases taken

end Device

def strictTarget : Target where
  useSignedKernel := true
  emmcRecovery := true
  imageVerify := fun _ _ => false
  own := [(0x88F00000, 0x100000)]
  scratchAddress := 0x90000000

def lockedStorage : Storage :=
  .mmc ⟨true, [⟨"aboot".toList, 1, 2⟩], splice (fun _ => 0) 1024 infoSize fun i =>
    Info.clear.bytes.getD i 0⟩

def fastbootStart : Start where
  recoveryKey := false
  fastbootKey := true
  trigger := false
  rebootMode := 0
  updated := false
  stack := fun _ => 0
  log := fun _ => 0
  logSize := 0
  scratch := fun _ => 0
  attempt := ⟨fun _ => 0, [], {}, id⟩

def smallImage : Nat → UInt8 := fun i => if i = 8 then 1 else 0

end AndroidBoot.Aboot.VerifiedBoot
