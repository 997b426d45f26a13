/- source: bootable/lk/app/aboot/recovery.c
   digest: What the recovery message in the misc partition is after a boot, on eMMC and on flash. -/

import AndroidBoot.Aboot.BootFlow

set_option autoImplicit false

namespace AndroidBoot.Aboot.RecoveryMessage

open Foundation.Memory Platform.Mmc Platform.Nand DeviceInfo BootFlow

def miscMessage (storage : Storage) : Option (Nat → UInt8) :=
  (partition storage "misc".toList).map fun ptn i =>
    match storage with
    | .mmc emmc => emmc.content ((emmc.card []).address ptn + i)
    | .nand flash => flash.content ptn (flash.pageSize + i)

def messageRecovery (message : Nat → UInt8) : List UInt8 := bytesAt message 64 1024

def terminated (message : Nat → UInt8) : Nat → UInt8 := putString message 31 []

section Fields

variable {one other : Nat → UInt8}

theorem messageCommand_congr (same : ∀ i < 31, one i = other i) :
    messageCommand one = messageCommand other := by
  rw [messageCommand, messageCommand, bytesAt_congr fun i bound => ?_]
  rw [Nat.zero_add]
  exact same i bound

theorem messageStatus_congr (same : ∀ i < 32, one (32 + i) = other (32 + i)) :
    messageStatus one = messageStatus other := by
  rw [messageStatus, messageStatus, bytesAt_congr same]

section

variable (message : Nat → UInt8)

theorem messageCommand_eq_nil_iff : messageCommand message = [] ↔ message 0 = 0 := by
  have front : bytesAt message 0 31 =
      message 0 :: (List.range 30).map fun i => message (i + 1) := by
    rw [bytesAt, List.range_succ_eq_map, List.map_cons, List.map_map]
    refine congrArg _ (List.map_congr_left fun i _ => ?_)
    rw [Function.comp_apply, Nat.zero_add]
  rw [messageCommand, front, List.takeWhile_cons]
  by_cases zero : message 0 = 0
  · simp [zero]
  · simp [zero]

theorem putString_nil (start i : Nat) :
    putString message start [] i = if i = start then 0 else message i := by
  rw [putString, splice]
  by_cases here : i = start
  · rw [if_pos here, if_pos (by simp [here])]
    rfl
  · rw [if_neg here, if_neg]
    simp only [List.length_nil]
    omega

theorem messageCommand_terminated :
    messageCommand (terminated message) = messageCommand message := by
  refine messageCommand_congr fun i bound => ?_
  rw [terminated, putString_nil, if_neg (by omega)]

theorem messageCommand_cleared : messageCommand (putString message 0 []) = [] := by
  rw [messageCommand_eq_nil_iff, putString_nil, if_pos rfl]

theorem messageStatus_cleared :
    messageStatus (putString (terminated message) 0 []) = messageStatus message := by
  refine messageStatus_congr fun i _ => ?_
  rw [putString_nil, if_neg (by omega), terminated, putString_nil, if_neg (by omega)]

end

end Fields

/-- A command on which `_emmc_recovery_init` acts. -/
def Recognised (message : Nat → UInt8) : Prop :=
  messageCommand message = ascii "update-radio" ∨
    messageCommand message = ascii "reset-device-info" ∨
    messageCommand message = ascii "root-detect"

/-- The status that this boot has decided on: that of a radio update is the one of
`get_boot_info_apps`, the other commands leave the status as it is. -/
def decidedStatus (start : Start) (message : Nat → UInt8) : List UInt8 :=
  if messageCommand message = ascii "update-radio" then
    if start.updated then ascii "OKAY" else ascii "failed-update"
  else messageStatus message

/-- After `_emmc_recovery_init` on this device the stored command is empty and the status the
one decided on, and the next boot does nothing about the message. -/
structure OneShot (device : Device) (start : Start) (message : Nat → UInt8) : Prop where
  stored : ∃ left, miscMessage (emmcRecoveryInit device start).storage = some left ∧
    messageCommand left = [] ∧ messageStatus left = decidedStatus start message
  next : ∀ (later : Device) (again : Start),
    later.storage = (emmcRecoveryInit device start).storage → emmcRecoveryInit later again = later

section Emmc

variable {device : Device} {emmc : Emmc} {start : Start} {message : Nat → UInt8}

/-- What `emmc_get_recovery_msg` has on its stack. -/
def fetched (start : Start) (message : Nat → UInt8) : Nat → UInt8 :=
  splice start.stack 0 (roundToPage messageSize 511) message

theorem fetched_inside (start : Start) (message : Nat → UInt8) {i : Nat} (inside : i < 1536) :
    fetched start message i = message i := by
  have size : roundToPage messageSize 511 = 1536 := by decide
  rw [fetched, size, splice, if_pos (by omega), Nat.sub_zero]

theorem messageCommand_fetched (start : Start) (message : Nat → UInt8) :
    messageCommand (terminated (fetched start message)) = messageCommand message := by
  rw [messageCommand_terminated]
  exact messageCommand_congr fun i bound => fetched_inside start message (by omega)

theorem miscMessage_mmc (stored : miscMessage (.mmc emmc) = some message) :
    ∃ ptn, partition (.mmc emmc) "misc".toList = some ptn ∧ ptn < 2 ^ 64 ∧ blockSize ∣ ptn ∧
      message = fun i => emmc.content ((emmc.card []).address ptn + i) := by
  obtain ⟨ptn, located, same⟩ := Option.map_eq_some_iff.mp stored
  have place := located
  simp only [partition] at place
  split at place
  · cases place
  · cases place
    exact ⟨_, located, partitionGetOffset_lt _ _, partitionGetOffset_dvd _ _, same.symm⟩

theorem miscMessage_content (emmc : Emmc) (content : Nat → UInt8) :
    miscMessage (.mmc { emmc with content := content }) =
      (partition (.mmc emmc) "misc".toList).map fun ptn i =>
        content ((emmc.card []).address ptn + i) := rfl

section

variable (mmc : device.storage = .mmc emmc)
include mmc

theorem emmcRecoveryInit_read (stored : miscMessage device.storage = some message)
    (read : start.attempt.io.message = none) :
    emmcRecoveryInit device start =
      if messageCommand message = ascii "update-radio" then
        { device with bootIntoRecovery := true }
      else if messageCommand message = ascii "reset-device-info" then
        resetDeviceInfo device start.attempt.io.messageInfo
      else if messageCommand message = ascii "root-detect" then
        emmcSetRecoveryMsg (setDeviceRoot device start.attempt.io.messageInfo)
          (putString (terminated (fetched start message)) 0 []) start
      else device := by
  rw [mmc] at stored
  obtain ⟨ptn, located, bound, -, rfl⟩ := miscMessage_mmc stored
  have bytes : device.storage.read ptn 0 (roundToPage messageSize 511) start.stack 0
      start.attempt.io.message =
        (false, fetched start fun i => emmc.content ((emmc.card []).address ptn + i)) := by
    rw [mmc, read]
    simp only [Storage.read, mmcRead, mmcBootReadFromCard, Emmc.card, Nat.add_zero,
      Nat.mod_eq_of_lt bound]
    rfl
  rw [emmcRecoveryInit, mmc, located]
  dsimp only
  rw [← mmc, bytes]
  have command := messageCommand_fetched start
    fun i => emmc.content ((emmc.card []).address ptn + i)
  rw [terminated] at command ⊢
  rw [command]
  generalize messageCommand _ = word
  by_cases radio : word = ascii "update-radio"
  · rw [radio]
    rfl
  · by_cases reset : word = ascii "reset-device-info"
    · rw [reset]
      rfl
    · rw [if_neg radio, if_neg radio, if_neg reset, if_neg radio, if_neg reset]
      rfl

theorem emmcRecoveryInit_unread {debris : Nat → UInt8}
    (failed : start.attempt.io.message = some debris) : emmcRecoveryInit device start = device := by
  rw [emmcRecoveryInit]
  split
  · rfl
  · rw [mmc, failed]
    rfl

theorem emmcRecoveryInit_idle
    (stored : miscMessage device.storage = some message) (empty : messageCommand message = []) :
    emmcRecoveryInit device start = device := by
  rcases read : start.attempt.io.message with _ | debris
  · rw [emmcRecoveryInit_read mmc stored read, empty]
    rfl
  · exact emmcRecoveryInit_unread mmc read

end

variable (device) in
theorem saveInfo_content (mmc : device.storage = .mmc emmc) :
    ∃ content, (saveInfo device none).storage = .mmc { emmc with content := content } ∧
      (content = emmc.content ∨
        ∃ block, blockSize ∣ block ∧
          content = splice emmc.content block blockSize (putInfo device.infoBuf device.info)) := by
  rw [saveInfo, mmc]
  rw [writeDeviceInfo, Storage.record]
  rcases located : emmc.infoAddress with _ | addr
  · exact ⟨emmc.content, rfl, Or.inl rfl⟩
  · have aligned : blockSize ∣ addr % 2 ^ 64 :=
      (Nat.dvd_mod_iff ⟨2 ^ 55, rfl⟩).mpr (infoAddress_dvd located)
    simp only [Storage.putRecord, located]
    refine ⟨_, rfl, Or.inr ⟨(emmc.card [none]).address (addr % 2 ^ 64),
      Card.address_dvd _ aligned, ?_⟩⟩
    rw [mmcWrite_short _ _ _ rfl (by decide) (by decide)]
    rfl

theorem emmcSetRecoveryMsg_stored (mmc : device.storage = .mmc emmc)
    (found : (miscMessage device.storage).isSome = true)
    (written : start.attempt.io.messageWrite = none) (data : Nat → UInt8) :
    ∃ content left,
      (emmcSetRecoveryMsg device data start).storage = .mmc { emmc with content := content } ∧
      miscMessage (.mmc { emmc with content := content }) = some left ∧
      ∀ i < messageSize, left i = data i := by
  obtain ⟨message, stored⟩ := Option.isSome_iff_exists.mp found
  rw [mmc] at stored
  obtain ⟨ptn, located, bound, -, -⟩ := miscMessage_mmc stored
  have size : roundToPage messageSize 511 = 1536 := by decide
  let content := splice emmc.content ((emmc.card []).address ptn) 1536
    (splice start.stack 0 messageSize data)
  refine ⟨content, fun i => content ((emmc.card []).address ptn + i), ?_, ?_, ?_⟩
  · rw [emmcSetRecoveryMsg, mmc]
    rw [located, written, size]
    dsimp only
    rw [mmcWrite_short _ _ _ rfl (by decide) (by decide), Nat.mod_eq_of_lt bound]
    rfl
  · rw [miscMessage_content, located]
    rfl
  · intro i inside
    have inBlock : i < 1536 := Nat.lt_trans inside (by decide)
    dsimp only [content]
    rw [splice, if_pos (by omega), Nat.add_sub_cancel_left, splice, if_pos (by omega), Nat.sub_zero]

theorem oneShot_root (mmc : device.storage = .mmc emmc)
    (stored : miscMessage device.storage = some message)
    (read : start.attempt.io.message = none) (info : start.attempt.io.messageInfo = none)
    (written : start.attempt.io.messageWrite = none)
    (root : messageCommand message = ascii "root-detect") : OneShot device start message := by
  have acts : emmcRecoveryInit device start =
      emmcSetRecoveryMsg (setDeviceRoot device none)
        (putString (terminated (fetched start message)) 0 []) start := by
    rw [emmcRecoveryInit_read mmc stored read, root, info]
    rfl
  obtain ⟨content, rooted, -⟩ :=
    saveInfo_content { device with info := { device.info with isTampered := 1 } } mmc
  have found : (miscMessage (setDeviceRoot device none).storage).isSome = true := by
    rw [mmc] at stored
    obtain ⟨ptn, located, -⟩ := miscMessage_mmc stored
    rw [setDeviceRoot, rooted, miscMessage_content, located]
    rfl
  obtain ⟨final, left, after, there, same⟩ := emmcSetRecoveryMsg_stored rooted found written
    (putString (terminated (fetched start message)) 0 [])
  have empty : messageCommand left = [] := by
    rw [messageCommand_congr fun i bound => same i (Nat.lt_trans bound (by decide))]
    exact messageCommand_cleared _
  have status : messageStatus left = messageStatus message := by
    rw [messageStatus_congr fun i bound => same (32 + i) (by unfold messageSize; omega),
      messageStatus_cleared]
    exact messageStatus_congr fun i bound => fetched_inside start message (by omega)
  constructor
  · refine ⟨left, ?_, empty, ?_⟩
    · rw [acts, setDeviceRoot, after]
      exact there
    · rw [decidedStatus, root, status]
      rfl
  · intro later again same_storage
    rw [acts, setDeviceRoot, after] at same_storage
    refine emmcRecoveryInit_idle same_storage ?_ empty
    rw [same_storage]
    exact there

theorem not_oneShot_of_kept {left : Nat → UInt8}
    (there : miscMessage (emmcRecoveryInit device start).storage = some left)
    (nonzero : left 0 ≠ 0) : ¬ OneShot device start message := by
  rintro ⟨⟨other, also, empty, -⟩, -⟩
  rw [there] at also
  cases also
  exact nonzero ((messageCommand_eq_nil_iff left).mp empty)

theorem putInfo_first (buffer : Nat → UInt8) (info : Info) : putInfo buffer info 0 = 0x41 := rfl

theorem resetDeviceInfo_first (mmc : device.storage = .mmc emmc)
    (stored : miscMessage device.storage = some message) (nonzero : message 0 ≠ 0) :
    ∃ left, miscMessage (resetDeviceInfo device none).storage = some left ∧ left 0 ≠ 0 := by
  rw [mmc] at stored
  obtain ⟨ptn, located, -, aligned, rfl⟩ := miscMessage_mmc stored
  obtain ⟨content, after, changed⟩ :=
    saveInfo_content { device with info := { device.info with isTampered := 0 } } mmc
  refine ⟨fun i => content ((emmc.card []).address ptn + i), ?_, ?_⟩
  · rw [resetDeviceInfo, after, miscMessage_content, located]
    rfl
  · rcases changed with rfl | ⟨block, whole, rfl⟩
    · exact nonzero
    · have place : blockSize ∣ (emmc.card []).address ptn := Card.address_dvd _ aligned
      dsimp only at nonzero ⊢
      rw [Nat.add_zero] at nonzero ⊢
      by_cases same : (emmc.card []).address ptn = block
      · rw [same, splice, if_pos (by unfold blockSize; omega), Nat.sub_self, putInfo_first]
        decide
      · rw [splice, if_neg]
        · exact nonzero
        · unfold blockSize at place whole ⊢
          omega

/-- For every stored message with a recognised command, where the read and the writes succeed:
the command is acted on once just if it is `root-detect`. -/
theorem oneShot_iff_root (mmc : device.storage = .mmc emmc)
    (stored : miscMessage device.storage = some message) (recognised : Recognised message)
    (read : start.attempt.io.message = none) (info : start.attempt.io.messageInfo = none)
    (written : start.attempt.io.messageWrite = none) :
    OneShot device start message ↔ messageCommand message = ascii "root-detect" := by
  refine ⟨fun once => ?_, oneShot_root mmc stored read info written⟩
  have nonzero : message 0 ≠ 0 := by
    intro zero
    rw [Recognised, (messageCommand_eq_nil_iff message).mpr zero] at recognised
    revert recognised
    decide
  rcases recognised with radio | reset | root
  · have acts : emmcRecoveryInit device start = { device with bootIntoRecovery := true } := by
      rw [emmcRecoveryInit_read mmc stored read, radio]
      rfl
    exact absurd once (not_oneShot_of_kept (acts ▸ stored) nonzero)
  · have acts : emmcRecoveryInit device start = resetDeviceInfo device none := by
      rw [emmcRecoveryInit_read mmc stored read, reset, info]
      rfl
    obtain ⟨left, there, kept⟩ := resetDeviceInfo_first mmc stored nonzero
    exact absurd once (not_oneShot_of_kept (acts ▸ there) kept)
  · exact root

end Emmc

def plainStart : Start where
  recoveryKey := false
  fastbootKey := false
  trigger := false
  rebootMode := 0
  updated := true
  stack := fun _ => 0
  log := fun _ => 0
  logSize := 0
  scratch := fun _ => 0
  attempt := ⟨fun _ => 0, [], {}, id⟩

def commandMessage (command : String) : Nat → UInt8 := fun i => (ascii command).getD i 0

def commandCard (command : String) : Emmc :=
  ⟨true, [⟨"misc".toList, 2, 4⟩], fun i => if i < 1024 then 0 else commandMessage command (i - 1024)⟩

private theorem commandCard_message (command : String) :
    miscMessage (.mmc (commandCard command)) = some (commandMessage command) := by
  have located : partition (.mmc (commandCard command)) "misc".toList = some 1024 := rfl
  rw [miscMessage, located, Option.map_some]
  refine congrArg some (funext fun i => ?_)
  have place : ((commandCard command).card []).address 1024 = 1024 := rfl
  dsimp only
  rw [place, commandCard]
  dsimp only
  rw [if_neg (by omega), Nat.add_sub_cancel_left]

theorem radio_update_repeated :
    Recognised (commandMessage "update-radio") ∧
      ¬ OneShot (shipped (.mmc (commandCard "update-radio"))) plainStart
        (commandMessage "update-radio") := by
  have kept : miscMessage (emmcRecoveryInit (shipped (.mmc (commandCard "update-radio")))
      plainStart).storage = some (commandMessage "update-radio") := by
    exact commandCard_message _
  exact ⟨Or.inl (by decide), not_oneShot_of_kept kept (by decide)⟩

theorem oneShot_iff_root_detect :
    OneShot (shipped (.mmc (commandCard "root-detect"))) plainStart
      (commandMessage "root-detect") :=
  (oneShot_iff_root rfl (commandCard_message _) (Or.inr (Or.inr (by decide))) rfl rfl rfl).mpr
    (by decide)

/-- What the flow above `recovery_init` requires of a radio update: the message that is left has
its recovery field as it was, the command `boot-recovery` and a status that tells a failed write
of the FOTA partition from a good one, and the next boot that can read it enters recovery. -/
structure RadioProtocol (device : Device) (flash : Flash) (start : Start)
    (message : Nat → UInt8) : Prop where
  stored : ∃ left, miscMessage (recoveryInit device flash start).storage = some left ∧
    messageRecovery left = messageRecovery message ∧
    messageCommand left = ascii "boot-recovery" ∧
    messageStatus left ≠ [] ∧
    (messageStatus left = ascii "failed-update" ↔
      (writePartition device flash "FOTA".toList (ssdCookie start.stack)
        (roundToPage 8 (flash.pageSize - 1)) start.attempt.io.fota).1 = true)
  next : ∀ (later : Device) (flash' : Flash) (again : Start),
    later.storage = .nand flash' → later.storage = (recoveryInit device flash start).storage →
    again.attempt.io.message = none → (recoveryInit later flash' again).bootIntoRecovery = true

section Nand

variable {device : Device} {flash : Flash} {start : Start} {message : Nat → UInt8}

theorem miscMessage_nand (stored : miscMessage (.nand flash) = some message) :
    ∃ ptn, flash.find "misc".toList = some ptn ∧
      message = fun i => flash.content ptn (flash.pageSize + i) := by
  obtain ⟨ptn, located, same⟩ := Option.map_eq_some_iff.mp stored
  exact ⟨ptn, located, same.symm⟩

theorem miscMessage_replace {ptn : Nat} (located : flash.find "misc".toList = some ptn)
    (other : Nat) (bytes : Nat → UInt8) :
    miscMessage (.nand (flash.replace other bytes)) =
      some fun i => (flash.replace other bytes).content ptn (flash.pageSize + i) := by
  have kept : partition (.nand (flash.replace other bytes)) "misc".toList = some ptn := located
  rw [miscMessage, kept, Option.map_some]
  rfl

theorem written_second_page (flash : Flash) (source : Nat → UInt8) {i : Nat}
    (inPage : i < flash.pageSize) :
    Platform.Nand.written flash 0 source (flash.pageSize * 2) (flash.pageSize + i) =
      source (flash.pageSize + i) := by
  have positive : 0 < flash.pageSize := Nat.lt_of_lt_of_le (by decide) flash.page_ge
  have page : (flash.pageSize + i) / flash.pageSize = 1 := by
    rw [Nat.add_div_left i positive, Nat.div_eq_of_lt inPage]
  have rest : (flash.pageSize + i) % flash.pageSize = i := by
    rw [Nat.add_mod_left, Nat.mod_eq_of_lt inPage]
  have count : flash.pageSize * 2 / (flash.pageSize + 0) = 2 := Nat.mul_div_cancel_left 2 positive
  rw [Platform.Nand.written, page, rest, count, if_pos (by decide), Nat.one_mul, Nat.add_zero]

section Radio

variable (nand : device.storage = .nand flash) (stored : miscMessage (.nand flash) = some message)
include nand stored

theorem writePartition_fota (source : Nat → UInt8) (bytes : Nat) (fault : Fault) :
    ∃ flash', (writePartition device flash "FOTA".toList source bytes fault).2.storage =
        .nand flash' ∧ flash'.pageSize = flash.pageSize ∧
      miscMessage (.nand flash') = some message := by
  obtain ⟨ptn, located, rfl⟩ := miscMessage_nand stored
  rw [writePartition]
  rcases fota : flash.find "FOTA".toList with _ | other
  · exact ⟨flash, nand, rfl, stored⟩
  · have apart : ptn ≠ other := flash.find_ne (by decide) located fota
    obtain ⟨bytes', replaced⟩ : ∃ bytes',
        (flashWrite flash other 0 source bytes fault).2 = flash.replace other bytes' := by
      cases fault with
      | none | some => exact ⟨_, rfl⟩
    refine ⟨flash.replace other bytes', congrArg _ replaced, rfl, ?_⟩
    rw [miscMessage_replace located, Flash.replace_content_other flash bytes' apart]

theorem setRecoveryMessage_stored {io : Io} (written : io.messageWrite = none)
    (data : Nat → UInt8) :
    ∃ left, miscMessage (setRecoveryMessage device flash data io).storage = some left ∧
      (left = message ∨ ∀ i < messageSize, i < flash.pageSize → left i = data i) := by
  obtain ⟨ptn, located, same⟩ := miscMessage_nand stored
  rw [setRecoveryMessage, located]
  dsimp only
  split
  · exact ⟨message, nand ▸ stored, Or.inl rfl⟩
  · generalize (flashRead flash ptn 0 device.scratch 0 (flash.pageSize * 2)
      io.messageReread).2 = pages
    rw [writePartition, located, written]
    refine ⟨_, miscMessage_replace located _ _, Or.inr fun i inside inPage => ?_⟩
    rw [Flash.replace_content_self, written_second_page flash _ inPage, splice, if_pos (by omega), Nat.add_sub_cancel_left]

theorem recoveryInit_radio (radio : messageCommand message = ascii "update-radio")
    (read : start.attempt.io.message = none) (written : start.attempt.io.messageWrite = none) :
    ∃ left, miscMessage (recoveryInit device flash start).storage = some left ∧
      (left = message ∨ messageCommand left = []) := by
  obtain ⟨ptn, located, rfl⟩ := miscMessage_nand stored
  have large := flash.page_ge
  have whole : (flash.pageSize + flash.pageSize - 1) / flash.pageSize * flash.pageSize =
      flash.pageSize := by
    rw [Nat.div_eq_of_lt_le (k := 1) (by omega) (by omega), Nat.one_mul]
  have bytes : flashRead flash ptn flash.pageSize (fun _ => 0) 0 flash.pageSize none =
      (false, splice (fun _ => 0) 0 flash.pageSize
        fun i => flash.content ptn (flash.pageSize + i)) := by
    rw [flashRead, Nat.mod_self, if_neg (by simp), whole]
  have command : messageCommand (putString (splice (fun _ => 0) 0 flash.pageSize
      fun i => flash.content ptn (flash.pageSize + i)) 31 []) = ascii "update-radio" := by
    rw [← radio]
    refine (messageCommand_terminated _).trans (messageCommand_congr fun i bound => ?_)
    rw [splice, if_pos (by omega), Nat.sub_zero]
  rw [recoveryInit, located, read]
  dsimp only
  rw [bytes]
  dsimp only
  rw [command, if_neg (by decide), if_neg (by decide), if_pos rfl]
  obtain ⟨flash', there, page, kept⟩ := writePartition_fota nand stored (ssdCookie start.stack)
    (roundToPage 8 (flash.pageSize - 1)) start.attempt.io.fota
  generalize writePartition device flash "FOTA".toList (ssdCookie start.stack)
    (roundToPage 8 (flash.pageSize - 1)) start.attempt.io.fota = update at there ⊢
  rw [there]
  generalize (if update.1 = true then ascii "failed-update" else []) = status
  obtain ⟨left, last, which⟩ := setRecoveryMessage_stored there kept written
    (putString (putString (putString (splice (fun _ => 0) 0 flash.pageSize
      fun i => flash.content ptn (flash.pageSize + i)) 31 []) 0 []) 32 status)
  refine ⟨left, last, which.imp id fun new => ?_⟩
  rw [messageCommand_eq_nil_iff, new 0 (by decide) (by omega), putString, splice,
    if_neg (by omega), putString_nil, if_pos rfl]

end Radio

/-- No radio update follows the flow: whatever the message holds besides its command, and
whatever becomes of the write to the FOTA partition, `boot-recovery` is not what is left. -/
theorem not_radioProtocol (nand : device.storage = .nand flash)
    (stored : miscMessage (.nand flash) = some message)
    (radio : messageCommand message = ascii "update-radio")
    (read : start.attempt.io.message = none) (written : start.attempt.io.messageWrite = none) :
    ¬ RadioProtocol device flash start message := by
  rintro ⟨⟨left, there, -, command, -⟩, -⟩
  obtain ⟨other, also, which⟩ := recoveryInit_radio nand stored radio read written
  rw [there] at also
  cases also
  rcases which with rfl | empty
  · rw [radio] at command
    revert command
    decide
  · rw [empty] at command
    revert command
    decide

end Nand

def commandFlash (command : String) : Flash where
  ptable := some ["misc".toList, "FOTA".toList]
  pageSize := 2048
  content := fun ptn i => if ptn = 0 ∧ 2048 ≤ i then commandMessage command (i - 2048) else 0xff
  page_ge := by decide

private theorem commandFlash_message (command : String) :
    miscMessage (.nand (commandFlash command)) = some (commandMessage command) := by
  have page : (commandFlash command).pageSize = 2048 := rfl
  refine congrArg some (funext fun i => ?_)
  dsimp only
  rw [page, commandFlash]
  dsimp only
  rw [if_pos ⟨rfl, by omega⟩, Nat.add_sub_cancel_left]

theorem radio_update_forgotten :
    let flash := commandFlash "update-radio"
    let after := recoveryInit (shipped (.nand flash)) flash plainStart
    let left := (miscMessage after.storage).map fun message =>
      (messageCommand message, messageStatus message)
    let again := match after.storage with
      | .nand flash => (recoveryInit (shipped after.storage) flash plainStart).bootIntoRecovery
      | .mmc _ => true
    (miscMessage (.nand flash)).map messageCommand = some (ascii "update-radio") ∧
      after.phase = .off ∧ left = some ([], []) ∧ again = false ∧
      ¬ RadioProtocol (shipped (.nand flash)) flash plainStart (commandMessage "update-radio") := by
  have left : (miscMessage (recoveryInit (shipped (.nand (commandFlash "update-radio")))
      (commandFlash "update-radio") plainStart).storage).map messageCommand = some [] := by
    decide +kernel
  refine ⟨by decide +kernel, by decide +kernel, by decide +kernel, by decide +kernel, ?_⟩
  rintro ⟨⟨message, there, -, command, -⟩, -⟩
  rw [there, Option.map_some, command] at left
  revert left
  decide

theorem not_radioProtocol_good :
    ¬ RadioProtocol (shipped (.nand (commandFlash "update-radio"))) (commandFlash "update-radio")
      plainStart (commandMessage "update-radio") :=
  not_radioProtocol rfl (commandFlash_message _) (by decide) rfl rfl

end AndroidBoot.Aboot.RecoveryMessage
