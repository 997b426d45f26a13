/- source: bootable/lk/app/aboot/aboot.c
   digest: Which fastboot commands leave a locked device locked. -/

import AndroidBoot.Aboot.BootBounds
import AndroidBoot.Aboot.SparseBounds

/-!
On eMMC the record with `is_unlocked` is in the last block of the partition `aboot`, which the
commands that flash and erase may write like any other. What `write_partition` does, and what
a kernel does to the storage, comes from outside.
-/

set_option autoImplicit false

namespace AndroidBoot.Aboot.UnlockSafety

open Foundation.Memory Foundation.Run Platform.Mmc
open Fastboot (Text)
open SparseFlash SparseBounds DeviceInfo FlashCommands BootFlow
open BootBounds (rewritten_isMmc saveInfo_framed)
open VerifiedBoot (attemptMeets bootFromStorage_rule fastbootStart loadImage_rule loadsClear
  lockedStorage openHeader_eq strictTarget)

def unlocked (storage : Storage) : Bool := storage.stored.any fun info => info.isUnlocked ≠ 0

def OnRecord (emmc : Emmc) (a : Nat) : Prop :=
  ∃ addr, emmc.infoAddress = some addr ∧ (emmc.card []).address addr ≤ a ∧
    a < (emmc.card []).address addr + infoSize

/-- A flash command writes no byte of the record. A new partition table may place the record
elsewhere, but not where an unlocked one is found. -/
def FlashSpares (emmc : Emmc) (ram : Nat → UInt8) (arg : Text) (sz : Nat) (env : FlashEnv) :
    Prop :=
  match if isSecure ram then env.secured else some (ram, sz) with
  | none => True
  | some (ram, sz) =>
    let ptn := partitionGetOffset emmc.entries (partitionGetIndex emmc.entries arg)
    if le32 ram 0 = sparseHeaderMagic then
      ∀ a, Touches (emmc.card []) ptn (imageWrites ram) a → ¬ OnRecord emmc a
    else if arg = "partition".toList then unlocked (.mmc env.partitioned.2) = false
    else ∀ a, (emmc.card []).Covers ptn (padded sz) a → ¬ OnRecord emmc a

/-- Commands that do not unlock: other ones than `oem unlock`, with flash commands that spare
the record, transfers that succeed where they write the record or erase, and images that are loaded
over nothing else. -/
def Spares (target : Target) (device : Device) : Label → Prop
  | .powerOn _ _ => False
  | .oemUnlock _ => False
  | .flash arg env =>
    ∀ emmc, device.storage = .mmc emmc →
      FlashSpares emmc device.scratch arg device.downloadSize env
  | .erase _ env => ∀ fault ∈ env.faults, fault = none
  | .boot _ => bootClear target device = true
  | .continue attempt => attempt.io.tamper = none ∧ device.pageSize ≤ bufSize ∧
    attemptMeets device attempt (loadsClear target) = true
  | _ => True

structure Locked (device : Device) : Prop where
  mmc : device.storage.isMmc = true
  ram : device.info.isUnlocked = 0
  stored : unlocked device.storage = false

theorem unlocked_congr {one other : Storage} (same : one.recordBytes = other.recordBytes) :
    unlocked one = unlocked other := by
  rw [unlocked, Storage.stored, same, unlocked, Storage.stored]

theorem Storage.paged_of_mmc {storage : Storage} (mmc : storage.isMmc = true) (pageSize : Nat) :
    storage.Paged pageSize := by
  rintro flash rfl
  cases mmc

section Record

variable {emmc : Emmc}

theorem recordBytes_eq (emmc : Emmc) : (Storage.mmc emmc).recordBytes =
    emmc.infoAddress.map fun addr => bytesAt emmc.content ((emmc.card []).address addr) infoSize := by
  rw [Storage.recordBytes, Storage.record, Option.map_map]
  refine congrArg (fun f => Option.map f emmc.infoAddress) (funext fun addr => ?_)
  refine List.map_congr_left fun i _ => ?_
  rw [Nat.zero_add]

theorem recordBytes_of_apart {content : Nat → UInt8}
    (same : ∀ a, OnRecord emmc a → content a = emmc.content a) :
    (Storage.mmc { emmc with content := content }).recordBytes =
      (Storage.mmc emmc).recordBytes := by
  rw [recordBytes_eq, recordBytes_eq]
  show Option.map _ emmc.infoAddress = _
  rcases located : emmc.infoAddress with _ | addr
  · rfl
  · refine congrArg some (bytesAt_congr fun i bound => ?_)
    exact same _ ⟨addr, located, Nat.le_add_right _ _, Nat.add_lt_add_left bound _⟩

theorem unlocked_of_stays {region : Nat → Prop} {result : Card} {faults : List Fault}
    (stays : Stays (emmc.card faults) region result)
    (apart : ∀ a, region a → ¬ OnRecord emmc a) :
    unlocked (.mmc { emmc with content := result.content }) = unlocked (.mmc emmc) := by
  refine unlocked_congr (recordBytes_of_apart fun a here => ?_)
  exact stays.outside a fun within => apart a within here

theorem bytesAt_eq_iff (memory : Nat → UInt8) (start : Nat) (cells : List UInt8) :
    bytesAt memory start cells.length = cells ↔
      ∀ i < cells.length, memory (start + i) = cells.getD i 0 := by
  unfold bytesAt
  constructor
  · intro same i bound
    rw [← same]
    simp [bound]
  · intro same
    refine List.ext_getElem (by simp) fun i _ bound => ?_
    have here := same i bound
    rw [List.getD_eq_getElem?_getD, List.getElem?_eq_getElem bound] at here
    simpa using here

theorem unlocked_iff : unlocked (.mmc emmc) = true ↔ ∃ addr, emmc.infoAddress = some addr ∧
    (∀ i < deviceMagicSize, emmc.content ((emmc.card []).address addr + i) = deviceMagic.getD i 0) ∧
    le32 emmc.content ((emmc.card []).address addr + 16) ≠ 0 := by
  have magic (start : Nat) : (bytesAt emmc.content start infoSize).take deviceMagicSize =
      deviceMagic ↔ ∀ i < deviceMagicSize, emmc.content (start + i) = deviceMagic.getD i 0 :=
    bytesAt_eq_iff emmc.content start deviceMagic
  have flag (start : Nat) :
      (Info.read fun i => (bytesAt emmc.content start infoSize).getD i 0).isUnlocked ≠ 0 ↔
        le32 emmc.content (start + 16) ≠ 0 := by
    have word : (Info.read fun i => (bytesAt emmc.content start infoSize).getD i 0).isUnlocked =
        UInt32.ofNat (le32 emmc.content (start + 16)) := rfl
    rw [word, ne_eq, ne_eq, ← UInt32.toNat_inj,
      UInt32.toNat_ofNat_of_lt' (le32_lt emmc.content (start + 16))]
    rfl
  rw [unlocked, Storage.stored, recordBytes_eq]
  rcases located : emmc.infoAddress with _ | addr
  · simp
  · rw [Option.map_some, Option.bind_some]
    by_cases whole : (bytesAt emmc.content ((emmc.card []).address addr) infoSize).take
        deviceMagicSize = deviceMagic
    · rw [if_pos whole, Option.any_some, decide_eq_true_eq, flag]
      constructor
      · intro set
        exact ⟨addr, rfl, (magic _).mp whole, set⟩
      · rintro ⟨_, ⟨⟩, -, set⟩
        exact set
    · rw [if_neg whole]
      constructor
      · intro set
        cases set
      · rintro ⟨_, ⟨⟩, here, -⟩
        exact absurd ((magic _).mpr here) whole

theorem unlocked_of_zeroes {content : Nat → UInt8}
    (zeroed : ∀ a, content a = emmc.content a ∨ content a = 0)
    (locked : unlocked (.mmc emmc) = false) :
    unlocked (.mmc { emmc with content := content }) = false := by
  rw [Bool.eq_false_iff] at locked ⊢
  refine fun now => locked (unlocked_iff.mpr ?_)
  obtain ⟨addr, located, magic, set⟩ := unlocked_iff.mp now
  have kept (a : Nat) (filled : content a ≠ 0) : content a = emmc.content a :=
    (zeroed a).resolve_right filled
  refine ⟨addr, located, fun i bound => ?_, ?_⟩
  · have solid : ∀ i < deviceMagicSize, deviceMagic.getD i 0 ≠ 0 := by decide
    have here := magic i bound
    exact (kept _ (fun zero => solid i bound (here.symm.trans zero))).symm.trans here
  · intro zero
    refine set (le32_eq_zero_iff.mpr fun i bound => ?_)
    by_contra filled
    exact filled ((kept _ filled).trans (le32_eq_zero_iff.mp zero i bound))

end Record

section Commands

variable {emmc : Emmc}

variable {ram : Nat → UInt8} {arg : Text}

theorem cmdFlashMmcImg_unlocked {sz : Nat} (faults : List Fault)
    (partitioned : Bool × Emmc) (locked : unlocked (.mmc emmc) = false)
    (table : arg = "partition".toList → unlocked (.mmc partitioned.2) = false)
    (apart : arg ≠ "partition".toList → ∀ a, (emmc.card []).Covers
      (partitionGetOffset emmc.entries (partitionGetIndex emmc.entries arg)) (padded sz) a →
        ¬ OnRecord emmc a) :
    unlocked (.mmc (cmdFlashMmcImg emmc ram arg sz faults partitioned).2) = false := by
  unfold cmdFlashMmcImg
  by_cases named : arg = "partition".toList
  · rw [if_pos named]
    split <;> exact table named
  · rw [if_neg named]
    dsimp only
    have stays := mmcWrite_stays (emmc.card faults)
      (partitionGetOffset emmc.entries (partitionGetIndex emmc.entries arg)) sz ram
    have kept := (unlocked_of_stays stays (apart named)).trans locked
    split
    · exact locked
    · split
      · exact locked
      · split
        · exact locked
        · split <;> exact kept

theorem cmdFlashMmcSparseImg_unlocked {sz : Nat}
    (faults : List Fault) (locked : unlocked (.mmc emmc) = false)
    (apart : ∀ a, Touches (emmc.card [])
      (partitionGetOffset emmc.entries (partitionGetIndex emmc.entries arg)) (imageWrites ram) a →
        ¬ OnRecord emmc a) :
    unlocked (.mmc { emmc with content :=
      (cmdFlashMmcSparseImg emmc.entries (emmc.card faults) ram arg sz).2.content }) = false := by
  by_cases accepted : Accepted emmc.entries arg sz
  · rw [cmdFlashMmcSparseImg_accepted _ _ accepted]
    have stays := sparseChunks_stays ram
      (partitionGetOffset emmc.entries (partitionGetIndex emmc.entries arg))
      (readSparseHeader ram 0) (emmc.card faults) (readSparseHeader ram 0).totalChunks
      (skipHeader (readSparseHeader ram 0).fileHdrSz sparseHeaderSize
        (readSparseHeader ram 0).fileHdrSz) 0
    exact (unlocked_of_stays stays apart).trans locked
  · obtain ⟨reason, refused⟩ := cmdFlashMmcSparseImg_refused accepted
    rw [refused]
    exact locked

theorem cmdFlashMmc_unlocked {sz : Nat} {env : FlashEnv}
    (locked : unlocked (.mmc emmc) = false) (spares : FlashSpares emmc ram arg sz env) :
    unlocked (.mmc (cmdFlashMmc emmc ram arg sz env.faults env.partitioned env.secured).2) =
      false := by
  unfold FlashSpares at spares
  unfold cmdFlashMmc
  generalize (if isSecure ram then env.secured else some (ram, sz)) = image at spares ⊢
  rcases image with _ | ⟨ram, sz⟩
  · exact locked
  · dsimp only at spares ⊢
    by_cases sparse : le32 ram 0 = sparseHeaderMagic
    · rw [if_pos sparse] at spares
      rw [if_neg (not_not.mpr sparse)]
      exact cmdFlashMmcSparseImg_unlocked env.faults locked spares
    · rw [if_neg sparse] at spares
      rw [if_pos sparse]
      refine cmdFlashMmcImg_unlocked env.faults env.partitioned locked ?_ ?_
      · intro named
        rwa [if_pos named] at spares
      · intro named
        rwa [if_neg named] at spares

theorem cmdEraseMmc_unlocked {faults : List Fault}
    (sure : ∀ fault ∈ faults, fault = none) (locked : unlocked (.mmc emmc) = false) :
    unlocked (.mmc (cmdEraseMmc emmc arg faults).2) = false := by
  unfold cmdEraseMmc
  dsimp only
  generalize partitionGetOffset emmc.entries (partitionGetIndex emmc.entries arg) = ptn
  have zeroed : unlocked (.mmc { emmc with content :=
      (mmcWrite (emmc.card faults) ptn eraseSize fun _ => 0).2.content }) = false := by
    refine unlocked_of_zeroes (fun a => ?_) locked
    rw [mmcWrite_short _ _ _ (by decide) (by decide) (by decide)]
    have written : (mmcBootWriteToCard (emmc.card faults) (ptn % 2 ^ 64) eraseSize
        fun _ => 0).2.content =
          splice emmc.content ((emmc.card faults).address (ptn % 2 ^ 64)) eraseSize fun _ => 0 := by
      rcases faults with _ | ⟨fault, rest⟩
      · rfl
      · obtain rfl := sure fault List.mem_cons_self
        rfl
    rw [written, splice]
    split
    · exact Or.inr rfl
    · exact Or.inl rfl
  split
  · exact locked
  · split <;> exact zeroed

end Commands

section Device

variable {device : Device}

section Locked

variable (locked : Locked device)
include locked

theorem Locked.rewrite {storage : Storage}
    (kind : storage.isMmc = device.storage.isMmc) (record : unlocked storage = false) :
    Locked { device with storage := storage } :=
  ⟨kind.trans locked.mmc, locked.ram, record⟩

theorem Locked.saveInfo : Locked (saveInfo device none) := by
  refine ⟨(saveInfo_framed device none).kind.trans locked.mmc, locked.ram, ?_⟩
  show unlocked (writeDeviceInfo _ _ _ _ _).1 = false
  rcases found : device.storage.record with _ | memory
  · rw [writeDeviceInfo, found]
    exact locked.stored
  · have paged := Storage.paged_of_mmc locked.mmc device.pageSize
    rw [unlocked, writeDeviceInfo_stored paged _ _ (by rw [found]; rfl)]
    simp [locked.ram]

variable (target : Target)

theorem Locked.runImage (hdr : BootImgHdr) : Locked (runImage device hdr none) := by
  unfold BootFlow.runImage
  dsimp only
  split
  · exact { locked.saveInfo with }
  · exact { locked with }

theorem Locked.judge (size : Nat) (unread : Bool) : Locked (judge target device size unread) := by
  unfold BootFlow.judge
  dsimp only
  split
  · exact { locked with }
  · exact locked

theorem Locked.loadImage {hdr : BootImgHdr} {attempt : Attempt}
    (clear : loadsClear target device hdr = true) (sure : attempt.io.tamper = none) (ptn : Nat) :
    Locked (loadImage target device ptn hdr attempt) := by
  refine loadImage_rule clear locked (fun _ _ => { locked with }) fun _ _ scratch =>
    ⟨fun _ => { locked with }, fun unread => ?_⟩
  rw [sure]
  refine Locked.runImage (Locked.judge ?_ target _ unread) hdr
  exact { locked with }

theorem Locked.adoptPageSize (hdr : BootImgHdr) : Locked (adoptPageSize device hdr) := by
  unfold BootFlow.adoptPageSize
  split
  · exact { locked with }
  · exact locked

theorem Locked.bootFromStorage {attempt : Attempt} (sure : attempt.io.tamper = none)
    (fits : device.pageSize ≤ bufSize)
    (clear : attemptMeets device attempt (loadsClear target) = true) :
    Locked (bootFromStorage target device attempt) := by
  have opened (ptn : Nat) : Locked (openHeader device ptn attempt.io).1 := by
    obtain ⟨pageSize, same, -⟩ := openHeader_eq device ptn attempt.io
    rw [same]
    exact { locked with }
  exact bootFromStorage_rule fits clear (fun _ _ => { locked with }) locked
    (fun ptn _ => opened ptn) fun ptn hdr _ clear => (opened ptn).loadImage target clear sure ptn

theorem Locked.cmdBoot : Locked (cmdBoot device) := by
  have adopted := locked.adoptPageSize (readHdr device.scratch)
  unfold BootFlow.cmdBoot
  dsimp only
  rw [if_pos locked.mmc]
  split
  · exact locked
  · split
    · exact adopted
    · exact { adopted with }

theorem Locked.command {label : Label}
    (spares : Spares target device label) : Locked (command target device label) := by
  obtain ⟨emmc, kind⟩ : ∃ emmc, device.storage = .mmc emmc := by
    cases kind : device.storage with
    | mmc emmc => exact ⟨emmc, rfl⟩
    | nand flash =>
      have mmc := locked.mmc
      rw [kind] at mmc
      cases mmc
  have record : unlocked (.mmc emmc) = false := kind ▸ locked.stored
  cases label with
  | powerOn | oemUnlock => exact spares.elim
  | download | reboot => exact { locked with }
  | boot overwritten =>
    have clear : bootClear target device = true := spares
    simp only [BootFlow.command, clear, Bool.true_eq_false, and_false, if_false]
    exact locked.cmdBoot
  | flash arg env =>
    refine locked.rewrite (rewritten_isMmc device arg env).1 ?_
    rw [flashed, kind]
    exact cmdFlashMmc_unlocked record (spares emmc kind)
  | erase arg env =>
    refine locked.rewrite (rewritten_isMmc device arg env).2 ?_
    rw [erased, kind]
    exact cmdEraseMmc_unlocked spares record
  | «continue» attempt => exact locked.bootFromStorage target spares.1 spares.2.1 spares.2.2
  | oemDeviceInfo => exact locked

theorem Locked.step {target : Target} {label : Label} {next : Device}
    (spares : Spares target device label) (taken : step target device label = some next) :
    Locked next := by
  cases label with
  | powerOn written start => exact spares.elim
  | _ =>
    simp only [BootFlow.step] at taken
    split at taken
    · cases taken
      exact locked.command target spares
    · cases taken

end Locked

end Device

theorem readDeviceInfo_of_stored {storage : Storage} (mmc : storage.isMmc = true) {info : Info}
    (stored : storage.stored = some info) (pageSize : Nat) (infoBuf : Nat → UInt8) (old : Info)
    (writeFault : Fault) :
    (readDeviceInfo storage pageSize infoBuf old none writeFault).2.2 = info := by
  have paged := Storage.paged_of_mmc mmc pageSize
  rw [Storage.stored, Storage.recordBytes] at stored
  rcases located : storage.record with _ | memory
  · rw [located] at stored
    cases stored
  · rw [located, Option.map_some, Option.bind_some] at stored
    have read : (storage.getRecord pageSize infoBuf none).1 = false := by
      rcases storage with emmc | flash
      · obtain ⟨addr, found, -⟩ := Option.map_eq_some_iff.mp located
        rw [Storage.getRecord, found]
        rfl
      · cases mmc
    have same : bytesAt (storage.getRecord pageSize infoBuf none).2 0 infoSize =
        bytesAt memory 0 infoSize := by
      refine bytesAt_congr fun i bound => ?_
      rw [Nat.zero_add]
      exact getRecord_read paged located read i bound
    rw [← same] at stored
    split at stored
    · rename_i magic
      have whole : bytesAt (storage.getRecord pageSize infoBuf none).2 0 deviceMagicSize =
          deviceMagic := magic
      simp only [readDeviceInfo, located, read, Bool.false_eq_true, if_false, whole, ne_eq,
        not_true_eq_false]
      exact Option.some.inj stored
    · cases stored

/-- The image of the partition `aboot` with an unlocked record in its last block. -/
def plantedImage : Nat → UInt8 := splice (fun _ => 0) 512 infoSize fun i =>
  (Info.bytes { Info.clear with isUnlocked := 1 }).getD i 0

def calm : FlashEnv where
  faults := []
  partitioned := (false, ⟨true, [], fun _ => 0⟩)
  secured := none
  bch := false
  fault := none

end AndroidBoot.Aboot.UnlockSafety
