/- source: bootable/lk/app/aboot/aboot.c, devinfo.h
   digest: The device record and its copies on eMMC and on flash. -/

import AndroidBoot.Platform.Nand

set_option autoImplicit false

namespace AndroidBoot.Aboot.DeviceInfo

open Foundation.Memory Platform.Mmc Platform.Nand

def ascii (text : String) : List UInt8 := text.toList.map fun c => UInt8.ofNat c.toNat

def bytesAt (memory : Nat → UInt8) (start len : Nat) : List UInt8 :=
  (List.range len).map fun i => memory (start + i)

/-- The card with its partition table; the transfers are given call by call. -/
structure Emmc where
  highCapacity : Bool
  entries : List PartitionEntry
  content : Nat → UInt8

def Emmc.card (emmc : Emmc) (faults : List Fault) : Card :=
  ⟨emmc.highCapacity, emmc.content, faults⟩

inductive Storage where
  | mmc (emmc : Emmc)
  | nand (flash : Flash)

def Storage.isMmc : Storage → Bool
  | .mmc _ => true
  | .nand _ => false

def deviceMagic : List UInt8 := ascii "ANDROID-BOOT!"

def deviceMagicSize : Nat := 13

/-- `struct device_info` behind its magic, which is always `DEVICE_MAGIC` in RAM. A flag is an
`int`, as `bool` is one, and set unless it is zero; three bytes align the first. -/
structure Info where
  padding : UInt8 × UInt8 × UInt8
  isUnlocked : UInt32
  isTampered : UInt32
  deriving DecidableEq, Repr

def Info.clear : Info := ⟨(0, 0, 0), 0, 0⟩

def Info.flagged (info : Info) : Bool := info.isUnlocked ≠ 0 || info.isTampered ≠ 0

def Info.bytes (info : Info) : List UInt8 :=
  deviceMagic ++ [info.padding.1, info.padding.2.1, info.padding.2.2] ++
    toLe32 info.isUnlocked.toNat ++ toLe32 info.isTampered.toNat

def infoSize : Nat := 24

def Info.read (memory : Nat → UInt8) : Info where
  padding := (memory 13, memory 14, memory 15)
  isUnlocked := UInt32.ofNat (le32 memory 16)
  isTampered := UInt32.ofNat (le32 memory 20)

/-- `memcpy` of a record to the start of a buffer. -/
def putInfo (buffer : Nat → UInt8) (info : Info) : Nat → UInt8 :=
  splice buffer 0 infoSize fun i => info.bytes.getD i 0

/-- Where `write_device_info_mmc` and `read_device_info_mmc` find the record: the last
block of the partition `aboot`. -/
def Emmc.infoAddress (emmc : Emmc) : Option Nat :=
  let index := partitionGetIndex emmc.entries "aboot".toList
  let ptn := partitionGetOffset emmc.entries index
  if ptn = 0 then none
  else some ((ptn + partitionGetSize emmc.entries index + 2 ^ 64 - 512) % 2 ^ 64)

def Storage.record : Storage → Option (Nat → UInt8)
  | .mmc emmc =>
    emmc.infoAddress.map fun addr i => emmc.content ((emmc.card []).address addr + i)
  | .nand flash => (flash.find "devinfo".toList).map fun ptn => flash.content ptn

def Storage.recordBytes (storage : Storage) : Option (List UInt8) :=
  storage.record.map fun memory => bytesAt memory 0 infoSize

def Storage.stored (storage : Storage) : Option Info :=
  storage.recordBytes.bind fun bytes =>
    if bytes.take deviceMagicSize = deviceMagic then some (Info.read fun i => bytes.getD i 0)
    else none

def Storage.flagged (storage : Storage) : Bool := (storage.stored.map Info.flagged).getD false

/-- A read of `len` bytes of a partition: `mmc_read` with the offset of the partition on
the card, or `flash_read` with its number. -/
def Storage.read (storage : Storage) (ptn offset len : Nat) (buffer : Nat → UInt8) (start : Nat)
    (fault : Fault) : Bool × (Nat → UInt8) :=
  match storage with
  | .mmc emmc =>
    let read := mmcRead (emmc.card [fault]) ((ptn + offset) % 2 ^ 64) buffer start len
    (read.1, read.2.1)
  | .nand flash => flashRead flash ptn offset buffer start len fault

def Storage.putRecord (storage : Storage) (pageSize : Nat) (source : Nat → UInt8)
    (fault : Fault) : Storage :=
  match storage with
  | .mmc emmc =>
    match emmc.infoAddress with
    | none => storage
    | some addr =>
      .mmc { emmc with content := (mmcWrite (emmc.card [fault]) addr 512 source).2.content }
  | .nand flash =>
    match flash.find "devinfo".toList with
    | none => storage
    | some ptn => .nand (flashWrite flash ptn 0 source pageSize fault).2

def Storage.getRecord (storage : Storage) (pageSize : Nat) (buffer : Nat → UInt8)
    (fault : Fault) : Bool × (Nat → UInt8) :=
  match storage with
  | .mmc emmc =>
    match emmc.infoAddress with
    | none => (true, buffer)
    | some addr =>
      let read := mmcRead (emmc.card [fault]) addr buffer 0 512
      (read.1, read.2.1)
  | .nand flash =>
    match flash.find "devinfo".toList with
    | none => (true, buffer)
    | some ptn => flashRead flash ptn 0 buffer 0 pageSize fault

/-- `write_device_info`: `write_device_info_mmc` and `write_device_info_flash` differ only
in their transfer. The result has `info_buf` with it. -/
def writeDeviceInfo (storage : Storage) (pageSize : Nat) (infoBuf : Nat → UInt8) (info : Info)
    (fault : Fault) : Storage × (Nat → UInt8) :=
  match storage.record with
  | none => (storage, infoBuf)
  | some _ =>
    let infoBuf := putInfo infoBuf info
    (storage.putRecord pageSize infoBuf fault, infoBuf)

/-- `read_device_info`: `read_device_info_mmc` and `read_device_info_flash` differ only in
their transfer. A block without the magic becomes a fresh record. -/
def readDeviceInfo (storage : Storage) (pageSize : Nat) (infoBuf : Nat → UInt8) (info : Info)
    (readFault writeFault : Fault) : Storage × (Nat → UInt8) × Info :=
  match storage.record with
  | none => (storage, infoBuf, info)
  | some _ =>
    let read := storage.getRecord pageSize infoBuf readFault
    if read.1 then (storage, read.2, info)
    else if bytesAt read.2 0 deviceMagicSize ≠ deviceMagic then
      let fresh := { Info.read read.2 with isUnlocked := 0, isTampered := 0 }
      let written := writeDeviceInfo storage pageSize (putInfo read.2 fresh) fresh writeFault
      (written.1, written.2, fresh)
    else (storage, read.2, Info.read read.2)

def Storage.Paged (storage : Storage) (pageSize : Nat) : Prop :=
  ∀ flash, storage = .nand flash → pageSize = flash.pageSize

variable {storage : Storage} {pageSize : Nat}

theorem bytesAt_congr {one other : Nat → UInt8} {start len : Nat}
    (same : ∀ i < len, one (start + i) = other (start + i)) :
    bytesAt one start len = bytesAt other start len := by
  refine List.map_congr_left fun i member => ?_
  exact same i (List.mem_range.mp member)

theorem bytesAt_putInfo (buffer : Nat → UInt8) (info : Info) :
    bytesAt (putInfo buffer info) 0 infoSize = info.bytes := rfl

private theorem infoAddress_mod {emmc : Emmc} {addr : Nat} (located : emmc.infoAddress = some addr) :
    addr % 2 ^ 64 = addr := by
  simp only [Emmc.infoAddress] at located
  split at located
  · cases located
  · have this := Option.some.inj located
    omega

theorem infoAddress_dvd {emmc : Emmc} {addr : Nat} (located : emmc.infoAddress = some addr) :
    blockSize ∣ addr := by
  simp only [Emmc.infoAddress] at located
  split at located
  · cases located
  · have address := Option.some.inj located
    rw [← address]
    have range : blockSize ∣ 2 ^ 64 := ⟨2 ^ 55, rfl⟩
    refine (Nat.dvd_mod_iff range).mpr ?_
    have ptn := partitionGetOffset_dvd emmc.entries (partitionGetIndex emmc.entries "aboot".toList)
    have size := partitionGetSize_dvd emmc.entries (partitionGetIndex emmc.entries "aboot".toList)
    unfold blockSize at ptn size ⊢
    omega

private theorem splice_inside (memory source : Nat → UInt8) {start len i : Nat} (bound : i < len) :
    splice memory start len source (start + i) = source i := by
  rw [splice, if_pos (by omega), Nat.add_sub_cancel_left]

theorem Info.read_bytes (info : Info) : Info.read (fun i => info.bytes.getD i 0) = info := by
  have word {memory : Nat → UInt8} {start : Nat} {flag : UInt32}
      (same : Agrees memory start (toLe32 flag.toNat)) : UInt32.ofNat (le32 memory start) = flag := by
    rw [le32_of_agrees same flag.toNat_lt, UInt32.ofNat_toNat]
  have unlocked : Agrees (fun i => info.bytes.getD i 0) 16 (toLe32 info.isUnlocked.toNat) := by
    intro i bound
    rcases i with _ | _ | _ | _ | i
    iterate 4 rfl
    rw [length_toLe32] at bound
    omega
  have tampered : Agrees (fun i => info.bytes.getD i 0) 20 (toLe32 info.isTampered.toNat) := by
    intro i bound
    rcases i with _ | _ | _ | _ | i
    iterate 4 rfl
    rw [length_toLe32] at bound
    omega
  rw [Info.read, word unlocked, word tampered]
  rfl

theorem stored_of_recordBytes {info : Info} (bytes : storage.recordBytes = some info.bytes) :
    storage.stored = some info := by
  have magic : info.bytes.take deviceMagicSize = deviceMagic := rfl
  rw [Storage.stored, bytes, Option.bind_some, if_pos magic, Info.read_bytes]

theorem flagged_congr {one other : Storage} (same : one.recordBytes = other.recordBytes) :
    one.flagged = other.flagged := by
  rw [Storage.flagged, Storage.stored, same, Storage.flagged, Storage.stored]

theorem writeDeviceInfo_mmc (emmc : Emmc) (pageSize : Nat) (infoBuf : Nat → UInt8) (info : Info)
    (fault : Fault) : ∃ content,
      (writeDeviceInfo (.mmc emmc) pageSize infoBuf info fault).1 =
        .mmc { emmc with content := content } := by
  simp only [writeDeviceInfo, Storage.putRecord]
  split
  · exact ⟨emmc.content, rfl⟩
  · split
    · exact ⟨emmc.content, rfl⟩
    · exact ⟨_, rfl⟩

theorem flashWrite_pageSize (flash : Flash) (ptn extra : Nat) (source : Nat → UInt8) (bytes : Nat)
    (fault : Fault) : (flashWrite flash ptn extra source bytes fault).2.pageSize = flash.pageSize := by
  cases fault <;> rfl

section Paged

variable (paged : storage.Paged pageSize)
include paged

theorem putRecord_record {memory : Nat → UInt8} (found : storage.record = some memory) (source : Nat → UInt8) :
    ∃ after, (storage.putRecord pageSize source none).record = some after ∧
      ∀ i < infoSize, after i = source i := by
  rcases storage with emmc | flash
  · obtain ⟨addr, located, -⟩ := Option.map_eq_some_iff.mp found
    have block : (mmcWrite (emmc.card [none]) addr 512 source).2.content =
        splice emmc.content ((emmc.card []).address addr) 512 source := by
      rw [mmcWrite_short _ _ _ rfl (by decide) (by decide), infoAddress_mod located]
      rfl
    refine ⟨fun i => splice emmc.content ((emmc.card []).address addr) 512 source
      ((emmc.card []).address addr + i), ?_, fun i bound => ?_⟩
    · simp only [Storage.putRecord, located, block]
      show Option.map _ emmc.infoAddress = _
      rw [located]
      rfl
    · exact splice_inside _ _ (Nat.lt_trans bound (by decide))
  · obtain ⟨ptn, located, -⟩ := Option.map_eq_some_iff.mp found
    have page : pageSize = flash.pageSize := paged flash rfl
    refine ⟨written flash 0 source pageSize, ?_, fun i bound => ?_⟩
    · simp only [Storage.putRecord, located, flashWrite, Storage.record, Flash.replace_find,
        Option.map_some, Flash.replace_content_self]
    · have inPage : i < flash.pageSize := by
        have := flash.page_ge
        unfold infoSize at bound
        omega
      have whole : flash.pageSize / (flash.pageSize + 0) = 1 := Nat.div_self (by omega)
      simp only [written, page, Nat.div_eq_of_lt inPage, whole, Nat.mod_eq_of_lt inPage]
      simp

theorem getRecord_read {memory buffer : Nat → UInt8} {fault : Fault}
    (found : storage.record = some memory)
    (read : (storage.getRecord pageSize buffer fault).1 = false) :
    ∀ i < infoSize, (storage.getRecord pageSize buffer fault).2 i = memory i := by
  intro i bound
  rcases storage with emmc | flash
  · obtain ⟨addr, located, rfl⟩ := Option.map_eq_some_iff.mp found
    simp only [Storage.getRecord, located] at read ⊢
    rcases fault with _ | debris
    · have inBlock : i < 512 := Nat.lt_trans bound (by decide)
      have here : splice buffer 0 512 _ (0 + i) = _ := splice_inside buffer
        (fun i => emmc.content ((emmc.card [none]).address addr + i)) inBlock
      rwa [Nat.zero_add] at here
    · cases read
  · obtain ⟨ptn, located, rfl⟩ := Option.map_eq_some_iff.mp found
    have page : pageSize = flash.pageSize := paged flash rfl
    have large := flash.page_ge
    have whole : (pageSize + flash.pageSize - 1) / flash.pageSize * flash.pageSize =
        flash.pageSize := by
      have count : (pageSize + flash.pageSize - 1) / flash.pageSize = 1 := by
        exact Nat.div_eq_of_lt_le (by omega) (by omega)
      rw [count, Nat.one_mul]
    simp only [Storage.getRecord, located, flashRead, Nat.zero_mod, whole] at read ⊢
    rcases fault with _ | debris
    · have inPage : i < flash.pageSize := by
        unfold infoSize at bound
        omega
      have here : splice buffer 0 flash.pageSize _ (0 + i) = _ :=
        splice_inside buffer (fun i => flash.content ptn (0 + i)) inPage
      simpa using here
    · cases read

variable (infoBuf : Nat → UInt8) (info : Info)

theorem writeDeviceInfo_stored (found : storage.record.isSome = true) :
    (writeDeviceInfo storage pageSize infoBuf info none).1.stored = some info := by
  obtain ⟨memory, located⟩ := Option.isSome_iff_exists.mp found
  obtain ⟨after, there, same⟩ := putRecord_record paged located (putInfo infoBuf info)
  apply stored_of_recordBytes
  rw [writeDeviceInfo, located, Storage.recordBytes, there, Option.map_some,
    bytesAt_congr (by simpa using same), bytesAt_putInfo]

theorem writeDeviceInfo_flagged (found : storage.record.isSome = true) :
    (writeDeviceInfo storage pageSize infoBuf info none).1.flagged = info.flagged := by
  rw [Storage.flagged, writeDeviceInfo_stored paged infoBuf info found]
  rfl

theorem readDeviceInfo_cases (readFault writeFault : Fault) :
    (readDeviceInfo storage pageSize infoBuf info readFault writeFault).2.2 = info ∨
    ((readDeviceInfo storage pageSize infoBuf info readFault writeFault).2.2.isUnlocked = 0 ∧
      (readDeviceInfo storage pageSize infoBuf info readFault writeFault).2.2.isTampered = 0) ∨
    ((readDeviceInfo storage pageSize infoBuf info readFault writeFault).1 = storage ∧
      storage.stored =
        some (readDeviceInfo storage pageSize infoBuf info readFault writeFault).2.2) := by
  rcases located : storage.record with _ | memory
  · left
    simp only [readDeviceInfo, located]
  · simp only [readDeviceInfo, located]
    split
    · exact Or.inl rfl
    · rename_i read
      split
      · exact Or.inr (Or.inl ⟨rfl, rfl⟩)
      · rename_i magic
        have same := getRecord_read paged located (by simpa using read)
        have stored : storage.recordBytes =
            some (bytesAt (storage.getRecord pageSize infoBuf readFault).2 0 infoSize) := by
          rw [Storage.recordBytes, located, Option.map_some,
            bytesAt_congr (by simpa using fun i bound => (same i bound).symm)]
        have whole : (bytesAt (storage.getRecord pageSize infoBuf readFault).2 0 infoSize).take
            deviceMagicSize = deviceMagic := not_not.mp magic
        refine Or.inr (Or.inr ⟨rfl, ?_⟩)
        rw [Storage.stored, stored, Option.bind_some, if_pos whole]
        rfl

theorem readDeviceInfo_flagged {infoBuf : Nat → UInt8} {info : Info}
    {readFault writeFault : Fault} (plain : info.flagged = false)
    (flagged : (readDeviceInfo storage pageSize infoBuf info readFault writeFault).2.2.flagged =
      true) :
    (readDeviceInfo storage pageSize infoBuf info readFault writeFault).1.flagged = true := by
  rcases readDeviceInfo_cases paged infoBuf info readFault writeFault with
    kept | fresh | ⟨same, stored⟩
  · rw [kept, plain] at flagged
    cases flagged
  · simp [Info.flagged, fresh] at flagged
  · rw [same, Storage.flagged, stored]
    exact flagged

theorem putRecord_paged (source : Nat → UInt8) (fault : Fault) :
    (storage.putRecord pageSize source fault).Paged pageSize := by
  rcases storage with emmc | flash
  · intro flash same
    simp only [Storage.putRecord] at same
    split at same <;> cases same
  · intro flash' same
    simp only [Storage.putRecord] at same
    split at same
    · cases same
      exact paged flash rfl
    · cases same
      rw [flashWrite_pageSize]
      exact paged flash rfl

theorem writeDeviceInfo_paged (fault : Fault) :
    (writeDeviceInfo storage pageSize infoBuf info fault).1.Paged pageSize := by
  rw [writeDeviceInfo]
  split
  · exact paged
  · exact putRecord_paged paged _ fault

theorem readDeviceInfo_paged (readFault writeFault : Fault) :
    (readDeviceInfo storage pageSize infoBuf info readFault writeFault).1.Paged pageSize := by
  simp only [readDeviceInfo]
  split
  · exact paged
  · split
    · exact paged
    · split
      · exact writeDeviceInfo_paged paged _ _ writeFault
      · exact paged

end Paged

end AndroidBoot.Aboot.DeviceInfo
