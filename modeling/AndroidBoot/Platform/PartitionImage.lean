/- source: bootable/lk/platform/msm_shared/partition_parser.c, mmc.c
   digest: Flashing a partition image: the MBR with its EBRs, and the GPT with its two copies. -/

import AndroidBoot.Platform.CalculateCrc
import AndroidBoot.Platform.PartitionTable

set_option autoImplicit false

namespace AndroidBoot.Platform.PartitionImage

open Foundation.Memory Foundation.Crc32 Mmc PartitionTable

/-- What `mmc_erase_card` knows of the erase groups of the card. -/
structure EraseGroup where
  groupDef : Nat
  hcGroupSize : Nat
  groupSize : Nat
  groupMult : Nat

def EraseGroup.sectors (group : EraseGroup) : Nat :=
  if group.groupDef ≠ 0 then 512 * group.hcGroupSize * 1024 / 512
  else (group.groupSize + 1) * (group.groupMult + 1)

structure Flasher where
  image : Image
  card : Card
  capacity : Nat
  group : EraseGroup
  erased : Nat → UInt8
  table : Table
  stack : Nat → UInt8

section Card

def command (card : Card) : Bool × Card :=
  match card.outcomes with
  | some debris :: rest => (true, { card with content := debris, outcomes := rest })
  | none :: rest => (false, { card with outcomes := rest })
  | [] => (false, card)

def mmcEraseCard (w : Flasher) (dataAddr size : Nat) : Bool × Flasher :=
  if w.group.sectors = 0 then (true, w)
  else if size / 512 / w.group.sectors < 1 then
    let (failed, card) := mmcWrite w.card dataAddr 16384 fun _ => 0
    (failed, { w with card := card })
  else
    match command w.card with
    | (true, card) => (true, { w with card := card })
    | (false, card) =>
      match command card with
      | (true, card) => (true, { w with card := card })
      | (false, card) =>
        match command card with
        | (true, card) => (true, { w with card := card })
        | (false, card) => (false, { w with card := { card with content := w.erased } })

def Flasher.send (w : Flasher) (address len source : Nat) : Bool × Flasher :=
  let (failed, card) := mmcWrite w.card address len fun k => w.image.bytes (wrap source + k)
  (failed, { w with image := w.image.touch source (padded len), card := card })

theorem send_wrote (w : Flasher) {address len : Nat} (source : Nat)
    (aligned : blockSize ∣ address) (whole : blockSize ∣ len)
    (reached : address + len ≤ w.card.reach) :
    Wrote w.card address len (fun k => w.image.bytes (wrap source + k))
      ((w.send address len source).1, (w.send address len source).2.card) :=
  mmcWrite_wrote aligned whole reached

end Card

section Mbr

def writeEbrs (size ebrSectorOffset dfirstsec ebrImage : Nat) (w : Flasher) : Bool × Flasher :=
  if size ≤ ebrImage then (false, w)
  else
    match w.send ((ebrSectorOffset + dfirstsec) * 512 % 2 ^ 32) blockSize ebrImage with
    | (true, w) => (true, w)
    | (false, w) =>
      let (dfirstsec, image) := w.image.lword (ebrImage + 0x1CE + 8)
      writeEbrs size ebrSectorOffset dfirstsec (ebrImage + blockSize) { w with image := image }
termination_by size - ebrImage
decreasing_by
  have : 0 < blockSize := by decide
  omega

def findEbr : Nat → Nat → Image → Option Nat × Image
  | 0, _, m => (none, m)
  | left + 1, i, m =>
    let (dtype, m) := m.byte (0x1BE + i * 0x10 + 4)
    if dtype = 0x05 then (some i, m) else findEbr left (i + 1) m

def writeMbrInBlocks (size : Nat) (w : Flasher) : Bool × Flasher :=
  match w.send 0 blockSize 0 with
  | (true, w) => (true, w)
  | (false, w) =>
    match findEbr 4 0 w.image with
    | (none, image) => (false, { w with image := image })
    | (some i, image) =>
      let (ebrSectorOffset, image) := image.lword (0x1BE + i * 0x10 + 8)
      writeEbrs size ebrSectorOffset 0 blockSize { w with image := image }

def writeMbr (size : Nat) (w : Flasher) : Bool × Flasher :=
  let (invalid, image) := partitionVerifyMbrSignature size w.image 0
  let w := { w with image := image }
  if invalid then (true, w)
  else
    match writeMbrInBlocks size w with
    | (true, w) => (true, w)
    | (false, w) =>
      let (failed, card, table) := mmcBootReadMbr w.stack w.card w.table
      (failed, { w with card := card, table := table })

end Mbr

section Gpt

/-- `calculate_crc32` of bytes of the image; a length that is negative as an `int` reads none. -/
def crcOf (m : Image) (start len : Nat) : Nat × Image :=
  let len := if len < 2 ^ 31 then len else 0
  ((CalculateCrc.calculateCrc32 (window m.bytes (wrap start) len)).toNat, m.touch start len)

/-- A buffer whose length is no negative `int` gets its CRC-32, wherever it is in memory. -/
theorem crcOf_standard (m : Image) (start : Nat) {len : Nat} (short : len < 2 ^ 31) :
    (crcOf m start len).1 = (crc32 (window m.bytes (wrap start) len)).toNat := by
  simp only [crcOf, if_pos short, CalculateCrc.calculateCrc32_eq]

theorem crcOf_standard_digits :
    9 < 2 ^ 31 ∧ (crcOf (onStack fun i => UInt8.ofNat (0x31 + i)) 0 9).1 = 0xCBF43926 := by
  refine ⟨by decide, ?_⟩
  rw [crcOf_standard _ 0 (by decide)]
  decide +kernel

def cardSizeSec (capacity : Nat) : Nat :=
  if capacity / 512 = 0 then 4 * 1024 * 1024 * 2 - 1 else capacity / 512

def minus (x y : Nat) : Nat := (x + 2 ^ 64 - y) % 2 ^ 64

def entryRoom : Nat := 2 ^ 32 / 0x80

/-- The loop that looks for the first entry whose type starts with a zero, from the `total`th on.
Where the address space has none the loop never ends. -/
def findUnused : Nat → Nat → Image → Option Nat × Image
  | 0, _, m => (none, m)
  | left + 1, total, m =>
    let (type, m) := m.byte (blockSize + blockSize + total * 0x80)
    if type ≠ 0 then findUnused left (total + 1) m else (some total, m)

def patchHeaders (m : Image) (card secondary : Nat) : Image :=
  let m := m.putLongLong (blockSize + 32) (minus card 1)
  let m := m.putLongLong (blockSize + 48) (minus card 34)
  let m := m.putLongLong (secondary + 24) (minus card 1)
  let m := m.putLongLong (secondary + 48) (minus card 34)
  m.putLongLong (secondary + 72) (minus card 33)

def lastPartOffset (total : Nat) : Nat := (total * 0x80 + 2 ^ 32 - 0x80 + 40) % 2 ^ 32

def patchLast (m : Image) (card arraySize total : Nat) : Image :=
  let m := m.putLongLong (blockSize + blockSize + lastPartOffset total) (minus card 34)
  m.putLongLong (blockSize + blockSize + lastPartOffset total + arraySize) (minus card 34)

def patchCrcs (m : Image) (arraySize len secondary : Nat) : Image :=
  let (crc, m) := crcOf m (blockSize + blockSize) len
  let m := m.putLong (blockSize + 88) crc
  let (crc, m) := crcOf m (blockSize + blockSize + arraySize) len
  let m := m.putLong (secondary + 88) crc
  let m := m.putLong (blockSize + 16) 0
  let (crc, m) := crcOf m blockSize 92
  let m := m.putLong (blockSize + 16) crc
  let m := m.putLong (secondary + 16) 0
  let (crc, m) := crcOf m secondary 92
  m.putLong (secondary + 16) crc

def secondaryHeader (arraySize : Nat) : Nat := wrap (2 * arraySize + blockSize + blockSize)

/-- `patch_gpt`; the result is `true` where it does not return. -/
def patchGpt (m : Image) (capacity arraySize maxPartCount partEntrySize : Nat) : Bool × Image :=
  let card := cardSizeSec capacity
  let secondary := secondaryHeader arraySize
  match findUnused entryRoom 0 (patchHeaders m card secondary) with
  | (none, m) => (true, m)
  | (some total, m) =>
    (false, patchCrcs (patchLast m card arraySize total) arraySize
      (wrap (maxPartCount * partEntrySize)) secondary)

inductive Target where
  | address (n : Nat)
  | field (i : Nat)
  deriving DecidableEq, Repr

structure Part where
  target : Target
  len : Nat
  source : Nat
  deriving DecidableEq, Repr

def Target.resolve (target : Target) (m : Image) : Nat × Image :=
  match target with
  | .address n => (n, m)
  | .field i =>
    let (lba, m) := m.llword i
    (lba * 512 % 2 ^ 64, m)

def gptParts (arraySize : Nat) : List Part :=
  [⟨.address 0, blockSize, 0⟩,
    ⟨.address blockSize, blockSize, blockSize⟩,
    ⟨.field (blockSize + 32), blockSize, secondaryHeader arraySize⟩,
    ⟨.field (blockSize + 72), arraySize, blockSize + blockSize⟩,
    ⟨.field (secondaryHeader arraySize + 72), arraySize, blockSize + blockSize + arraySize⟩]

def sendParts : List Part → Flasher → Bool × Flasher
  | [], w => (false, w)
  | part :: rest, w =>
    let (address, image) := part.target.resolve w.image
    match { w with image := image }.send address part.len part.source with
    | (true, w) => (true, w)
    | (false, w) => sendParts rest w

def arraySizeOf (header : GptHeader) : Nat :=
  max (wrap (header.partitionEntrySize * header.maxPartitionCount)) 0x4000

def flashGpt (size arraySize : Nat) (w : Flasher) : Ret × Flasher :=
  match mmcEraseCard w 0 w.capacity with
  | (true, w) => (.failure, w)
  | (false, w) =>
    match sendParts (gptParts arraySize) w with
    | (true, w) => (.failure, w)
    | (false, w) =>
      match mmcBootReadGpt w.stack w.capacity w.card w.table with
      | (.success, card, table) =>
        let w := { w with card := card, table := table }
        -- the image is cleared from its header on, by the size of all of it
        (.success, { w with image := w.image.put blockSize size fun _ => 0 })
      | (ret, card, table) => (ret, { w with card := card, table := table })

def writeGpt (size : Nat) (w : Flasher) : Ret × Flasher :=
  match partitionParseGptHeader w.image blockSize with
  | (none, image) => (.failure, { w with image := image })
  | (some primary, image) =>
    let arraySize := arraySizeOf primary
    match partitionParseGptHeader image (secondaryHeader arraySize) with
    | (none, image) => (.failure, { w with image := image })
    | (some backup, image) =>
      match patchGpt image w.capacity arraySize backup.maxPartitionCount
        backup.partitionEntrySize with
      | (true, image) => (.halted, { w with image := image })
      | (false, image) => flashGpt size arraySize { w with image := image }

end Gpt

inductive PartitionType where
  | mbr | gpt
  deriving DecidableEq, Repr

/-- `partition_get_type`; `none` where it fails, and leaves `PARTITION_TYPE_GPT_BACKUP`. -/
def partitionGetType (size : Nat) (m : Image) : Option PartitionType × Image :=
  match partitionVerifyMbrSignature size m 0 with
  | (true, m) => (none, m)
  | (false, m) =>
    if size < 0x1BE + 4 then (some .mbr, m)
    else
      let (type, m) := m.byte (0x1BE + 4)
      (some (if type = 0xEE then .gpt else .mbr), m)

def writePartition (size : Nat) (w : Flasher) : Ret × Flasher :=
  match partitionGetType size w.image with
  | (none, image) => (.failure, { w with image := image })
  | (some .mbr, image) =>
    let (failed, w) := writeMbr size { w with image := image }
    (if failed then .failure else .success, w)
  | (some .gpt, image) => writeGpt size { w with image := image }

end AndroidBoot.Platform.PartitionImage
