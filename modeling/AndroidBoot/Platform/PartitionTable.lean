/- source: bootable/lk/platform/msm_shared/partition_parser.c, include/partition_parser.h
   digest: The partition table in memory, and how it is read from the card. -/

import AndroidBoot.Platform.Mmc

/-!
The table that `partition_parser.c` keeps, and the two readers that fill it from a card. An image in
memory counts the bytes that are looked at, from the start of the image and modulo the address
space; a buffer on the stack is such an image whose counting nobody asks for.
-/

set_option autoImplicit false

namespace AndroidBoot.Platform.PartitionTable

open Foundation.Memory Mmc

section Access

/-- Bytes in memory, with the spans that have been read or written, the last one first. No
function reads `touched`. -/
structure Image where
  bytes : Nat → UInt8
  touched : List (Nat × Nat)

def wrap (i : Nat) : Nat := i % 2 ^ 32

variable (m : Image) (i : Nat)

def Image.touch (len : Nat) : Image := { m with touched := (wrap i, len) :: m.touched }

def Image.byte : Nat × Image := ((m.bytes (wrap i)).toNat, m.touch i 1)

def Image.lword : Nat × Image := (le32 m.bytes (wrap i), m.touch i 4)

def Image.llword : Nat × Image := (le64 m.bytes (wrap i), m.touch i 8)

def Image.put (len : Nat) (source : Nat → UInt8) : Image :=
  { m.touch i len with bytes := splice m.bytes (wrap i) len source }

def Image.putLong (value : Nat) : Image := m.put i 4 (bytesOf value)

def Image.putLongLong (value : Nat) : Image := m.put i 8 (bytesOf value)

def onStack (buffer : Nat → UInt8) : Image := ⟨buffer, []⟩

end Access

def partitionVerifyMbrSignature (size : Nat) (m : Image) (start : Nat) : Bool × Image :=
  if size < 0x1FE + 1 then (true, m)
  else
    let (first, m) := m.byte (start + 0x1FE)
    if first ≠ 0x55 then (true, m)
    else
      let (second, m) := m.byte (start + 0x1FE + 1)
      (second ≠ 0xAA, m)

structure GptHeader where
  headerSize : Nat
  firstUsableLba : Nat
  maxPartitionCount : Nat
  partitionEntrySize : Nat
  deriving DecidableEq, Repr

def partitionParseGptHeader (m : Image) (start : Nat) : Option GptHeader × Image :=
  let (low, m) := m.lword start
  if low ≠ 0x20494645 then (none, m)
  else
    let (high, m) := m.lword (start + 4)
    if high ≠ 0x54524150 then (none, m)
    else
      let (headerSize, m) := m.lword (start + 12)
      let (firstUsableLba, m) := m.llword (start + 40)
      let (maxPartitionCount, m) := m.lword (start + 80)
      let (partitionEntrySize, m) := m.lword (start + 84)
      (some ⟨headerSize, firstUsableLba, maxPartitionCount, partitionEntrySize⟩, m)

def GptSigned (bytes : Nat → UInt8) (start : Nat) : Prop :=
  le32 bytes start = 0x20494645 ∧ le32 bytes (start + 4) = 0x54524150

def headerAt (bytes : Nat → UInt8) (start : Nat) : GptHeader :=
  ⟨le32 bytes (start + 12), le64 bytes (start + 40), le32 bytes (start + 80),
    le32 bytes (start + 84)⟩

theorem parse_bytes (m : Image) (start : Nat) :
    (partitionParseGptHeader m start).2.bytes = m.bytes := by
  unfold partitionParseGptHeader
  dsimp only
  by_cases low : (m.lword start).1 ≠ 0x20494645
  · rw [if_pos low]
    rfl
  · rw [if_neg low]
    by_cases high : ((m.lword start).2.lword (start + 4)).1 ≠ 0x54524150
    · rw [if_pos high]
      rfl
    · rw [if_neg high]
      rfl

theorem parse_signed {m : Image} {start : Nat} (inside : start + 92 ≤ 2 ^ 32)
    (signed : GptSigned m.bytes start) :
    (partitionParseGptHeader m start).1 = some (headerAt m.bytes start) := by
  have at_ (i : Nat) (within : i < 92) : wrap (start + i) = start + i := Nat.mod_eq_of_lt (by omega)
  have zero : wrap start = start := at_ 0 (by decide)
  have low : ¬ (m.lword start).1 ≠ 0x20494645 := by
    rw [Image.lword, zero]
    exact not_not.mpr signed.1
  have high : ¬ ((m.lword start).2.lword (start + 4)).1 ≠ 0x54524150 := by
    rw [Image.lword, at_ 4 (by decide)]
    exact not_not.mpr signed.2
  unfold partitionParseGptHeader
  dsimp only
  rw [if_neg low, if_neg high]
  simp only [Image.lword, Image.llword, Image.touch, at_ 12 (by decide), at_ 40 (by decide),
    at_ 80 (by decide), at_ 84 (by decide), headerAt]

theorem parse_unsigned {m : Image} {start : Nat} (inside : start + 92 ≤ 2 ^ 32)
    (unsigned : ¬ GptSigned m.bytes start) : (partitionParseGptHeader m start).1 = none := by
  have zero : wrap start = start := Nat.mod_eq_of_lt (by omega)
  have four : wrap (start + 4) = start + 4 := Nat.mod_eq_of_lt (by omega)
  unfold partitionParseGptHeader
  dsimp only
  by_cases low : (m.lword start).1 ≠ 0x20494645
  · rw [if_pos low]
  · rw [if_neg low]
    by_cases high : ((m.lword start).2.lword (start + 4)).1 ≠ 0x54524150
    · rw [if_pos high]
    · rw [Image.lword, zero] at low
      rw [Image.lword, four] at high
      exact absurd ⟨not_not.mp low, not_not.mp high⟩ unsigned

structure Entry where
  typeGuid : List UInt8
  dtype : Nat
  uniqueGuid : List UInt8
  firstLba : Nat
  lastLba : Nat
  size : Nat
  attributeFlag : Nat
  name : List UInt8

structure Table where
  entries : Nat → Entry
  count : Nat
  gpt : Bool
  ext3Count : Nat
  vfatCount : Nat

def Table.update (t : Table) (change : Entry → Entry) : Table :=
  { t with entries := fun n => if n = t.count then change (t.entries n) else t.entries n }

def ascii (text : String) : List UInt8 := text.toList.map fun c => UInt8.ofNat c.toNat

def Entry.nameFront (entry : Entry) (text : List UInt8) : Entry :=
  { entry with name := text ++ entry.name.drop text.length }

def ext3Partitions : List String := ["system", "userdata", "persist", "cache", "tombstones"]

def vfatPartitions : List String := ["modem", "mdm", "NONE"]

/-- The names in a build without `PLATFORM_MSM7X27A`, which names type `0x4C` `FOTA`. -/
def fixedName (type : Nat) : Option String :=
  match type with
  | 0x4D => some "sbl1"
  | 0x51 => some "sbl2"
  | 0x45 => some "sbl3"
  | 0x47 => some "rpm"
  | 0x46 => some "tz"
  | 0x4C => some "aboot"
  | 0x48 => some "boot"
  | 0x4A => some "modem_st1"
  | 0x4B => some "modem_st2"
  | 0x4E => some "efs2"
  | 0x60 => some "recovery"
  | 0x63 => some "misc"
  | 0x5D => some "ssd"
  | _ => none

/-- `mbr_fill_name` on the entry at `partition_count`. The `memset` in front of the first label of
its `switch` is never reached. -/
def mbrFillName (t : Table) (type : Nat) : Table :=
  if type = 0x06 ∨ type = 0x0C then
    let name := vfatPartitions.getD t.vfatCount "NONE"
    if name = "NONE" then t
    else
      { t.update (fun entry => entry.nameFront (ascii name ++ [0])) with
        vfatCount := t.vfatCount + 1 }
  else if type = 0x83 then
    if t.ext3Count = ext3Partitions.length then t
    else
      { t.update (fun entry => entry.nameFront (ascii (ext3Partitions.getD t.ext3Count "") ++ [0]))
          with ext3Count := t.ext3Count + 1 }
  else
    match fixedName type with
    | some name => t.update fun entry => entry.nameFront (ascii name)
    | none => t

def Table.addMbr (t : Table) (dtype status firstLba size : Nat) : Table :=
  let t := t.update fun entry =>
    { entry with dtype := dtype, attributeFlag := status, firstLba := firstLba, size := size }
  let t := mbrFillName t dtype
  { t with count := t.count + 1 }

def mbrEntries (buffer : Nat → UInt8) : Nat → Nat → Table → Bool × Table
  | 0, _, t => (false, t)
  | left + 1, i, t =>
    let entry := 0x1BE + i * 0x10
    let dtype := (buffer (entry + 4)).toNat
    if dtype = 0xEE then (true, { t with gpt := true })
    else
      mbrEntries buffer left (i + 1) (t.addMbr dtype (buffer entry).toNat
        (le32 buffer (entry + 8)) (le32 buffer (entry + 12)))

def ebrEntries (ebrFirstSec : Nat) :
    Nat → Nat → (Nat → UInt8) → Card → Table → Bool × Card × Table
  | 0, _, _, card, t => (false, card, t)
  | left + 1, ebrCurrentSec, buffer, card, t =>
    if (partitionVerifyMbrSignature blockSize (onStack buffer) 0).1 then (false, card, t)
    else
      let t := t.addMbr (buffer (0x1BE + 4)).toNat (buffer 0x1BE).toNat
        ((le32 buffer (0x1BE + 8) + ebrCurrentSec) % 2 ^ 32) (le32 buffer (0x1BE + 12))
      if t.count = numPartitions then (false, card, t)
      else
        let dfirstsec := le32 buffer (0x1CE + 8)
        if dfirstsec = 0 then (false, card, t)
        else
          let sector := (ebrFirstSec + dfirstsec) % 2 ^ 32
          match mmcBootReadFromCard card (sector * 512 % 2 ^ 32) blockSize buffer 0 with
          | (true, _, card) => (true, card, t)
          | (false, buffer, card) => ebrEntries ebrFirstSec left sector buffer card t

def mmcBootReadMbr (stack : Nat → UInt8) (card : Card) (t : Table) : Bool × Card × Table :=
  match mmcBootReadFromCard card 0 blockSize stack 0 with
  | (true, _, card) => (true, card, t)
  | (false, buffer, card) =>
    if (partitionVerifyMbrSignature blockSize (onStack buffer) 0).1 then (true, card, t)
    else
      match mbrEntries buffer 4 0 { t with count := 0 } with
      | (true, t) => (false, card, t)
      | (false, t) =>
        -- `dtype` and `dfirstsec` are those of the last entry
        if (buffer (0x1BE + 3 * 0x10 + 4)).toNat ≠ 0x05 then (false, card, t)
        else
          let dfirstsec := le32 buffer (0x1BE + 3 * 0x10 + 8)
          match mmcBootReadFromCard card (dfirstsec * 512 % 2 ^ 32) blockSize buffer 0 with
          | (true, _, card) => (true, card, t)
          | (false, buffer, card) =>
            ebrEntries dfirstsec numPartitions dfirstsec buffer card t

/-- How a call ends; `halted` is an `ASSERT` that fails or a loop that never ends. -/
inductive Ret where
  | success | failure | halted
  deriving DecidableEq, Repr

def Table.addGpt (t : Table) (buffer : Nat → UInt8) (place : Nat) : Table :=
  let t := t.update fun entry =>
    let firstLba := le64 buffer (place + 32)
    let lastLba := le64 buffer (place + 40)
    { entry with
      uniqueGuid := window buffer (place + 16) 16
      firstLba := firstLba
      lastLba := lastLba
      size := (lastLba + 2 ^ 64 - firstLba + 1) % 2 ^ 64
      attributeFlag := le64 buffer (place + 48)
      name := ((List.range 36).map fun n => buffer (place + 56 + 2 * n)) ++ entry.name.drop 36 }
  { t with count := t.count + 1 }

def gptBlock (buffer : Nat → UInt8) (entrySize : Nat) : Nat → Nat → Table → Bool × Table
  | 0, _, t => (false, t)
  | left + 1, j, t =>
    let place := j * entrySize % 2 ^ 32
    let t := t.update fun entry => { entry with typeGuid := window buffer place 16 }
    if buffer place = 0 ∧ buffer (place + 1) = 0 then (true, t)
    else gptBlock buffer entrySize left (j + 1) (t.addGpt buffer place)

def gptBlocks (partition0 entrySize : Nat) :
    Nat → Nat → (Nat → UInt8) → Card → Table → Ret × Card × Table
  | 0, _, _, card, t => (.success, card, t)
  | left + 1, i, data, card, t =>
    if numPartitions ≤ t.count then (.halted, card, t)
    else
      match mmcBootReadFromCard card ((partition0 * 512 + i * 512 % 2 ^ 32) % 2 ^ 64) blockSize
        data 0 with
      | (true, _, card) => (.failure, card, t)
      | (false, data, card) =>
        match gptBlock data entrySize 4 0 t with
        | (true, t) => (.success, card, t)
        | (false, t) => gptBlocks partition0 entrySize left (i + 1) data card t

/-- The loop over the entries. An unused one sets the counter to the count, and for `0xFFFFFFFF` its
increment wraps around: the loop starts again, with the entries so far. A pass that adds none while
no transfer can fail any more comes again for ever, so that more passes than entries and outcomes
never end. Each read replaces the whole block in the buffer. -/
def gptEntries (partition0 entrySize count : Nat) (data : Nat → UInt8) :
    Nat → Card → Table → Ret × Card × Table
  | 0, card, t => (.halted, card, t)
  | passes + 1, card, t =>
    match gptBlocks partition0 entrySize (count / 4) 0 data card t with
    | (.success, card, t) =>
      if count = 0xFFFFFFFF then gptEntries partition0 entrySize count data passes card t
      else (.success, card, t)
    | result => result

def readEntries (header : GptHeader) (data : Nat → UInt8) (card : Card) (t : Table) :
    Ret × Card × Table :=
  gptEntries (le64 data 72) header.partitionEntrySize header.maxPartitionCount data
    (numPartitions + card.outcomes.length + 1) card t

theorem readEntries_eq {header : GptHeader} (few : header.maxPartitionCount ≠ 0xFFFFFFFF)
    (data : Nat → UInt8) (card : Card) (t : Table) :
    readEntries header data card t = gptBlocks (le64 data 72) header.partitionEntrySize
      (header.maxPartitionCount / 4) 0 data card t := by
  rw [readEntries, gptEntries]
  obtain ⟨ret | ret | ret, card, t⟩ := gptBlocks (le64 data 72) header.partitionEntrySize
    (header.maxPartitionCount / 4) 0 data card t
  · exact if_neg few
  · rfl
  · rfl

theorem readEntries_endless {header : GptHeader} (all : header.maxPartitionCount = 0xFFFFFFFF)
    (data : Nat → UInt8) (card : Card) (t : Table) : (readEntries header data card t).1 ≠ .success := by
  rw [readEntries, all]
  generalize numPartitions + card.outcomes.length + 1 = passes
  induction passes generalizing card t with
  | zero => exact nofun
  | succ passes ih =>
    rw [gptEntries]
    obtain ⟨ret | ret | ret, card, t⟩ := gptBlocks (le64 data 72) header.partitionEntrySize
      (0xFFFFFFFF / 4) 0 data card t
    · exact ih card t
    · exact nofun
    · exact nofun

/-- `mmc_boot_read_gpt`, with the buffer that it finds on the stack. The first read may fail: only
the signature decides then. -/
def mmcBootReadGpt (stack : Nat → UInt8) (capacity : Nat) (card : Card) (t : Table) :
    Ret × Card × Table :=
  let t := { t with count := 0 }
  let (_, data, card) := mmcBootReadFromCard card blockSize blockSize stack 0
  match (partitionParseGptHeader (onStack data) 0).1 with
  | some header => readEntries header data card t
  | none =>
    if capacity / 512 = 0 then (.halted, card, t)
    else
      match mmcBootReadFromCard card ((capacity / 512 - 1) * 512 % 2 ^ 64) blockSize data 0 with
      | (true, _, card) => (.failure, card, t)
      | (false, data, card) =>
        match (partitionParseGptHeader (onStack data) 0).1 with
        | none => (.failure, card, t)
        | some header => readEntries header data card t

end AndroidBoot.Platform.PartitionTable
