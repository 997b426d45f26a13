/- source: bootable/lk/platform/msm_shared/partition_parser.c
   digest: An MBR with its chain of EBRs, and how it is written to the card. -/

import AndroidBoot.Platform.PartitionImage

set_option autoImplicit false

namespace AndroidBoot.Platform.MbrFlash

open Foundation.Memory Mmc PartitionTable PartitionImage

section Spec

structure Row where
  dtype : Nat
  status : Nat
  firstLba : Nat
  size : Nat
  deriving DecidableEq, Repr

def Entry.row (entry : Entry) : Row :=
  ⟨entry.dtype, entry.attributeFlag, entry.firstLba, entry.size⟩

variable (bytes : Nat → UInt8)

def rowAt (place : Nat) : Row :=
  ⟨(bytes (place + 4)).toNat, (bytes place).toNat, le32 bytes (place + 8), le32 bytes (place + 12)⟩

def slot (i : Nat) : Row := rowAt bytes (0x1BE + i * 0x10)

/-- The `k`th EBR of an image starts behind the MBR and the EBRs before. -/
def ebrAt (k : Nat) : Nat := (k + 1) * blockSize

/-- The link of an EBR to the next one; 0 at the end of the chain. -/
def link (k : Nat) : Nat := le32 bytes (ebrAt k + 0x1CE + 8)

/-- The slot of the extended entry, where an MBR has one. -/
def extendedSlot : Option Nat := (List.range' 0 4).find? fun i => (slot bytes i).dtype = 0x05

theorem extendedSlot_some {i : Nat} (found : extendedSlot bytes = some i) :
    i < 4 ∧ (slot bytes i).dtype = 0x05 := by
  have member := List.mem_of_find?_eq_some found
  have type := List.find?_some found
  exact ⟨by simpa using member, of_decide_eq_true type⟩

def extendedSec : Nat := ((extendedSlot bytes).map fun i => (slot bytes i).firstLba).getD 0

def ebrSec : Nat → Nat
  | 0 => extendedSec bytes
  | k + 1 => (extendedSec bytes + link bytes k) % 2 ^ 32

/-- The byte address of an EBR, as writer and reader compute it in 32 bits. -/
def ebrAddress (k : Nat) : Nat := ebrSec bytes k * 512 % 2 ^ 32

def logical (k : Nat) : Row :=
  let row := rowAt bytes (ebrAt k + 0x1BE)
  { row with firstLba := (row.firstLba + ebrSec bytes k) % 2 ^ 32 }

def Signed (place : Nat) : Prop :=
  bytes (place + 0x1FE) = 0x55 ∧ bytes (place + 0x1FF) = 0xAA

/-- An image of an MBR with one extended entry at most, of `n` EBRs behind it that are linked in
their order, and of what may follow the last one. -/
structure Formed (size n : Nat) : Prop where
  signed : Signed bytes 0
  sole : ∀ i j, i < 4 → j < 4 → (slot bytes i).dtype = 0x05 → (slot bytes j).dtype = 0x05 → i = j
  extended : n ≠ 0 → extendedSlot bytes ≠ none
  room : ebrAt n ≤ size
  ebrs : ∀ k, k < n → Signed bytes (ebrAt k)
  links : ∀ k, k + 1 < n → link bytes k ≠ 0
  ends : n ≠ 0 → link bytes (n - 1) = 0

end Spec

section Rows

def rowOf (t : Table) (n : Nat) : Row := Entry.row (t.entries n)

variable (t : Table)

theorem mbrFillName_kept (type : Nat) :
    (mbrFillName t type).count = t.count ∧ (mbrFillName t type).gpt = t.gpt ∧
      ∀ n, rowOf (mbrFillName t type) n = rowOf t n := by
  have named (text : List UInt8) (n : Nat) :
      rowOf (t.update fun entry => entry.nameFront text) n = rowOf t n := by
    simp only [rowOf, Table.update]
    split <;> rfl
  unfold mbrFillName
  dsimp only
  repeat' split
  all_goals exact ⟨rfl, rfl, fun n => by first | rfl | exact named _ n⟩

theorem addMbr_count (dtype status firstLba size : Nat) :
    (t.addMbr dtype status firstLba size).count = t.count + 1 :=
  congrArg (· + 1) (mbrFillName_kept _ dtype).1

theorem addMbr_gpt (dtype status firstLba size : Nat) :
    (t.addMbr dtype status firstLba size).gpt = t.gpt := (mbrFillName_kept _ dtype).2.1

theorem rowOf_addMbr (row : Row) (n : Nat) :
    rowOf (t.addMbr row.dtype row.status row.firstLba row.size) n =
      if n = t.count then row else rowOf t n := by
  refine ((mbrFillName_kept _ row.dtype).2.2 n).trans ?_
  simp only [rowOf, Table.update]
  split <;> rfl

end Rows

section Reader

variable {bytes buffer : Nat → UInt8}

theorem rowAt_matches {place at_ i : Nat} (same : Matches buffer at_ bytes place blockSize)
    (within : i + 16 ≤ blockSize) : rowAt buffer (at_ + i) = rowAt bytes (place + i) := by
  simp only [rowAt]
  congr 1
  · rw [Nat.add_assoc, Nat.add_assoc, same (i + 4) (by omega)]
  · rw [same i (by omega)]
  · rw [Nat.add_assoc, Nat.add_assoc, same.le32 (by omega)]
  · rw [Nat.add_assoc, Nat.add_assoc, same.le32 (by omega)]

theorem signature_iff (m : Image) {size : Nat} (full : 511 ≤ size) :
    (partitionVerifyMbrSignature size m 0).1 = false ↔ Signed m.bytes 0 := by
  have long : ¬ size < 0x1FE + 1 := by omega
  have low : wrap (0 + 0x1FE) = 0x1FE := rfl
  have high : wrap (0 + 0x1FE + 1) = 0x1FF := rfl
  simp only [partitionVerifyMbrSignature, if_neg long, Image.byte, Image.touch, low, high, Signed,
    Nat.zero_add]
  by_cases first : m.bytes 0x1FE = 0x55
  · simp [first, ← UInt8.toNat_inj]
  · have differs : (m.bytes 0x1FE).toNat ≠ 0x55 := fun same => first (UInt8.toNat_inj.mp same)
    simp [first, differs]

theorem signature_bytes (size : Nat) (m : Image) (start : Nat) :
    (partitionVerifyMbrSignature size m start).2.bytes = m.bytes := by
  unfold partitionVerifyMbrSignature
  dsimp only [Image.byte, Image.touch]
  repeat' split
  all_goals rfl

theorem dvd_sector (sector : Nat) : blockSize ∣ sector * 512 % 2 ^ 32 := by
  unfold blockSize
  omega

theorem dvd_ebrAddress (bytes : Nat → UInt8) (k : Nat) : blockSize ∣ ebrAddress bytes k :=
  dvd_sector (ebrSec bytes k)

theorem ebrAddress_add_le (bytes : Nat → UInt8) (k : Nat) :
    ebrAddress bytes k + blockSize ≤ 2 ^ 32 := by
  have : blockSize = 512 := rfl
  rw [ebrAddress, this]
  omega

/-- What an image with `n` EBRs says of the partitions, up to the limit of the table. -/
structure Describes (bytes : Nat → UInt8) (n : Nat) (u : Table) : Prop where
  count : u.count = min (4 + n) numPartitions
  slots : ∀ i, i < 4 → rowOf u i = slot bytes i
  logicals : ∀ k, k < n → 4 + k < numPartitions → rowOf u (4 + k) = logical bytes k

end Reader

section Writer

variable (bytes : Nat → UInt8)

def blocks (size : Nat) : Nat := (size - 1) / 512

def ebrPlaces (k left : Nat) : List (Nat × Nat) :=
  (List.range' k left).map fun k => (ebrAddress bytes k, ebrAt k)

/-- The blocks that are written to the card in order: where to, and which one of the image. -/
def mbrPlaces (size : Nat) : List (Nat × Nat) :=
  (0, 0) :: if (extendedSlot bytes).isSome then ebrPlaces bytes 0 (blocks size) else []

def putBlocks (places : List (Nat × Nat)) (content : Nat → UInt8) : Nat → UInt8 :=
  places.foldl (fun content block =>
    splice content block.1 blockSize fun i => bytes (block.2 + i)) content

/-- The last block of the image that is written to an address. -/
def lastBlock (places : List (Nat × Nat)) (address : Nat) : Option Nat :=
  places.foldl (fun found block => if block.1 = address then some block.2 else found) none

theorem putBlocks_matches (content : Nat → UInt8) {address : Nat} (aligned : blockSize ∣ address)
    (places : List (Nat × Nat)) (each : ∀ block ∈ places, blockSize ∣ block.1) :
    match lastBlock places address with
    | some place => Matches (putBlocks bytes places content) address bytes place blockSize
    | none => Matches (putBlocks bytes places content) address content address blockSize := by
  have block : blockSize = 512 := rfl
  induction places using List.reverseRecOn with
  | nil => exact fun i _ => rfl
  | append_singleton places last ih =>
    have kept := ih fun block member => each block (List.mem_append_left _ member)
    have whole := each last (by simp)
    simp only [lastBlock, putBlocks, List.foldl_append, List.foldl_cons, List.foldl_nil] at kept ⊢
    by_cases here : last.1 = address
    · rw [if_pos here, here]
      intro i below
      rw [matches_splice _ _ _ _ i below, Nat.zero_add]
    · rw [if_neg here]
      have apart : address + blockSize ≤ last.1 ∨ last.1 + blockSize ≤ address := by
        rw [block] at whole aligned ⊢
        omega
      generalize List.foldl (fun found block => if block.1 = address then some block.2 else found)
        none places = found at kept ⊢
      cases found with
      | none => exact kept.splice _ apart
      | some place => exact kept.splice _ apart

variable {bytes}

/-- The flasher after writes to its card that all succeed. -/
structure Writing (places : List (Nat × Nat)) (w v : Flasher) : Prop where
  image : v.image.bytes = w.image.bytes
  sure : v.card.Reliable
  content : v.card.content = putBlocks w.image.bytes places w.card.content
  stack : v.stack = w.stack
  table : v.table = w.table

theorem Writing.send {places : List (Nat × Nat)} {w v : Flasher} (writing : Writing places w v)
    {address : Nat} (place : Nat) (aligned : blockSize ∣ address)
    (reached : address + blockSize ≤ 2 ^ 32) (low : place < 2 ^ 32) :
    (v.send address blockSize place).1 = false ∧
      Writing (places ++ [(address, place)]) w (v.send address blockSize place).2 := by
  have wrote := send_wrote v place aligned (Nat.dvd_refl blockSize)
    (Nat.le_trans reached v.card.le_reach)
  obtain ⟨passed, sure⟩ := wrote.succeeds writing.sure
  refine ⟨passed, writing.image, sure, ?_, writing.stack, writing.table⟩
  have content := wrote.written passed
  rw [writing.content, writing.image, show wrap place = place from Nat.mod_eq_of_lt low] at content
  rw [putBlocks, List.foldl_append]
  exact content

theorem lt_blocks {size k : Nat} : k < blocks size ↔ ebrAt k < size := by
  have block : blockSize = 512 := rfl
  rw [blocks, ebrAt, block]
  omega

theorem writeEbrs_writing {size : Nat} {w : Flasher} (small : size < 2 ^ 32) :
    ∀ (left k dfirstsec : Nat) (places : List (Nat × Nat)) (v : Flasher),
      k + left = blocks size → Writing places w v →
      (extendedSec w.image.bytes + dfirstsec) * 512 % 2 ^ 32 = ebrAddress w.image.bytes k →
      ∃ u, writeEbrs size (extendedSec w.image.bytes) dfirstsec (ebrAt k) v = (false, u) ∧
        Writing (places ++ ebrPlaces w.image.bytes k left) w u := by
  have block : blockSize = 512 := rfl
  intro left
  induction left with
  | zero =>
    intro k dfirstsec places v all writing _
    have done : size ≤ ebrAt k := Nat.not_lt.mp (mt lt_blocks.mpr (by omega))
    rw [writeEbrs, if_pos done]
    exact ⟨v, rfl, by simpa [ebrPlaces] using writing⟩
  | succ left ih =>
    intro k dfirstsec places v all writing target
    have more : ebrAt k < size := lt_blocks.mp (by omega)
    have inside : ebrAt k + 512 ≤ 2 ^ 32 := by
      rw [ebrAt, block] at more ⊢
      omega
    obtain ⟨passed, writing'⟩ := writing.send (ebrAt k) (dvd_ebrAddress w.image.bytes k)
      (ebrAddress_add_le w.image.bytes k) (Nat.lt_trans more small)
    rw [writeEbrs, if_neg (Nat.not_le.mpr more), target]
    generalize v.send (ebrAddress w.image.bytes k) blockSize (ebrAt k) = result at passed writing'
    obtain ⟨failed, v'⟩ := result
    obtain rfl : failed = false := passed
    have at_ : wrap (ebrAt k + 0x1CE + 8) = ebrAt k + 0x1CE + 8 := Nat.mod_eq_of_lt (by omega)
    have next : le32 v'.image.bytes (ebrAt k + 0x1CE + 8) = link w.image.bytes k := by
      rw [writing'.image]
      rfl
    have ahead : ebrAt k + blockSize = ebrAt (k + 1) := by
      rw [ebrAt, ebrAt, block]
      omega
    simp only [Image.lword, at_, next, ahead]
    have read : Writing _ w { v' with image := v'.image.touch (ebrAt k + 0x1CE + 8) 4 } :=
      { writing' with }
    obtain ⟨u, ran, wrote⟩ := ih (k + 1) (link w.image.bytes k) _ _ (by omega) read
      (Nat.mod_mul_mod _ _ _).symm
    refine ⟨u, ran, ?_⟩
    rw [List.append_assoc] at wrote
    exact wrote

theorem findEbr_eq : ∀ (left i : Nat) (m : Image), i + left = 4 →
    (findEbr left i m).2.bytes = m.bytes ∧ (findEbr left i m).1 =
      (List.range' i left).find? fun j => (slot m.bytes j).dtype = 0x05 := by
  intro left
  induction left with
  | zero =>
    intro i m _
    exact ⟨rfl, rfl⟩
  | succ left ih =>
    intro i m all
    have at_ : wrap (0x1BE + i * 0x10 + 4) = 0x1BE + i * 0x10 + 4 := Nat.mod_eq_of_lt (by omega)
    have type : (m.bytes (0x1BE + i * 0x10 + 4)).toNat = (slot m.bytes i).dtype := rfl
    obtain ⟨same, found⟩ := ih (i + 1) (m.touch (0x1BE + i * 0x10 + 4) 1) (by omega)
    simp only [findEbr, Image.byte, at_, type, List.range'_succ]
    by_cases here : (slot m.bytes i).dtype = 0x05
    · rw [if_pos here, List.find?_cons_of_pos (by simpa using here)]
      exact ⟨rfl, rfl⟩
    · rw [if_neg here, List.find?_cons_of_neg (by simpa using here)]
      exact ⟨same, found⟩

theorem writeMbrInBlocks_writing {size : Nat} {w : Flasher} (sure : w.card.Reliable)
    (small : size < 2 ^ 32) :
    ∃ u, writeMbrInBlocks size w = (false, u) ∧ Writing (mbrPlaces w.image.bytes size) w u := by
  have start : Writing [] w w := ⟨rfl, sure, rfl, rfl, rfl⟩
  obtain ⟨passed, writing⟩ := start.send 0 (Nat.dvd_zero _) (by decide) (by decide)
  unfold writeMbrInBlocks
  generalize w.send 0 blockSize 0 = result at passed writing
  obtain ⟨failed, v⟩ := result
  obtain rfl : failed = false := passed
  obtain ⟨same, found⟩ := findEbr_eq 4 0 v.image rfl
  dsimp only at writing same found ⊢
  rw [writing.image] at same found
  generalize findEbr 4 0 v.image = search at same found
  obtain ⟨which, m⟩ := search
  obtain rfl : which = extendedSlot w.image.bytes := found
  cases slot_ : extendedSlot w.image.bytes with
  | none =>
    refine ⟨_, rfl, ?_⟩
    rw [mbrPlaces, slot_]
    exact { writing with image := same }
  | some i =>
    have below : i < 4 := (extendedSlot_some _ slot_).1
    have at_ : wrap (0x1BE + i * 0x10 + 8) = 0x1BE + i * 0x10 + 8 := Nat.mod_eq_of_lt (by omega)
    have sector : le32 m.bytes (0x1BE + i * 0x10 + 8) = extendedSec w.image.bytes := by
      rw [same, extendedSec, slot_]
      rfl
    simp only [Image.lword, at_, sector]
    have read : Writing _ w { v with image := m.touch (0x1BE + i * 0x10 + 8) 4 } :=
      { writing with image := same }
    obtain ⟨u, ran, wrote⟩ := writeEbrs_writing small (blocks size) 0 0 _ _ (Nat.zero_add _) read
      (by rw [ebrAddress, ebrSec, Nat.add_zero])
    refine ⟨u, ran, ?_⟩
    rw [mbrPlaces, slot_]
    exact wrote

end Writer

section Runs

def table (i type sec j type' sec' : Nat) (x : Nat) : UInt8 :=
  if x = 0x1FE then 0x55
  else if x = 0x1FF then 0xAA
  else if x = 0x1BE + i * 0x10 + 4 then UInt8.ofNat type
  else if x = 0x1BE + i * 0x10 + 8 then UInt8.ofNat sec
  else if x = 0x1BE + j * 0x10 + 4 then UInt8.ofNat type'
  else if x = 0x1BE + j * 0x10 + 8 then UInt8.ofNat sec'
  else 0

def extendedIn (i : Nat) (x : Nat) : UInt8 :=
  if x < blockSize then table i 0x05 8 0 0x4C 1 x
  else if x < 2 * blockSize then table 0 0x48 1 1 0 0 (x - blockSize)
  else 0

def flasher (bytes : Nat → UInt8) : Flasher where
  image := ⟨bytes, []⟩
  card := ⟨true, fun _ => 0, []⟩
  capacity := 64 * 1024 * 1024
  group := ⟨0, 0, 0, 0⟩
  erased := fun _ => 0
  table := ⟨fun _ => ⟨[], 0, [], 0, 0, 0, 0, []⟩, 0, false, 0, 0⟩
  stack := fun _ => 0

end Runs

end AndroidBoot.Platform.MbrFlash
