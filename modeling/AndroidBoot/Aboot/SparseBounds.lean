/- source: bootable/lk/app/aboot/aboot.c
   digest: Which sparse images are written inside their partition. -/

import AndroidBoot.Aboot.SparseExpansion

set_option autoImplicit false

namespace AndroidBoot.Aboot.SparseBounds

open Foundation.Memory Platform.Mmc
open Fastboot (Text)
open SparseFlash SparseWalk
open SparseExpansion (SparseImage encode systemOnly)

structure RawWrite where
  offset : Nat
  size : Nat

/-- The raw chunks in front of the first one that is malformed. -/
def rawWrites (ram : Nat → UInt8) (header : SparseHeader) : Nat → Nat → Nat → List RawWrite
  | 0, _, _ => []
  | chunks + 1, data, totalBlocks =>
    let chunk := readChunkHeader ram data
    let body := skipHeader (data + chunkHeaderSize) chunkHeaderSize header.chunkHdrSz
    let size := header.blkSz * chunk.chunkSz % 2 ^ 32
    let next := (totalBlocks + chunk.chunkSz) % 2 ^ 32
    if chunk.chunkType = chunkTypeRaw then
      if chunk.totalSz ≠ (header.chunkHdrSz + size) % 2 ^ 32 then []
      else ⟨totalBlocks * header.blkSz, size⟩ :: rawWrites ram header chunks (body + size) next
    else if chunk.chunkType = chunkTypeDontCare then rawWrites ram header chunks body next
    else if chunk.chunkType = chunkTypeCrc then
      if chunk.totalSz ≠ header.chunkHdrSz then []
      else rawWrites ram header chunks (body + size) next
    else []

def imageWrites (ram : Nat → UInt8) : List RawWrite :=
  let header := readSparseHeader ram 0
  rawWrites ram header header.totalChunks
    (skipHeader header.fileHdrSz sparseHeaderSize header.fileHdrSz) 0

/-- Each transfer of a raw chunk lies between `ptn` and `ptn + size`. -/
def Inside (card : Card) (ptn size : Nat) (write : RawWrite) : Prop :=
  ∀ k, k * writeSize < padded write.size →
    let start := card.address (((ptn + write.offset) % 2 ^ 64 + k * writeSize) % 2 ^ 64)
    ptn ≤ start ∧ start + min writeSize (padded write.size - k * writeSize) ≤ ptn + size

def Touches (card : Card) (ptn : Nat) (writes : List RawWrite) (a : Nat) : Prop :=
  ∃ write ∈ writes, card.Covers ((ptn + write.offset) % 2 ^ 64) (padded write.size) a

def cardOf : Except (Text × Card) Cursor → Card
  | .error failure => failure.2
  | .ok cursor => cursor.card

theorem touches_cons {card : Card} {ptn offset size : Nat} {writes : List RawWrite} {a : Nat} :
    Touches card ptn (⟨offset, size⟩ :: writes) a ↔
      card.Covers ((ptn + offset) % 2 ^ 64) (padded size) a ∨ Touches card ptn writes a := by
  simp [Touches]

theorem touches_inside_iff (card : Card) (ptn size : Nat) (writes : List RawWrite) :
    (∀ a, Touches card ptn writes a → ptn ≤ a ∧ a < ptn + size) ↔
      ∀ write ∈ writes, Inside card ptn size write := by
  constructor
  · intro within write member k started
    have first := within (card.address (((ptn + write.offset) % 2 ^ 64 + k * writeSize) % 2 ^ 64))
    have last := within (card.address (((ptn + write.offset) % 2 ^ 64 + k * writeSize) % 2 ^ 64) +
      (min writeSize (padded write.size - k * writeSize) - 1))
    have positive : 0 < writeSize := by decide
    have low := first ⟨write, member, k, started, by omega, by omega⟩
    have high := last ⟨write, member, k, started, by omega, by omega⟩
    exact ⟨low.1, by omega⟩
  · rintro inside a ⟨write, member, k, started, low, high⟩
    have bounds := inside write member k started
    exact ⟨Nat.le_trans bounds.1 low, Nat.lt_of_lt_of_le high bounds.2⟩

section Loop

variable (ram : Nat → UInt8) (ptn : Nat) (header : SparseHeader)

theorem rawWrites_succ (chunks data totalBlocks : Nat) :
    rawWrites ram header (chunks + 1) data totalBlocks =
      let chunk := readChunkHeader ram data
      if wellFormed header chunk then
        (if chunk.chunkType = chunkTypeRaw then
          [⟨totalBlocks * header.blkSz, dataSz header chunk⟩] else []) ++
          rawWrites ram header chunks (nextHeader header chunk data)
            ((totalBlocks + chunk.chunkSz) % 2 ^ 32)
      else [] := by
  have other : chunkTypeRaw ≠ chunkTypeDontCare := by decide
  unfold wellFormed nextHeader
  rw [rawWrites]
  dsimp only
  split
  · rename_i raw
    simp only [raw, if_neg other, ne_eq, ite_not, decide_eq_true_eq]
    rfl
  · split
    · rfl
    · split
      · simp only [ne_eq, ite_not, decide_eq_true_eq]
        rfl
      · rfl

theorem sparseChunks_stays (card : Card) (chunks data totalBlocks : Nat) :
    Stays card (Touches card ptn (rawWrites ram header chunks data totalBlocks))
      (cardOf (sparseChunks ram ptn header chunks ⟨data, totalBlocks, card⟩)) := by
  induction chunks generalizing card data totalBlocks with
  | zero => exact Stays.refl _ _
  | succ chunks ih =>
    simp only [sparseChunks, rawWrites_succ, sparseChunk_eq]
    split
    · split
      · have wrote := mmcWrite_stays card ((ptn + totalBlocks * header.blkSz) % 2 ^ 64)
          (dataSz header (readChunkHeader ram data)) fun i => ram (bodyAt header data + i)
        unfold chunkWrite
        generalize mmcWrite _ _ _ _ = written at wrote ⊢
        rcases stopped : written.1 with _ | _
        · refine (wrote.trans (ih written.2 _ _)).mono fun a within => touches_cons.mpr ?_
          refine within.imp_right ?_
          rintro ⟨write, member, covered⟩
          exact ⟨write, member, (Card.covers_congr wrote.sameKind _ _ _).mp covered⟩
        · refine wrote.mono fun a within => ?_
          exact touches_cons.mpr (.inl within)
      · exact ih card _ _
    · exact Stays.refl _ _

theorem sparseChunks_overwrites (card : Card) (sure : card.outcomes = []) (chunks : Nat)
    (data totalBlocks : Nat) :
    ∃ update,
      Overwrites update (Touches card ptn (rawWrites ram header chunks data totalBlocks)) ∧
      ∀ content,
        (cardOf (sparseChunks ram ptn header chunks
          ⟨data, totalBlocks, { card with content := content }⟩)).content = update content := by
  have idle : Overwrites (fun memory : Nat → UInt8 => memory) (Touches card ptn []) :=
    overwrites_nothing fun a touched => by simp [Touches] at touched
  induction chunks generalizing data totalBlocks with
  | zero => exact ⟨_, idle, fun _ => rfl⟩
  | succ chunks ih =>
    simp only [sparseChunks, rawWrites_succ, sparseChunk_eq]
    split
    · obtain ⟨later, writes, rest⟩ := ih (nextHeader header (readChunkHeader ram data) data)
        ((totalBlocks + (readChunkHeader ram data).chunkSz) % 2 ^ 32)
      split
      · obtain ⟨first, wrote, ran⟩ := mmcWrite_overwrites card sure
          ((ptn + totalBlocks * header.blkSz) % 2 ^ 64) (dataSz header (readChunkHeader ram data))
          fun i => ram (bodyAt header data + i)
        refine ⟨_, (wrote.comp writes).congr fun a => touches_cons.symm, fun content => ?_⟩
        simp only [chunkWrite, ran, Bool.false_eq_true, if_false]
        exact rest _
      · exact ⟨later, writes, rest⟩
    · exact ⟨_, idle, fun _ => rfl⟩

end Loop

section Command

variable (entries : List PartitionEntry) (card : Card) (ram : Nat → UInt8) (arg : Text) (sz : Nat)

def Accepted : Prop :=
  partitionGetOffset entries (partitionGetIndex entries arg) ≠ 0 ∧
    roundToPage sz 511 ≤ partitionGetSize entries (partitionGetIndex entries arg)

variable {entries arg sz}

theorem cmdFlashMmcSparseImg_refused (refused : ¬ Accepted entries arg sz) :
    ∃ reason, ∀ card ram, cmdFlashMmcSparseImg entries card ram arg sz = ([.fail reason], card) := by
  unfold cmdFlashMmcSparseImg
  dsimp only
  split
  · exact ⟨_, fun _ _ => rfl⟩
  · rename_i found
    split
    · exact ⟨_, fun _ _ => rfl⟩
    · rename_i fits
      exact absurd ⟨found, Nat.le_of_not_lt fits⟩ refused

def imageLoop (entries : List PartitionEntry) (card : Card) (ram : Nat → UInt8) (arg : Text) :
    Except (Text × Card) Cursor :=
  sparseChunks ram (partitionGetOffset entries (partitionGetIndex entries arg))
    (readSparseHeader ram 0) (readSparseHeader ram 0).totalChunks ⟨firstHeader ram, 0, card⟩

theorem cmdFlashMmcSparseImg_accepted (accepted : Accepted entries arg sz) :
    cmdFlashMmcSparseImg entries card ram arg sz =
      (replies (readSparseHeader ram 0) (imageLoop entries card ram arg),
        cardOf (imageLoop entries card ram arg)) := by
  simp only [cmdFlashMmcSparseImg, if_neg accepted.1, if_neg (Nat.not_lt.mpr accepted.2),
    imageLoop, firstHeader]
  generalize sparseChunks _ _ _ _ _ = result
  rcases result with ⟨reason, left⟩ | final <;> rfl

/-- Flashing a sparse image writes only bytes of its partition, whatever the card holds
and however its transfers end, just when every raw chunk is written inside it. -/
theorem sparse_flash_confined_iff (entries : List PartitionEntry) (card : Card)
    (ram : Nat → UInt8) (arg : Text) (sz : Nat) :
    let ptn := partitionGetOffset entries (partitionGetIndex entries arg)
    let size := partitionGetSize entries (partitionGetIndex entries arg)
    (∀ content outcomes a,
      (cmdFlashMmcSparseImg entries { card with content := content, outcomes := outcomes }
        ram arg sz).2.content a ≠ content a → ptn ≤ a ∧ a < ptn + size) ↔
    (Accepted entries arg sz → ∀ write ∈ imageWrites ram, Inside card ptn size write) := by
  constructor
  · intro confined accepted
    have nontrivial : Nontrivial UInt8 := ⟨0, 1, by decide⟩
    obtain ⟨update, writes, ran⟩ := sparseChunks_overwrites ram
      (partitionGetOffset entries (partitionGetIndex entries arg)) (readSparseHeader ram 0)
      { card with outcomes := [] } rfl (readSparseHeader ram 0).totalChunks
      (skipHeader (readSparseHeader ram 0).fileHdrSz sparseHeaderSize
        (readSparseHeader ram 0).fileHdrSz) 0
    refine (touches_inside_iff card _ _ _).mp ((writes.confined_iff _).mp ?_)
    intro content a changed
    apply confined content [] a
    rw [cmdFlashMmcSparseImg_accepted _ _ accepted]
    exact (ran content).symm ▸ changed
  · intro inside content outcomes a changed
    by_cases accepted : Accepted entries arg sz
    · refine (touches_inside_iff card _ _ _).mpr (inside accepted) a ?_
      rw [cmdFlashMmcSparseImg_accepted _ _ accepted] at changed
      by_contra beyond
      exact changed ((sparseChunks_stays _ _ _ _ _ _ _).outside a beyond)
    · obtain ⟨reason, refused⟩ := cmdFlashMmcSparseImg_refused accepted
      rw [refused] at changed
      exact absurd rfl changed

end Command

def fifthBlock : SparseImage where
  majorVersion := 1
  minorVersion := 0
  imageChecksum := 0
  blkSz := 512
  chunks := [⟨0, 4, .dontCare⟩, ⟨0, 1, .raw (List.replicate 512 7)⟩]
  blkSz_pos := SparseExpansion.twoBlocks.blkSz_pos
  blkSz_dvd := SparseExpansion.twoBlocks.blkSz_dvd
  blkSz_lt := SparseExpansion.twoBlocks.blkSz_lt
  chunks_lt := by decide
  total_lt := by decide
  chunk_lt := by decide
  raw_length := by
    intro chunk member data raw
    rcases List.mem_pair.mp member with rfl | rfl
    · cases raw
    · cases raw
      exact List.length_replicate

theorem fifth_block_beyond_partition :
    let card : Card := ⟨true, fun _ => 0, []⟩
    let flashed := cmdFlashMmcSparseImg systemOnly card (fun i => (encode fifthBlock).getD i 0)
      "system".toList (encode fifthBlock).length
    let ptn := partitionGetOffset systemOnly (partitionGetIndex systemOnly "system".toList)
    let size := partitionGetSize systemOnly (partitionGetIndex systemOnly "system".toList)
    ∃ a, flashed.2.content a ≠ card.content a ∧ ¬ (ptn ≤ a ∧ a < ptn + size) :=
  ⟨2560, by decide +kernel⟩

end AndroidBoot.Aboot.SparseBounds
