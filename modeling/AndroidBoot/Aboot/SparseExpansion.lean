/- source: bootable/lk/app/aboot/aboot.c, sparse_format.h
   digest: Flashing a sparse image writes its reference expansion. -/

import AndroidBoot.Aboot.FastbootReplies
import AndroidBoot.Aboot.SparseFlash

set_option autoImplicit false

namespace AndroidBoot.Aboot.SparseExpansion

open Foundation.Memory Platform.Mmc
open Fastboot (Text Call)
open FastbootReplies (ReportsOkay reportsOkay_okay not_reportsOkay_fail)
open SparseFlash

inductive Body where
  | raw (data : List UInt8)
  | dontCare

/-- A chunk of a sparse image; `reserved` is not read. -/
structure Chunk where
  reserved : Nat
  blocks : Nat
  body : Body

def totalBlks (chunks : List Chunk) : Nat := (chunks.map Chunk.blocks).sum

/-- A well-formed sparse image; the versions and the checksum are not read. -/
structure SparseImage where
  majorVersion : Nat
  minorVersion : Nat
  imageChecksum : Nat
  blkSz : Nat
  chunks : List Chunk
  blkSz_pos : 0 < blkSz
  blkSz_dvd : blockSize ∣ blkSz
  blkSz_lt : blkSz < 2 ^ 32
  chunks_lt : chunks.length < 2 ^ 32
  total_lt : totalBlks chunks < 2 ^ 32
  chunk_lt : ∀ chunk ∈ chunks, chunk.blocks * blkSz < 2 ^ 32
  raw_length : ∀ chunk ∈ chunks, ∀ data, chunk.body = .raw data →
    data.length = chunk.blocks * blkSz

def encodeChunk (chunk : Chunk) : List UInt8 :=
  match chunk.body with
  | .raw data =>
    toLe16 chunkTypeRaw ++ toLe16 chunk.reserved ++ toLe32 chunk.blocks ++
      toLe32 (chunkHeaderSize + data.length) ++ data
  | .dontCare =>
    toLe16 chunkTypeDontCare ++ toLe16 chunk.reserved ++ toLe32 chunk.blocks ++
      toLe32 chunkHeaderSize

def encodeHeader (image : SparseImage) : List UInt8 :=
  toLe32 sparseHeaderMagic ++ toLe16 image.majorVersion ++ toLe16 image.minorVersion ++
    toLe16 sparseHeaderSize ++ toLe16 chunkHeaderSize ++ toLe32 image.blkSz ++
    toLe32 (totalBlks image.chunks) ++ toLe32 image.chunks.length ++ toLe32 image.imageChecksum

def encode (image : SparseImage) : List UInt8 :=
  encodeHeader image ++ image.chunks.flatMap encodeChunk

/-- The bytes that a chunk expands to; an empty one is not written. -/
def expandChunk (blkSz : Nat) (chunk : Chunk) : List (Option UInt8) :=
  match chunk.body with
  | .raw data => data.map some
  | .dontCare => List.replicate (chunk.blocks * blkSz) none

def expansion (image : SparseImage) : List (Option UInt8) :=
  image.chunks.flatMap (expandChunk image.blkSz)

def header (image : SparseImage) : SparseHeader where
  fileHdrSz := sparseHeaderSize
  chunkHdrSz := chunkHeaderSize
  blkSz := image.blkSz
  totalBlks := totalBlks image.chunks
  totalChunks := image.chunks.length

theorem readSparseHeader_encode {image : SparseImage} {ram : Nat → UInt8}
    (loaded : Agrees ram 0 (encodeHeader image)) : readSparseHeader ram 0 = header image := by
  simp only [encodeHeader, agrees_append, List.length_append, length_toLe16, length_toLe32,
    Nat.zero_add] at loaded
  obtain ⟨⟨⟨⟨⟨-, fileHdr⟩, chunkHdr⟩, blk⟩, total⟩, count⟩ := loaded.1
  rw [readSparseHeader, header, le16_of_agrees fileHdr, le16_of_agrees chunkHdr,
    le32_of_agrees blk image.blkSz_lt, le32_of_agrees total image.total_lt,
    le32_of_agrees count image.chunks_lt]
  rfl

/-- The loop went over `blocks` blocks of `dataLen` bytes in the file, and wrote these
cells; it does not fail if no transfer does. -/
structure Advances (blkSz ptn : Nat) (cursor : Cursor) (dataLen blocks : Nat)
    (cells : List (Option UInt8)) (result : Except (Text × Card) Cursor) : Prop where
  moved : ∀ next, result = .ok next →
    next.data = cursor.data + dataLen ∧ next.totalBlocks = cursor.totalBlocks + blocks ∧
      next.card.highCapacity = cursor.card.highCapacity ∧
      next.card.content =
        overlay cursor.card.content (ptn + cursor.totalBlocks * blkSz) cells
  succeeds : cursor.card.Reliable → ∃ next, result = .ok next ∧ next.card.Reliable

structure Fits (blkSz : Nat) (chunk : Chunk) : Prop where
  chunk_lt : chunk.blocks * blkSz < 2 ^ 32
  raw_length : ∀ data, chunk.body = .raw data → data.length = chunk.blocks * blkSz

section Chunks

variable {image : SparseImage} {ram : Nat → UInt8} {ptn : Nat}

variable {chunk : Chunk}

theorem Fits.blocks_lt (fits : Fits image.blkSz chunk) : chunk.blocks < 2 ^ 32 := by
  have := fits.chunk_lt
  have := Nat.le_mul_of_pos_right chunk.blocks image.blkSz_pos
  omega

private theorem rawSize_lt {chunk : Chunk} (fits : Fits image.blkSz chunk) :
    chunkHeaderSize + chunk.blocks * image.blkSz < 2 ^ 32 := by
  have small := fits.chunk_lt
  obtain ⟨k, whole⟩ := Nat.dvd_mul_left_of_dvd image.blkSz_dvd chunk.blocks
  unfold blockSize at whole
  unfold chunkHeaderSize
  omega

private theorem skipHeader_self (data size : Nat) : skipHeader data size size = data :=
  if_neg (Nat.lt_irrefl size)

private theorem readChunkHeader_raw {cursor : Cursor} {chunk : Chunk} {data : List UInt8}
    (raw : chunk.body = .raw data) (fits : Fits image.blkSz chunk)
    (loaded : Agrees ram cursor.data (encodeChunk chunk)) :
    readChunkHeader ram cursor.data =
        ⟨chunkTypeRaw, chunk.blocks, chunkHeaderSize + chunk.blocks * image.blkSz⟩ ∧
      Agrees ram (cursor.data + chunkHeaderSize) data := by
  have length := fits.raw_length data raw
  have size := rawSize_lt fits
  simp only [encodeChunk, raw, agrees_append, List.length_append, length_toLe16,
    length_toLe32, Nat.reduceAdd] at loaded
  obtain ⟨⟨⟨⟨type, -⟩, blocks⟩, total⟩, bytes⟩ := loaded
  refine ⟨?_, bytes⟩
  rw [readChunkHeader, le16_of_agrees type, le32_of_agrees blocks fits.blocks_lt,
    le32_of_agrees total (by omega), length]
  rfl

private theorem readChunkHeader_dontCare {cursor : Cursor} {chunk : Chunk}
    (empty : chunk.body = .dontCare) (fits : Fits image.blkSz chunk)
    (loaded : Agrees ram cursor.data (encodeChunk chunk)) :
    readChunkHeader ram cursor.data = ⟨chunkTypeDontCare, chunk.blocks, chunkHeaderSize⟩ := by
  simp only [encodeChunk, empty, agrees_append, List.length_append, length_toLe16,
    length_toLe32, Nat.reduceAdd] at loaded
  obtain ⟨⟨⟨type, -⟩, blocks⟩, total⟩ := loaded
  rw [readChunkHeader, le16_of_agrees type, le32_of_agrees blocks fits.blocks_lt,
    le32_of_agrees total (by decide)]
  rfl

theorem sparseChunk_raw {cursor : Cursor} {data : List UInt8}
    (raw : chunk.body = .raw data) (aligned : blockSize ∣ ptn)
    (fits : Fits image.blkSz chunk) (loaded : Agrees ram cursor.data (encodeChunk chunk))
    (counted : cursor.totalBlocks + chunk.blocks < 2 ^ 32)
    (reached : ptn + (cursor.totalBlocks + chunk.blocks) * image.blkSz ≤ cursor.card.reach) :
    Advances image.blkSz ptn cursor (encodeChunk chunk).length chunk.blocks
      (expandChunk image.blkSz chunk) (sparseChunk ram ptn (header image) cursor) := by
  obtain ⟨read, bytes⟩ := readChunkHeader_raw raw fits loaded
  have length := fits.raw_length data raw
  have size := rawSize_lt fits
  have inReach := cursor.card.reach_lt
  rw [Nat.add_mul] at reached
  have start : (ptn + cursor.totalBlocks * image.blkSz) % 2 ^ 64 =
      ptn + cursor.totalBlocks * image.blkSz := Nat.mod_eq_of_lt (by omega)
  have product : image.blkSz * chunk.blocks % 2 ^ 32 = chunk.blocks * image.blkSz := by
    rw [Nat.mul_comm, Nat.mod_eq_of_lt fits.chunk_lt]
  have wrote : Wrote cursor.card (ptn + cursor.totalBlocks * image.blkSz)
      (chunk.blocks * image.blkSz) (fun i => ram (cursor.data + chunkHeaderSize + i))
      (mmcWrite cursor.card (ptn + cursor.totalBlocks * image.blkSz)
        (chunk.blocks * image.blkSz) fun i => ram (cursor.data + chunkHeaderSize + i)) :=
    mmcWrite_wrote (Nat.dvd_add aligned (Nat.dvd_mul_left_of_dvd image.blkSz_dvd _))
      (Nat.dvd_mul_left_of_dvd image.blkSz_dvd _) (by omega)
  simp only [sparseChunk, read, header, product, start, skipHeader_self,
    Nat.mod_eq_of_lt size, Nat.mod_eq_of_lt counted, ne_eq, not_true_eq_false, if_false, if_true]
  generalize mmcWrite _ _ _ _ = written at wrote ⊢
  rcases stopped : written.1 with _ | _
  · refine ⟨?_, fun sure => ⟨_, if_neg nofun, (wrote.succeeds sure).2⟩⟩
    rintro next ran
    cases ran
    refine ⟨?_, rfl, wrote.sameKind, ?_⟩
    · simp only [encodeChunk, raw, List.length_append, length_toLe16, length_toLe32, length,
        chunkHeaderSize]
      omega
    · rw [wrote.written stopped, expandChunk, raw, ← length]
      exact (overlay_map_some _ _ _ _ bytes.shift).symm
  · refine ⟨nofun, fun sure => ?_⟩
    have passed := (wrote.succeeds sure).1
    rw [stopped] at passed
    cases passed

theorem sparseChunk_dontCare {cursor : Cursor} (empty : chunk.body = .dontCare)
    (fits : Fits image.blkSz chunk) (loaded : Agrees ram cursor.data (encodeChunk chunk))
    (counted : cursor.totalBlocks + chunk.blocks < 2 ^ 32) :
    Advances image.blkSz ptn cursor (encodeChunk chunk).length chunk.blocks
      (expandChunk image.blkSz chunk) (sparseChunk ram ptn (header image) cursor) := by
  have other : chunkTypeDontCare ≠ chunkTypeRaw := by decide
  simp only [sparseChunk, readChunkHeader_dontCare empty fits loaded, header, skipHeader_self,
    Nat.mod_eq_of_lt counted, if_neg other, if_true]
  refine ⟨?_, fun sure => ⟨_, rfl, sure⟩⟩
  rintro next ran
  cases ran
  refine ⟨?_, rfl, rfl, ?_⟩
  · simp [encodeChunk, empty, length_toLe16, length_toLe32, chunkHeaderSize]
  · rw [expandChunk, empty]
    exact (overlay_replicate_none _ _ _).symm

theorem length_expandChunk (fits : Fits image.blkSz chunk) :
    (expandChunk image.blkSz chunk).length = chunk.blocks * image.blkSz := by
  rcases kind : chunk.body with data | _
  · simp [expandChunk, kind, fits.raw_length data kind]
  · simp [expandChunk, kind]

theorem sparseChunks_advances (aligned : blockSize ∣ ptn) (chunks : List Chunk) (cursor : Cursor)
    (fits : ∀ chunk ∈ chunks, Fits image.blkSz chunk)
    (loaded : Agrees ram cursor.data (chunks.flatMap encodeChunk))
    (counted : cursor.totalBlocks + totalBlks chunks < 2 ^ 32)
    (reached : ptn + (cursor.totalBlocks + totalBlks chunks) * image.blkSz ≤ cursor.card.reach) :
    Advances image.blkSz ptn cursor (chunks.flatMap encodeChunk).length (totalBlks chunks)
      (chunks.flatMap (expandChunk image.blkSz))
      (sparseChunks ram ptn (header image) chunks.length cursor) := by
  induction chunks generalizing cursor with
  | nil =>
    refine ⟨?_, fun sure => ⟨cursor, rfl, sure⟩⟩
    rintro next ran
    cases ran
    exact ⟨rfl, rfl, rfl, (overlay_nil _ _).symm⟩
  | cons chunk rest ih =>
    have total : totalBlks (chunk :: rest) = chunk.blocks + totalBlks rest := by
      simp [totalBlks]
    rw [List.flatMap_cons, agrees_append] at loaded
    rw [total] at counted reached ⊢
    rw [← Nat.add_assoc] at counted reached
    rw [List.forall_mem_cons] at fits
    have one : Advances image.blkSz ptn cursor (encodeChunk chunk).length chunk.blocks
        (expandChunk image.blkSz chunk) (sparseChunk ram ptn (header image) cursor) := by
      rcases kind : chunk.body with data | _
      · refine sparseChunk_raw kind aligned fits.1 loaded.1 (by omega) (Nat.le_trans ?_ reached)
        exact Nat.add_le_add_left (Nat.mul_le_mul_right _ (by omega)) _
      · exact sparseChunk_dontCare kind fits.1 loaded.1 (by omega)
    rw [List.length_cons, sparseChunks]
    rcases ran : sparseChunk ram ptn (header image) cursor with failure | next
    · refine ⟨nofun, fun sure => ?_⟩
      obtain ⟨next, passed, -⟩ := one.succeeds sure
      rw [ran] at passed
      cases passed
    · obtain ⟨data, blocks, kind, content⟩ := one.moved next ran
      have reach : next.card.reach = cursor.card.reach := by
        rw [Card.reach, kind, Card.reach]
      have later := ih next fits.2 (by rw [data]; exact loaded.2) (by omega)
        (by rw [blocks, reach]; exact reached)
      refine ⟨fun final done => ?_, fun sure => ?_⟩
      · obtain ⟨data', blocks', kind', content'⟩ := later.moved final done
        refine ⟨?_, by omega, kind'.trans kind, ?_⟩
        · rw [List.flatMap_cons, List.length_append]
          omega
        · rw [content', content, blocks, List.flatMap_cons, overlay_append,
            length_expandChunk fits.1, Nat.add_mul, Nat.add_assoc]
      · obtain ⟨next', ran', sure'⟩ := one.succeeds sure
        rw [ran] at ran'
        cases ran'
        exact later.succeeds sure'

end Chunks

theorem SparseImage.fits (image : SparseImage) : ∀ chunk ∈ image.chunks, Fits image.blkSz chunk :=
  fun chunk member => ⟨image.chunk_lt chunk member, image.raw_length chunk member⟩

theorem length_expansion (image : SparseImage) :
    (expansion image).length = totalBlks image.chunks * image.blkSz := by
  have each : ∀ chunks : List Chunk, (∀ chunk ∈ chunks, Fits image.blkSz chunk) →
      (chunks.flatMap (expandChunk image.blkSz)).length = totalBlks chunks * image.blkSz := by
    intro chunks fits
    induction chunks with
    | nil => simp [totalBlks]
    | cons chunk rest ih =>
      rw [List.forall_mem_cons] at fits
      rw [List.flatMap_cons, List.length_append, length_expandChunk fits.1, ih fits.2]
      simp [totalBlks, Nat.add_mul]
  exact each image.chunks image.fits

private theorem blockSize_dvd_offset (entries : List PartitionEntry) (index : Option Nat) :
    blockSize ∣ partitionGetOffset entries index := by
  unfold partitionGetOffset blockSize
  split <;> omega

private theorem roundToPage_le_size {entries : List PartitionEntry} {index : Option Nat} {sz : Nat}
    (fits : sz ≤ partitionGetSize entries index) :
    roundToPage sz 511 ≤ partitionGetSize entries index := by
  rw [roundToPage_block]
  unfold partitionGetSize blockSize at *
  split at fits <;> omega

/-- Flashing a well-formed sparse image whose file and expansion fit the partition. When
OKAY is reported the card holds the expansion over what it held before, and OKAY is
reported if no card write fails. -/
theorem sparse_flash_expands (entries : List PartitionEntry) (arg : Text) (card : Card)
    (ram : Nat → UInt8) (image : SparseImage)
    (found : partitionGetOffset entries (partitionGetIndex entries arg) ≠ 0)
    (onCard : partitionGetOffset entries (partitionGetIndex entries arg) +
      partitionGetSize entries (partitionGetIndex entries arg) ≤ card.reach)
    (loaded : Agrees ram 0 (encode image))
    (fileFits : (encode image).length ≤ partitionGetSize entries (partitionGetIndex entries arg))
    (expansionFits : (expansion image).length ≤
      partitionGetSize entries (partitionGetIndex entries arg)) :
    let flashed := cmdFlashMmcSparseImg entries card ram arg (encode image).length
    (ReportsOkay flashed.1 →
      flashed.2.content = overlay card.content
        (partitionGetOffset entries (partitionGetIndex entries arg)) (expansion image)) ∧
    (card.Reliable → ReportsOkay flashed.1) := by
  rw [encode, agrees_append] at loaded
  have size := roundToPage_le_size fileFits
  have length := length_expansion image
  have walked := sparseChunks_advances (blockSize_dvd_offset entries (partitionGetIndex entries arg))
    image.chunks ⟨sparseHeaderSize, 0, card⟩ image.fits loaded.2 (by simpa using image.total_lt)
    (by simp only [Nat.zero_add]; omega)
  simp only [cmdFlashMmcSparseImg, if_neg found, if_neg (Nat.not_lt.mpr size),
    readSparseHeader_encode loaded.1]
  simp only [header, skipHeader_self] at walked ⊢
  generalize sparseChunks _ _ _ _ _ = result at walked ⊢
  rcases result with ⟨reason, card'⟩ | final
  · refine ⟨fun okay => absurd okay (not_reportsOkay_fail _ _), fun sure => ?_⟩
    obtain ⟨next, passed, -⟩ := walked.succeeds sure
    cases passed
  · obtain ⟨-, blocks, -, content⟩ := walked.moved final rfl
    simp only [Nat.zero_add] at blocks
    simp only [blocks, ne_eq, not_true_eq_false, if_false, List.nil_append]
    refine ⟨fun _ => ?_, fun _ => reportsOkay_okay _⟩
    simpa [expansion] using content

def twoBlocks : SparseImage where
  majorVersion := 1
  minorVersion := 0
  imageChecksum := 0
  blkSz := 512
  chunks := [⟨0, 1, .raw (List.replicate 512 7)⟩, ⟨0, 1, .dontCare⟩]
  blkSz_pos := by decide
  blkSz_dvd := by decide
  blkSz_lt := by decide
  chunks_lt := by decide
  total_lt := by decide
  chunk_lt := by decide
  raw_length := by
    intro chunk member data raw
    rcases List.mem_pair.mp member with rfl | rfl
    · cases raw
      exact List.length_replicate
    · cases raw

def systemOnly : List PartitionEntry := [⟨"system".toList, 1, 4⟩]

theorem sparse_flash_expands_twoBlocks :
    let card : Card := ⟨true, fun _ => 0, []⟩
    let flashed := cmdFlashMmcSparseImg systemOnly card (fun i => (encode twoBlocks).getD i 0)
      "system".toList (encode twoBlocks).length
    ReportsOkay flashed.1 ∧ flashed.2.content 1023 = 7 ∧ flashed.2.content 1024 = 0 := by
  have both := sparse_flash_expands systemOnly "system".toList ⟨true, fun _ => 0, []⟩
    (fun i => (encode twoBlocks).getD i 0) twoBlocks (by decide) (by decide) (agrees_getD _ _)
    (by decide +kernel) (by decide +kernel)
  have okay := both.2 (by simp [Card.Reliable])
  have content := both.1 okay
  refine ⟨okay, ?_, ?_⟩
  · decide +kernel
  · rw [content]
    decide +kernel

end AndroidBoot.Aboot.SparseExpansion
