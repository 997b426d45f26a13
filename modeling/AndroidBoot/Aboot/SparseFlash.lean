/- source: bootable/lk/app/aboot/aboot.c, sparse_format.h
   digest: Flashing of sparse images, as the code walks over them. -/

import AndroidBoot.Aboot.Fastboot
import AndroidBoot.Platform.Mmc

/-!
The image stands in RAM from the download base on; addresses are relative to that base.
The code never compares its cursor with the size of the download, so the RAM is a total
function.
-/

set_option autoImplicit false

namespace AndroidBoot.Aboot.SparseFlash

open Foundation.Memory Platform.Mmc
open Fastboot (Text Call)

/-- The fields of `sparse_header_t` that the code uses. -/
structure SparseHeader where
  fileHdrSz : Nat
  chunkHdrSz : Nat
  blkSz : Nat
  totalBlks : Nat
  totalChunks : Nat

/-- The fields of `chunk_header_t` that the code uses. -/
structure ChunkHeader where
  chunkType : Nat
  chunkSz : Nat
  totalSz : Nat

def sparseHeaderMagic : Nat := 0xed26ff3a

def sparseHeaderSize : Nat := 28

def chunkHeaderSize : Nat := 12

def chunkTypeRaw : Nat := 0xCAC1

def chunkTypeDontCare : Nat := 0xCAC3

def chunkTypeCrc : Nat := 0xCAC4

def readSparseHeader (ram : Nat → UInt8) (data : Nat) : SparseHeader where
  fileHdrSz := le16 ram (data + 8)
  chunkHdrSz := le16 ram (data + 10)
  blkSz := le32 ram (data + 12)
  totalBlks := le32 ram (data + 16)
  totalChunks := le32 ram (data + 20)

def readChunkHeader (ram : Nat → UInt8) (data : Nat) : ChunkHeader where
  chunkType := le16 ram data
  chunkSz := le32 ram (data + 4)
  totalSz := le32 ram (data + 8)

structure Cursor where
  data : Nat
  totalBlocks : Nat
  card : Card

def skipHeader (data size headerSz : Nat) : Nat :=
  if size < headerSz then data + (headerSz - size) else data

/-- One round of the loop; an error is the text of the failure, with the card. -/
def sparseChunk (ram : Nat → UInt8) (ptn : Nat) (header : SparseHeader) (cursor : Cursor) :
    Except (Text × Card) Cursor :=
  let chunk := readChunkHeader ram cursor.data
  let data := skipHeader (cursor.data + chunkHeaderSize) chunkHeaderSize header.chunkHdrSz
  let chunkDataSz := header.blkSz * chunk.chunkSz % 2 ^ 32
  let totalBlocks := (cursor.totalBlocks + chunk.chunkSz) % 2 ^ 32
  if chunk.chunkType = chunkTypeRaw then
    if chunk.totalSz ≠ (header.chunkHdrSz + chunkDataSz) % 2 ^ 32 then
      .error ("Bogus chunk size for chunk type Raw".toList, cursor.card)
    else
      let written := mmcWrite cursor.card
        ((ptn + cursor.totalBlocks * header.blkSz) % 2 ^ 64) chunkDataSz fun i => ram (data + i)
      if written.1 then .error ("flash write failure".toList, written.2)
      else .ok ⟨data + chunkDataSz, totalBlocks, written.2⟩
  else if chunk.chunkType = chunkTypeDontCare then
    .ok ⟨data, totalBlocks, cursor.card⟩
  else if chunk.chunkType = chunkTypeCrc then
    if chunk.totalSz ≠ header.chunkHdrSz then
      .error ("Bogus chunk size for chunk type Dont Care".toList, cursor.card)
    else .ok ⟨data + chunkDataSz, totalBlocks, cursor.card⟩
  else .error ("Unknown chunk type".toList, cursor.card)

def sparseChunks (ram : Nat → UInt8) (ptn : Nat) (header : SparseHeader) :
    Nat → Cursor → Except (Text × Card) Cursor
  | 0, cursor => .ok cursor
  | chunks + 1, cursor =>
    match sparseChunk ram ptn header cursor with
    | .error failure => .error failure
    | .ok cursor => sparseChunks ram ptn header chunks cursor

/-- `cmd_flash_mmc_sparse_img`: the calls it makes into `fastboot.c`, and the card. -/
def cmdFlashMmcSparseImg (entries : List PartitionEntry) (card : Card) (ram : Nat → UInt8)
    (arg : Text) (sz : Nat) : List Call × Card :=
  let index := partitionGetIndex entries arg
  let ptn := partitionGetOffset entries index
  if ptn = 0 then ([.fail (some "partition table doesn't exist".toList)], card)
  else if partitionGetSize entries index < roundToPage sz 511 then
    ([.fail (some "size too large".toList)], card)
  else
    let header := readSparseHeader ram 0
    -- a longer header is skipped twice over what is expected of it
    let data := skipHeader header.fileHdrSz sparseHeaderSize header.fileHdrSz
    match sparseChunks ram ptn header header.totalChunks ⟨data, 0, card⟩ with
    | .error (reason, card) => ([.fail (some reason)], card)
    | .ok cursor =>
      -- there is no return after the failure
      let mismatch :=
        if cursor.totalBlocks ≠ header.totalBlks then
          [Call.fail (some "sparse image write failure".toList)]
        else []
      (mismatch ++ [.okay (some [])], cursor.card)

end AndroidBoot.Aboot.SparseFlash

namespace AndroidBoot.Aboot.SparseWalk

open Platform.Mmc
open Fastboot (Text Call)
open SparseFlash

def dataSz (header : SparseHeader) (chunk : ChunkHeader) : Nat :=
  header.blkSz * chunk.chunkSz % 2 ^ 32

def wellFormed (header : SparseHeader) (chunk : ChunkHeader) : Bool :=
  if chunk.chunkType = chunkTypeRaw then
    chunk.totalSz = (header.chunkHdrSz + dataSz header chunk) % 2 ^ 32
  else if chunk.chunkType = chunkTypeDontCare then true
  else if chunk.chunkType = chunkTypeCrc then chunk.totalSz = header.chunkHdrSz
  else false

def bodyAt (header : SparseHeader) (p : Nat) : Nat :=
  skipHeader (p + chunkHeaderSize) chunkHeaderSize header.chunkHdrSz

def nextHeader (header : SparseHeader) (chunk : ChunkHeader) (p : Nat) : Nat :=
  if chunk.chunkType = chunkTypeDontCare then bodyAt header p
  else bodyAt header p + dataSz header chunk

section Round

variable (ram : Nat → UInt8) (ptn : Nat) (header : SparseHeader)

def chunkWrite (cursor : Cursor) : Bool × Card :=
  mmcWrite cursor.card ((ptn + cursor.totalBlocks * header.blkSz) % 2 ^ 64)
    (dataSz header (readChunkHeader ram cursor.data)) fun i => ram (bodyAt header cursor.data + i)

def passed (chunk : ChunkHeader) (cursor : Cursor) (card : Card) : Cursor :=
  ⟨nextHeader header chunk cursor.data, (cursor.totalBlocks + chunk.chunkSz) % 2 ^ 32, card⟩

def complaint (chunk : ChunkHeader) : Text :=
  if chunk.chunkType = chunkTypeRaw then "Bogus chunk size for chunk type Raw".toList
  else if chunk.chunkType = chunkTypeCrc then "Bogus chunk size for chunk type Dont Care".toList
  else "Unknown chunk type".toList

theorem sparseChunk_eq (cursor : Cursor) :
    sparseChunk ram ptn header cursor =
      let chunk := readChunkHeader ram cursor.data
      if wellFormed header chunk then
        if chunk.chunkType = chunkTypeRaw then
          if (chunkWrite ram ptn header cursor).1 then
            .error ("flash write failure".toList, (chunkWrite ram ptn header cursor).2)
          else .ok (passed header chunk cursor (chunkWrite ram ptn header cursor).2)
        else .ok (passed header chunk cursor cursor.card)
      else .error (complaint chunk, cursor.card) := by
  have other : chunkTypeRaw ≠ chunkTypeDontCare := by decide
  unfold sparseChunk wellFormed passed nextHeader complaint
  dsimp only
  split
  · rename_i raw
    simp only [raw, if_neg other, ne_eq, ite_not, decide_eq_true_eq]
    rfl
  · split
    · rfl
    · split
      · simp only [ne_eq, ite_not, decide_eq_true_eq]
        rfl
      · rfl

end Round

def firstHeader (ram : Nat → UInt8) : Nat :=
  skipHeader (readSparseHeader ram 0).fileHdrSz sparseHeaderSize (readSparseHeader ram 0).fileHdrSz

def replies (header : SparseHeader) : Except (Text × Card) Cursor → List Call
  | .error failure => [.fail (some failure.1)]
  | .ok cursor =>
    (if cursor.totalBlocks ≠ header.totalBlks then
      [.fail (some "sparse image write failure".toList)] else []) ++ [.okay (some [])]

end AndroidBoot.Aboot.SparseWalk
