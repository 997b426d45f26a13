/- source: bootable/lk/app/aboot/aboot.c, platform/msm_shared/mmc.c
   digest: Which sparse images are flashed as their headers say when the reply is OKAY. -/

import AndroidBoot.Aboot.SparseWalk

set_option autoImplicit false

namespace AndroidBoot.Aboot.SparseHonesty

open Foundation.Memory Platform.Mmc
open Fastboot (Text)
open FastbootReplies (ReportsOkay reportsOkay_okay)
open SparseFlash SparseBounds SparseWalk

structure Honest (ram : Nat → UInt8) (headers : List Nat) : Prop where
  blocks : blocksOf ram headers = (readSparseHeader ram 0).totalBlks
  raw : ∀ p ∈ headers, (readChunkHeader ram p).chunkType = chunkTypeRaw →
    padded (dataSz (readSparseHeader ram 0) (readChunkHeader ram p)) =
      (readChunkHeader ram p).chunkSz * (readSparseHeader ram 0).blkSz

structure Unwrapped (ram : Nat → UInt8) : Prop where
  blocks : blocksOf ram (imageWalk ram) < 2 ^ 32
  raw : ∀ p ∈ imageWalk ram, (readChunkHeader ram p).chunkType = chunkTypeRaw →
    (readChunkHeader ram p).chunkSz * (readSparseHeader ram 0).blkSz < 2 ^ 32 ∧
      blockSize ∣ (readChunkHeader ram p).chunkSz * (readSparseHeader ram 0).blkSz

theorem padded_le (n : Nat) : padded (n % 2 ^ 32) < 2 ^ 32 ∧ blockSize ∣ padded (n % 2 ^ 32) := by
  unfold padded blockSize
  split
  · rw [roundToPage_block]
    exact ⟨by omega, Nat.dvd_mul_left _ _⟩
  case isFalse whole => exact ⟨Nat.mod_lt _ (by decide), Nat.dvd_of_mod_eq_zero (by omega)⟩

theorem padded_product_iff (n : Nat) : padded (n % 2 ^ 32) = n ↔ n < 2 ^ 32 ∧ blockSize ∣ n := by
  constructor
  · intro same
    have bounds := padded_le n
    rwa [same] at bounds
  · rintro ⟨small, whole⟩
    rw [Nat.mod_eq_of_lt small]
    exact if_neg (not_not.mpr (Nat.mod_eq_zero_of_dvd whole))

variable (entries : List PartitionEntry) (card : Card) (ram : Nat → UInt8) (arg : Text) (sz : Nat)

def HonestReplies : Prop :=
  ∀ content outcomes,
    ReportsOkay (cmdFlashMmcSparseImg entries
        { card with content := content, outcomes := outcomes } ram arg sz).1 →
      Honest ram (headerReads entries { card with content := content, outcomes := outcomes }
        ram arg sz)

theorem sparse_okay_honest_iff :
    HonestReplies entries card ram arg sz ↔
      (Accepted entries arg sz →
        (∀ p ∈ imageWalk ram, wellFormed (readSparseHeader ram 0) (readChunkHeader ram p) = true) →
        blocksOf ram (imageWalk ram) % 2 ^ 32 = (readSparseHeader ram 0).totalBlks →
        Unwrapped ram) := by
  have product (p : Nat) : dataSz (readSparseHeader ram 0) (readChunkHeader ram p) =
      (readChunkHeader ram p).chunkSz * (readSparseHeader ram 0).blkSz % 2 ^ 32 := by
    rw [dataSz, Nat.mul_comm]
  constructor
  · intro honest accepted fine total
    obtain ⟨final, ended⟩ := @sparseChunks_sure ram
      (partitionGetOffset entries (partitionGetIndex entries arg)) (readSparseHeader ram 0)
      ⟨firstHeader ram, 0, { card with outcomes := [] }⟩ (readSparseHeader ram 0).totalChunks
      rfl fine
    obtain ⟨-, -, counted⟩ := sparseChunks_ok (Nat.two_pow_pos 32) ended
    rw [Nat.zero_add] at counted
    have told := honest card.content [] (reportsOkay_iff.mpr
      ⟨accepted, final, ended, counted.trans total⟩)
    rw [headerReads_sure accepted rfl] at told
    refine ⟨?_, fun p member raw => ?_⟩
    · rw [told.blocks]
      exact le32_lt _ _
    · exact (padded_product_iff _).mp (product p ▸ told.raw p member raw)
  · intro unwrapped content outcomes okay
    obtain ⟨accepted, final, ended, same⟩ := reportsOkay_iff.mp okay
    obtain ⟨fine, visits, counted⟩ := sparseChunks_ok (Nat.two_pow_pos 32) ended
    rw [Nat.zero_add] at counted
    have total := counted.symm.trans same
    obtain ⟨small, whole⟩ := unwrapped accepted fine total
    have reads : headerReads entries { card with content := content, outcomes := outcomes }
        ram arg sz = imageWalk ram := (headerReads_accepted accepted).trans visits
    rw [reads]
    refine ⟨?_, fun p member raw => ?_⟩
    · rw [← total]
      exact (Nat.mod_eq_of_lt small).symm
    · rw [product p]
      exact (padded_product_iff _).mpr (whole p member raw)

/-- A file header with blocks of 4096 bytes and one chunk, and a raw chunk of `2 ^ 20` blocks
without data: the size of the data is 0 modulo `2 ^ 32`. -/
def hugeChunk : List UInt8 :=
  toLe32 sparseHeaderMagic ++ toLe16 1 ++ toLe16 0 ++ toLe16 28 ++ toLe16 12 ++ toLe32 4096 ++
    toLe32 0x100000 ++ toLe32 1 ++ toLe32 0 ++
    (toLe16 chunkTypeRaw ++ toLe16 0 ++ toLe32 0x100000 ++ toLe32 12)

theorem huge_chunk_dishonest :
    let card : Card := ⟨true, fun _ => 0, []⟩
    let ram : Nat → UInt8 := fun i => hugeChunk.getD i 0
    ReportsOkay (cmdFlashMmcSparseImg SparseExpansion.systemOnly card ram "system".toList 40).1 ∧
      headerReads SparseExpansion.systemOnly card ram "system".toList 40 = [28] ∧
      padded (dataSz (readSparseHeader ram 0) (readChunkHeader ram 28)) = 0 ∧
      ¬ HonestReplies SparseExpansion.systemOnly card ram "system".toList 40 := by
  have replied : (cmdFlashMmcSparseImg SparseExpansion.systemOnly ⟨true, fun _ => 0, []⟩
      (fun i => hugeChunk.getD i 0) "system".toList 40).1 = [.okay (some [])] := by
    decide +kernel
  have okay := reportsOkay_okay (some [])
  rw [← replied] at okay
  have reads : headerReads SparseExpansion.systemOnly ⟨true, fun _ => 0, []⟩
      (fun i => hugeChunk.getD i 0) "system".toList 40 = [28] := by
    decide +kernel
  refine ⟨okay, reads, by decide +kernel, fun honest => ?_⟩
  have told := honest (fun _ => 0) [] okay
  have written := told.raw 28 (by rw [reads]; exact List.mem_singleton_self 28) (by decide +kernel)
  exact absurd written (by decide +kernel)

end AndroidBoot.Aboot.SparseHonesty
