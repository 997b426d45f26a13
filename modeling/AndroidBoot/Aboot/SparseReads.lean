/- source: bootable/lk/app/aboot/aboot.c, sparse_format.h, include/debug.h
   digest: Which bytes of memory the parser of sparse images reads. -/

import AndroidBoot.Aboot.SparseWalk

/-!
Pointers have 32 bits: the byte at `start + i` is at this offset from the image modulo
`2 ^ 32`. With `spew` the debug level is `SPEW`, and all fields of a header are printed.
-/

set_option autoImplicit false

namespace AndroidBoot.Aboot.SparseReads

open Foundation.Memory Platform.Mmc
open Fastboot (Text)
open SparseFlash SparseBounds SparseWalk
open SparseExpansion (encode systemOnly twoBlocks)

structure Span where
  start : Nat
  len : Nat
  deriving DecidableEq

def Span.Below (span : Span) (sz : Nat) : Prop :=
  ∀ i, i < span.len → (span.start + i) % 2 ^ 32 < sz

def Span.Within (span : Span) (sz : Nat) : Prop :=
  span.len = 0 ∨ span.start % 2 ^ 32 + span.len ≤ sz

instance decidableWithin (span : Span) (sz : Nat) : Decidable (span.Within sz) :=
  inferInstanceAs (Decidable (_ ∨ _))

theorem Span.below_iff {span : Span} {sz : Nat} (small : sz < 2 ^ 32) :
    span.Below sz ↔ span.Within sz := by
  constructor
  · intro below
    by_contra beyond
    unfold Span.Within at beyond
    by_cases first : span.start % 2 ^ 32 < sz
    · have reached := below (sz - span.start % 2 ^ 32) (by omega)
      omega
    · have reached := below 0 (by omega)
      omega
  · intro within i inside
    rcases within with empty | ends
    · omega
    · omega

def fileFields (spew : Bool) : List Span :=
  [⟨8, 2⟩, ⟨10, 2⟩, ⟨12, 4⟩, ⟨16, 4⟩, ⟨20, 4⟩] ++ if spew then [⟨0, 4⟩, ⟨4, 2⟩, ⟨6, 2⟩] else []

/-- What one round reads of the chunk at `p`: `chunk_type` and `chunk_sz`, `total_sz` where it is
tested or printed, and the data that is written; `size` gives the length of those. -/
def chunkSpans (spew : Bool) (size : Nat → Nat) (ram : Nat → UInt8) (header : SparseHeader)
    (p : Nat) : List Span :=
  let chunk := readChunkHeader ram p
  [⟨p, 2⟩, ⟨p + 4, 4⟩] ++
    (if spew ∨ chunk.chunkType = chunkTypeRaw ∨ chunk.chunkType = chunkTypeCrc then [⟨p + 8, 4⟩]
      else []) ++
    if chunk.chunkType = chunkTypeRaw ∧ wellFormed header chunk then
      [⟨bodyAt header p, size (dataSz header chunk)⟩]
    else []

theorem data_mem {ram : Nat → UInt8} {header : SparseHeader} {p : Nat} (spew : Bool)
    (size : Nat → Nat) (raw : (readChunkHeader ram p).chunkType = chunkTypeRaw)
    (formed : wellFormed header (readChunkHeader ram p) = true) :
    (⟨bodyAt header p, size (dataSz header (readChunkHeader ram p))⟩ : Span) ∈
      chunkSpans spew size ram header p := by
  refine List.mem_append_right _ ?_
  rw [if_pos ⟨raw, formed⟩]
  exact List.mem_singleton_self _

section Command

variable (entries : List PartitionEntry) (card : Card) (ram : Nat → UInt8) (arg : Text) (sz : Nat)

def reads (spew : Bool) (size : Nat → Nat) : List Span :=
  if Accepted entries arg sz then
    fileFields spew ++ (headerReads entries card ram arg sz).flatMap
      (chunkSpans spew size ram (readSparseHeader ram 0))
  else []

/-- Every byte that the command reads is one of the download, whatever the card holds and however
its transfers end. The rounding of `mmc_write` is left aside. -/
def ReadsBelow (spew : Bool) : Prop :=
  ∀ content outcomes,
    ∀ span ∈ reads entries { card with content := content, outcomes := outcomes } ram arg sz spew id,
      span.Below sz

def ImageWithin (spew : Bool) : Prop :=
  24 ≤ sz ∧ ∀ p ∈ imageWalk ram, ∀ span ∈ chunkSpans spew id ram (readSparseHeader ram 0) p,
    span.Within sz

variable {sz}

theorem fileFields_within {spew : Bool} (enough : 24 ≤ sz) :
    ∀ span ∈ fileFields spew, span.Within sz := by
  have ends : ∀ span ∈ fileFields spew, span.start % 2 ^ 32 + span.len ≤ 24 := by
    cases spew <;> decide
  intro span member
  exact Or.inr (Nat.le_trans (ends span member) enough)

/-- The parser reads nothing behind the download just when the walk over the image stays in it. -/
theorem sparse_reads_below_iff (small : sz < 2 ^ 32) (spew : Bool) :
    ReadsBelow entries card ram arg sz spew ↔
      (Accepted entries arg sz → ImageWithin ram sz spew) := by
  constructor
  · intro below accepted
    have all := below card.content []
    rw [reads, if_pos accepted, headerReads_sure accepted rfl] at all
    constructor
    · have last : (⟨20, 4⟩ : Span) ∈ fileFields spew := List.mem_append_left _ (by decide)
      have within := (Span.below_iff small).mp (all _ (List.mem_append_left _ last))
      rcases within with never | ends
      · cases never
      · exact ends
    · intro p member span here
      refine (Span.below_iff small).mp (all span (List.mem_append_right _ ?_))
      exact List.mem_flatMap.mpr ⟨p, member, here⟩
  · intro within content outcomes span member
    rw [Span.below_iff small]
    unfold reads at member
    split at member
    case isTrue accepted =>
      obtain ⟨enough, walked⟩ := within accepted
      rcases List.mem_append.mp member with field | chunk
      · exact fileFields_within enough span field
      · obtain ⟨p, visits, here⟩ := List.mem_flatMap.mp chunk
        exact walked p (List.IsPrefix.subset headerReads_prefix visits) span here
    case isFalse => cases member

end Command

section Completeness

variable {ram other : Nat → UInt8} {ptn : Nat} {header : SparseHeader}

def Alike (ram other : Nat → UInt8) (spans : List Span) : Prop :=
  ∀ span ∈ spans, Matches ram span.start other span.start span.len

theorem readSparseHeader_congr (same : Alike ram other (fileFields false)) :
    readSparseHeader ram 0 = readSparseHeader other 0 := by
  have fileHdr := (same ⟨8, 2⟩ (by decide)).le16 (i := 0) (by decide)
  have chunkHdr := (same ⟨10, 2⟩ (by decide)).le16 (i := 0) (by decide)
  have blk := (same ⟨12, 4⟩ (by decide)).le32 (i := 0) (by decide)
  have blks := (same ⟨16, 4⟩ (by decide)).le32 (i := 0) (by decide)
  have chunks := (same ⟨20, 4⟩ (by decide)).le32 (i := 0) (by decide)
  simp only [readSparseHeader, SparseHeader.mk.injEq]
  exact ⟨fileHdr, chunkHdr, blk, blks, chunks⟩

theorem sparseChunk_congr {cursor : Cursor}
    (same : Alike ram other (chunkSpans false padded ram header cursor.data)) :
    sparseChunk other ptn header cursor = sparseChunk ram ptn header cursor := by
  have kind : (readChunkHeader ram cursor.data).chunkType =
      (readChunkHeader other cursor.data).chunkType :=
    (same ⟨cursor.data, 2⟩ (by simp [chunkSpans])).le16 (i := 0) le_rfl
  have blocks : (readChunkHeader ram cursor.data).chunkSz =
      (readChunkHeader other cursor.data).chunkSz :=
    (same ⟨cursor.data + 4, 4⟩ (by simp [chunkSpans])).le32 (i := 0) le_rfl
  have total (tested : (readChunkHeader ram cursor.data).chunkType = chunkTypeRaw ∨
      (readChunkHeader ram cursor.data).chunkType = chunkTypeCrc) :
      (readChunkHeader ram cursor.data).totalSz = (readChunkHeader other cursor.data).totalSz :=
    (same ⟨cursor.data + 8, 4⟩ (by simp [chunkSpans, tested])).le32 (i := 0) le_rfl
  have size : dataSz header (readChunkHeader other cursor.data) =
      dataSz header (readChunkHeader ram cursor.data) := by rw [dataSz, dataSz, blocks]
  have formed : wellFormed header (readChunkHeader other cursor.data) =
      wellFormed header (readChunkHeader ram cursor.data) := by
    unfold wellFormed
    rw [← kind, size]
    split
    · rename_i raw
      rw [total (.inl raw)]
    · split
      · rfl
      · split
        · rename_i crc
          rw [total (.inr crc)]
        · rfl
  have next (card : Card) : passed header (readChunkHeader other cursor.data) cursor card =
      passed header (readChunkHeader ram cursor.data) cursor card := by
    rw [passed, passed, nextHeader, nextHeader, kind, blocks, size]
  rw [sparseChunk_eq, sparseChunk_eq]
  simp only [formed, next, complaint, kind]
  split
  · rename_i fine
    split
    · rename_i raw
      have data : Matches ram (bodyAt header cursor.data) other (bodyAt header cursor.data)
          (padded (dataSz header (readChunkHeader ram cursor.data))) :=
        same ⟨bodyAt header cursor.data, _⟩ (data_mem false padded (kind.trans raw) fine)
      have written : chunkWrite other ptn header cursor = chunkWrite ram ptn header cursor := by
        rw [chunkWrite, chunkWrite, size]
        exact mmcWrite_congr cursor.card _ _ fun i below => (data i below).symm
      rw [written]
    · rfl
  · rfl

theorem sparseChunks_congr {chunks : Nat} {cursor : Cursor}
    (same : Alike ram other ((visited ram ptn header chunks cursor).flatMap
      (chunkSpans false padded ram header))) :
    sparseChunks other ptn header chunks cursor = sparseChunks ram ptn header chunks cursor := by
  induction chunks generalizing cursor with
  | zero => rfl
  | succ chunks ih =>
    rw [visited, List.flatMap_cons] at same
    have round := @sparseChunk_congr ram other ptn header cursor (List.forall_mem_append.mp same).1
    rw [sparseChunks, sparseChunks, round]
    cases next : sparseChunk ram ptn header cursor with
    | error failure => rfl
    | ok cursor' =>
      rw [next] at same
      exact ih (List.forall_mem_append.mp same).2

theorem reads_determine {entries : List PartitionEntry} {card : Card} {arg : Text} {sz : Nat}
    (same : Alike ram other (reads entries card ram arg sz false padded)) :
    cmdFlashMmcSparseImg entries card other arg sz =
      cmdFlashMmcSparseImg entries card ram arg sz := by
  by_cases accepted : Accepted entries arg sz
  · rw [reads, if_pos accepted, headerReads_accepted accepted] at same
    have header := readSparseHeader_congr (List.forall_mem_append.mp same).1
    have loop := sparseChunks_congr (List.forall_mem_append.mp same).2
    have first : firstHeader other = firstHeader ram := by rw [firstHeader, firstHeader, header]
    rw [cmdFlashMmcSparseImg_accepted _ _ accepted, cmdFlashMmcSparseImg_accepted _ _ accepted,
      imageLoop, imageLoop, first, ← header, loop]
  · obtain ⟨reason, refused⟩ := cmdFlashMmcSparseImg_refused accepted
    rw [refused, refused]

end Completeness

section Examples

theorem sparse_reads_below_iff_twoBlocks :
    ReadsBelow systemOnly ⟨true, fun _ => 0, []⟩ (fun i => (encode twoBlocks).getD i 0)
      "system".toList (encode twoBlocks).length true := by
  refine (sparse_reads_below_iff systemOnly _ _ _ (by decide +kernel) true).mpr fun _ => ?_
  exact ⟨by decide +kernel, by decide +kernel⟩

def headerOnly : List UInt8 :=
  toLe32 sparseHeaderMagic ++ toLe16 1 ++ toLe16 0 ++ toLe16 28 ++ toLe16 12 ++ toLe32 4096 ++
    toLe32 0 ++ toLe32 1 ++ toLe32 0

theorem reads_determine_dontCare :
    let flashed (behind : UInt8) := cmdFlashMmcSparseImg systemOnly ⟨true, fun _ => 0, []⟩
      (fun i => (headerOnly ++ toLe32 chunkTypeDontCare ++ toLe32 0 ++ toLe32 12).getD i behind)
      "system".toList 40
    flashed 1 = flashed 0 :=
  reads_determine (by unfold Alike Matches; decide +kernel)

theorem header_only_read_beyond :
    headerOnly.length = 28 ∧
      ¬ ReadsBelow systemOnly ⟨true, fun _ => 0, []⟩ (fun i => headerOnly.getD i 0)
        "system".toList 28 false := by
  refine ⟨by decide, fun below => ?_⟩
  have read : (⟨28, 2⟩ : Span) ∈ reads systemOnly ⟨true, fun _ => 0, []⟩
      (fun i => headerOnly.getD i 0) "system".toList 28 false id := by
    decide +kernel
  have first := below (fun _ => 0) [] _ read 0 (by decide)
  exact absurd first (by decide)

end Examples

end AndroidBoot.Aboot.SparseReads
