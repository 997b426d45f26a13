/- source: bootable/lk/app/aboot/aboot.c, sparse_format.h
   digest: When the headers of a sparse image are found where its sizes say they are. -/

import AndroidBoot.Aboot.SparseWalk

set_option autoImplicit false

namespace AndroidBoot.Aboot.SparseCursor

open Foundation.Memory Platform.Mmc
open Fastboot (Text)
open SparseFlash SparseBounds SparseWalk
open SparseExpansion (encode systemOnly twoBlocks)

section Memory

def wrapped (bytes : BitVec 32 → UInt8) (address : Nat) : UInt8 :=
  bytes (BitVec.ofNat 32 address)

theorem wrapped_matches (bytes : BitVec 32 → UInt8) {p q : Nat} (same : p % 2 ^ 32 = q % 2 ^ 32)
    (len : Nat) : Matches (wrapped bytes) p (wrapped bytes) q len := by
  intro i _
  have address : BitVec.ofNat 32 (p + i) = BitVec.ofNat 32 (q + i) := by
    apply BitVec.eq_of_toNat_eq
    rw [BitVec.toNat_ofNat, BitVec.toNat_ofNat]
    omega
  rw [wrapped, wrapped, address]

theorem readChunkHeader_wrapped (bytes : BitVec 32 → UInt8) {p q : Nat}
    (same : p % 2 ^ 32 = q % 2 ^ 32) :
    readChunkHeader (wrapped bytes) p = readChunkHeader (wrapped bytes) q := by
  have alike := wrapped_matches bytes same 12
  have kind := alike.le16 (i := 0) (by decide)
  have blocks := alike.le32 (i := 4) (by decide)
  have total := alike.le32 (i := 8) (by decide)
  simp only [readChunkHeader, ChunkHeader.mk.injEq]
  exact ⟨kind, blocks, total⟩

end Memory

section Law

/-- The first header is at `start`, every other one `total_sz` bytes after the one before it. -/
def Lawful (ram : Nat → UInt8) : Nat → List Nat → Prop
  | _, [] => True
  | start, p :: later =>
    p % 2 ^ 32 = start % 2 ^ 32 ∧ Lawful ram (p + (readChunkHeader ram p).totalSz) later

def totalOf (ram : Nat → UInt8) (headers : List Nat) : Nat :=
  (headers.map fun p => (readChunkHeader ram p).totalSz).sum

variable {ram : Nat → UInt8}

theorem Lawful.of_start {start other : Nat} (same : start % 2 ^ 32 = other % 2 ^ 32) :
    ∀ {headers : List Nat}, Lawful ram start headers → Lawful ram other headers
  | [], _ => trivial
  | _ :: _, lawful => ⟨lawful.1.trans same, lawful.2⟩

theorem Lawful.of_prefix {start : Nat} {headers more : List Nat} (part : headers <+: more)
    (lawful : Lawful ram start more) : Lawful ram start headers := by
  induction headers generalizing start more with
  | nil => trivial
  | cons p headers ih =>
    obtain ⟨rest, rfl⟩ := part
    exact ⟨lawful.1, ih (List.prefix_append headers rest) lawful.2⟩

theorem Lawful.position {start p : Nat} {before after : List Nat}
    (lawful : Lawful ram start (before ++ p :: after)) :
    p % 2 ^ 32 = (start + totalOf ram before) % 2 ^ 32 := by
  induction before generalizing start with
  | nil => exact lawful.1
  | cons q before ih =>
    have here := lawful.1
    have later := ih lawful.2
    rw [totalOf, List.map_cons, List.sum_cons]
    rw [totalOf] at later
    omega

end Law

section Walk

structure StepsByTotal (header : SparseHeader) (chunk : ChunkHeader) : Prop where
  dontCare : chunk.chunkType = chunkTypeDontCare → chunk.totalSz = header.chunkHdrSz
  crc : chunk.chunkType = chunkTypeCrc → dataSz header chunk = 0

/-- The chunk at `p` and those that follow have such sizes, as far as one more of the `later`
headers is read. -/
def ExactSizes (ram : Nat → UInt8) (header : SparseHeader) : Nat → Nat → Prop
  | 0, _ => True
  | later + 1, p =>
    wellFormed header (readChunkHeader ram p) = true →
      StepsByTotal header (readChunkHeader ram p) ∧
        ExactSizes ram header later (p + (readChunkHeader ram p).totalSz)

variable {header : SparseHeader} {bytes : BitVec 32 → UInt8}

theorem bodyAt_long (long : chunkHeaderSize ≤ header.chunkHdrSz) (p : Nat) :
    bodyAt header p = p + header.chunkHdrSz := by
  unfold bodyAt skipHeader
  split
  · omega
  · omega

theorem nextHeader_iff {chunk : ChunkHeader} (long : chunkHeaderSize ≤ header.chunkHdrSz)
    (short : header.chunkHdrSz < 2 ^ 32) (small : chunk.totalSz < 2 ^ 32)
    (formed : wellFormed header chunk = true) (p : Nat) :
    nextHeader header chunk p % 2 ^ 32 = (p + chunk.totalSz) % 2 ^ 32 ↔
      StepsByTotal header chunk := by
  have data : dataSz header chunk < 2 ^ 32 := Nat.mod_lt _ (by decide)
  unfold wellFormed at formed
  unfold nextHeader
  rw [bodyAt_long long]
  split at formed
  case isTrue raw =>
    have total := of_decide_eq_true formed
    have other : chunk.chunkType ≠ chunkTypeDontCare := by
      rw [raw]
      decide
    have another : chunk.chunkType ≠ chunkTypeCrc := by
      rw [raw]
      decide
    rw [if_neg other]
    refine iff_of_true ?_ ⟨fun same => absurd same other, fun same => absurd same another⟩
    omega
  case isFalse =>
    split at formed
    case isTrue empty =>
      have another : chunk.chunkType ≠ chunkTypeCrc := by
        rw [empty]
        decide
      rw [if_pos empty]
      constructor
      · intro same
        exact ⟨fun _ => by omega, fun crc => absurd crc another⟩
      · intro exactly
        rw [exactly.dontCare empty]
    case isFalse filled =>
      split at formed
      case isTrue crc =>
        have total := of_decide_eq_true formed
        rw [if_neg filled, total]
        constructor
        · intro same
          exact ⟨fun empty => absurd empty filled, fun _ => by omega⟩
        · intro exactly
          rw [exactly.crc crc, Nat.add_zero]
      case isFalse => cases formed

theorem ExactSizes.of_position {later p q : Nat} (same : p % 2 ^ 32 = q % 2 ^ 32)
    (sizes : ExactSizes (wrapped bytes) header later p) :
    ExactSizes (wrapped bytes) header later q := by
  induction later generalizing p q with
  | zero => trivial
  | succ later ih =>
    intro formed
    rw [← readChunkHeader_wrapped bytes same] at formed ⊢
    obtain ⟨here, rest⟩ := sizes formed
    exact ⟨here, ih (by omega) rest⟩

theorem walk_lawful_iff (long : chunkHeaderSize ≤ header.chunkHdrSz)
    (short : header.chunkHdrSz < 2 ^ 32) (later p : Nat) :
    Lawful (wrapped bytes) p (walk (wrapped bytes) header (later + 1) p) ↔
      ExactSizes (wrapped bytes) header later p := by
  induction later generalizing p with
  | zero =>
    refine iff_of_true ⟨rfl, ?_⟩ trivial
    split
    · trivial
    · trivial
  | succ later ih =>
    rw [walk, Lawful, ExactSizes]
    by_cases formed : wellFormed header (readChunkHeader (wrapped bytes) p) = true
    · have step := nextHeader_iff long short (le32_lt (wrapped bytes) (p + 8)) formed p
      rw [if_pos formed]
      constructor
      · rintro ⟨-, lawful⟩ _
        have moved := lawful
        have same := moved.1
        exact ⟨step.mp same,
          ExactSizes.of_position same ((ih _).mp (Lawful.of_start same.symm lawful))⟩
      · intro sizes
        obtain ⟨here, rest⟩ := sizes formed
        have same := step.mpr here
        exact ⟨rfl, Lawful.of_start same ((ih _).mpr (ExactSizes.of_position same.symm rest))⟩
    · rw [if_neg formed]
      exact iff_of_true ⟨rfl, trivial⟩ fun never => absurd never formed

end Walk

section Command

variable (entries : List PartitionEntry) (card : Card) (bytes : BitVec 32 → UInt8) (arg : Text)
variable (sz : Nat)

def CursorLaw : Prop :=
  ∀ content outcomes,
    Lawful (wrapped bytes) (readSparseHeader (wrapped bytes) 0).fileHdrSz
      (headerReads entries { card with content := content, outcomes := outcomes }
        (wrapped bytes) arg sz)

theorem firstHeader_iff {ram : Nat → UInt8}
    (long : sparseHeaderSize ≤ (readSparseHeader ram 0).fileHdrSz) :
    firstHeader ram % 2 ^ 32 = (readSparseHeader ram 0).fileHdrSz % 2 ^ 32 ↔
      (readSparseHeader ram 0).fileHdrSz = sparseHeaderSize := by
  have short : (readSparseHeader ram 0).fileHdrSz < 2 ^ 16 := le16_lt ram 8
  unfold firstHeader skipHeader
  split
  · omega
  · omega

/-- What is left of a longer file header is skipped twice, so the law holds for the usual length
only, and then just when the sizes of all chunks but the last are exact. -/
theorem cursor_law_iff
    (longFile : sparseHeaderSize ≤ (readSparseHeader (wrapped bytes) 0).fileHdrSz)
    (longChunk : chunkHeaderSize ≤ (readSparseHeader (wrapped bytes) 0).chunkHdrSz) :
    CursorLaw entries card bytes arg sz ↔
      (Accepted entries arg sz →
        (readSparseHeader (wrapped bytes) 0).totalChunks = 0 ∨
        (readSparseHeader (wrapped bytes) 0).fileHdrSz = sparseHeaderSize ∧
          ExactSizes (wrapped bytes) (readSparseHeader (wrapped bytes) 0)
            ((readSparseHeader (wrapped bytes) 0).totalChunks - 1) sparseHeaderSize) := by
  have short : (readSparseHeader (wrapped bytes) 0).chunkHdrSz < 2 ^ 32 :=
    (le16_lt (wrapped bytes) 10).trans (by decide)
  have first := firstHeader_iff longFile
  constructor
  · intro law accepted
    have lawful := law card.content []
    rw [headerReads_sure accepted rfl, imageWalk] at lawful
    cases count : (readSparseHeader (wrapped bytes) 0).totalChunks with
    | zero => exact Or.inl rfl
    | succ later =>
      rw [count] at lawful
      have same : firstHeader (wrapped bytes) % 2 ^ 32 =
          (readSparseHeader (wrapped bytes) 0).fileHdrSz % 2 ^ 32 := by
        exact lawful.1
      have usual := first.mp same
      rw [usual] at lawful same
      refine Or.inr ⟨usual, ?_⟩
      exact ExactSizes.of_position same
        ((walk_lawful_iff longChunk short _ _).mp (Lawful.of_start same.symm lawful))
  · intro sizes content outcomes
    by_cases accepted : Accepted entries arg sz
    · refine Lawful.of_prefix headerReads_prefix ?_
      rw [imageWalk]
      rcases sizes accepted with none | ⟨usual, exactly⟩
      · rw [none]
        trivial
      · have same := first.mpr usual
        cases count : (readSparseHeader (wrapped bytes) 0).totalChunks with
        | zero => trivial
        | succ later =>
          rw [count] at exactly
          rw [usual] at same ⊢
          exact Lawful.of_start same ((walk_lawful_iff longChunk short _ _).mpr
            (ExactSizes.of_position same.symm exactly))
    · rw [headerReads, if_neg accepted]
      trivial

end Command

section Examples

def downloaded (image : List UInt8) (address : BitVec 32) : UInt8 := image.getD address.toNat 0

theorem cursor_law_iff_twoBlocks :
    CursorLaw systemOnly ⟨true, fun _ => 0, []⟩ (downloaded (encode twoBlocks)) "system".toList
      (encode twoBlocks).length := by
  have count : (readSparseHeader (wrapped (downloaded (encode twoBlocks))) 0).totalChunks = 2 := by
    decide +kernel
  have law := cursor_law_iff systemOnly ⟨true, fun _ => 0, []⟩ (downloaded (encode twoBlocks))
    "system".toList (encode twoBlocks).length (by decide +kernel) (by decide +kernel)
  rw [law, count]
  refine fun _ => Or.inr ⟨by decide +kernel, ?_⟩
  intro _
  exact ⟨⟨by decide +kernel, by decide +kernel⟩, trivial⟩

def longerHeader : List UInt8 :=
  toLe32 sparseHeaderMagic ++ toLe16 1 ++ toLe16 1 ++ toLe16 32 ++ toLe16 12 ++ toLe32 4096 ++
    toLe32 1 ++ toLe32 1 ++ toLe32 0 ++ toLe32 0 ++
    (toLe16 chunkTypeDontCare ++ toLe16 0 ++ toLe32 1 ++ toLe32 12)

theorem longer_header_skipped_twice :
    headerReads systemOnly ⟨true, fun _ => 0, []⟩ (wrapped (downloaded longerHeader))
        "system".toList longerHeader.length = [36] ∧
      ¬ CursorLaw systemOnly ⟨true, fun _ => 0, []⟩ (downloaded longerHeader) "system".toList
        longerHeader.length := by
  have reads : headerReads systemOnly ⟨true, fun _ => 0, []⟩ (wrapped (downloaded longerHeader))
      "system".toList longerHeader.length = [36] := by
    decide +kernel
  refine ⟨reads, fun law => ?_⟩
  have lawful := law (fun _ => 0) []
  have first := lawful.1
  revert first
  decide +kernel

end Examples

end AndroidBoot.Aboot.SparseCursor
