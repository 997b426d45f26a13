/- source: bootable/lk/app/aboot/aboot.c, sparse_format.h
   digest: Which chunk headers of a sparse image are read, and what follows each of them. -/

import AndroidBoot.Aboot.SparseBounds

set_option autoImplicit false

namespace AndroidBoot.Aboot.SparseWalk

open Foundation.Memory Platform.Mmc
open Fastboot (Text Call)
open FastbootReplies (ReportsOkay reportsOkay_okay not_reportsOkay_fail)
open SparseFlash SparseBounds

section Loop

variable (ram : Nat → UInt8) (ptn : Nat) (header : SparseHeader)

def visited : Nat → Cursor → List Nat
  | 0, _ => []
  | chunks + 1, cursor =>
    cursor.data ::
      match sparseChunk ram ptn header cursor with
      | .error _ => []
      | .ok cursor => visited chunks cursor

/-- The headers up to the first one that is malformed. -/
def walk : Nat → Nat → List Nat
  | 0, _ => []
  | chunks + 1, p =>
    p :: if wellFormed header (readChunkHeader ram p) then
      walk chunks (nextHeader header (readChunkHeader ram p) p) else []

variable {ram ptn header}

variable {cursor : Cursor}

/-- What one round can do: stop at a malformed header, stop at a failed transfer, or go on. -/
theorem sparseChunk_cases (cursor : Cursor) :
    (wellFormed header (readChunkHeader ram cursor.data) = false ∧
      ∃ failure, sparseChunk ram ptn header cursor = .error failure) ∨
    ((chunkWrite ram ptn header cursor).1 = true ∧
      ∃ failure, sparseChunk ram ptn header cursor = .error failure) ∨
    (wellFormed header (readChunkHeader ram cursor.data) = true ∧
      ∃ card, (card = cursor.card ∨ card = (chunkWrite ram ptn header cursor).2) ∧
        sparseChunk ram ptn header cursor =
          .ok (passed header (readChunkHeader ram cursor.data) cursor card)) := by
  rw [sparseChunk_eq]
  dsimp only
  split
  · rename_i fine
    split
    · split
      · rename_i failed
        exact .inr (.inl ⟨failed, _, rfl⟩)
      · exact .inr (.inr ⟨fine, _, .inr rfl, rfl⟩)
    · exact .inr (.inr ⟨fine, _, .inl rfl, rfl⟩)
  · rename_i bad
    exact .inl ⟨Bool.eq_false_iff.mpr bad, _, rfl⟩

theorem visited_prefix (chunks : Nat) (cursor : Cursor) :
    visited ram ptn header chunks cursor <+: walk ram header chunks cursor.data := by
  induction chunks generalizing cursor with
  | zero => exact List.prefix_refl _
  | succ chunks ih =>
    refine List.cons_prefix_cons.mpr ⟨rfl, ?_⟩
    rcases @sparseChunk_cases ram ptn header cursor with
      ⟨-, failure, round⟩ | ⟨-, failure, round⟩ | ⟨fine, card, -, round⟩
    · rw [round]
      exact List.nil_prefix
    · rw [round]
      exact List.nil_prefix
    · rw [round, if_pos fine]
      exact ih _

theorem chunkWrite_sure (sure : cursor.card.outcomes = []) :
    (chunkWrite ram ptn header cursor).1 = false ∧
      (chunkWrite ram ptn header cursor).2.outcomes = [] := by
  obtain ⟨update, -, ran⟩ := mmcWrite_overwrites cursor.card sure
    ((ptn + cursor.totalBlocks * header.blkSz) % 2 ^ 64)
    (dataSz header (readChunkHeader ram cursor.data)) fun i => ram (bodyAt header cursor.data + i)
  have same : chunkWrite ram ptn header cursor =
      (false, { cursor.card with content := update cursor.card.content }) :=
    ran cursor.card.content
  rw [same]
  exact ⟨rfl, sure⟩

theorem sparseChunk_sure (sure : cursor.card.outcomes = []) :
    (wellFormed header (readChunkHeader ram cursor.data) = false ∧
      ∃ failure, sparseChunk ram ptn header cursor = .error failure) ∨
    (wellFormed header (readChunkHeader ram cursor.data) = true ∧
      ∃ card : Card, card.outcomes = [] ∧ sparseChunk ram ptn header cursor =
        .ok (passed header (readChunkHeader ram cursor.data) cursor card)) := by
  obtain ⟨passed, later⟩ := @chunkWrite_sure ram ptn header cursor sure
  rcases @sparseChunk_cases ram ptn header cursor with
    bad | ⟨failed, -⟩ | ⟨fine, card, kept, round⟩
  · exact Or.inl bad
  · rw [passed] at failed
    cases failed
  · refine Or.inr ⟨fine, card, ?_, round⟩
    rcases kept with rfl | rfl
    · exact sure
    · exact later

theorem visited_sure (chunks : Nat) (sure : cursor.card.outcomes = []) :
    visited ram ptn header chunks cursor = walk ram header chunks cursor.data := by
  induction chunks generalizing cursor with
  | zero => rfl
  | succ chunks ih =>
    rw [visited, walk]
    rcases @sparseChunk_sure ram ptn header cursor sure with
      ⟨bad, failure, round⟩ | ⟨fine, card, later, round⟩
    · rw [round, bad]
      rfl
    · rw [round, if_pos fine]
      exact congrArg _ (ih later)

def blocksOf (ram : Nat → UInt8) (headers : List Nat) : Nat :=
  (headers.map fun p => (readChunkHeader ram p).chunkSz).sum

/-- A loop that comes to its end found every header well formed, and added up their blocks. -/
theorem sparseChunks_ok {chunks : Nat} {cursor final : Cursor} (small : cursor.totalBlocks < 2 ^ 32)
    (ended : sparseChunks ram ptn header chunks cursor = .ok final) :
    (∀ p ∈ walk ram header chunks cursor.data,
        wellFormed header (readChunkHeader ram p) = true) ∧
      visited ram ptn header chunks cursor = walk ram header chunks cursor.data ∧
      final.totalBlocks =
        (cursor.totalBlocks + blocksOf ram (walk ram header chunks cursor.data)) % 2 ^ 32 := by
  induction chunks generalizing cursor with
  | zero =>
    obtain rfl : cursor = final := Except.ok.inj ended
    refine ⟨fun p never => ?_, rfl, ?_⟩
    · cases never
    · exact (Nat.mod_eq_of_lt small).symm
  | succ chunks ih =>
    rw [sparseChunks] at ended
    rcases @sparseChunk_cases ram ptn header cursor with
      ⟨-, failure, round⟩ | ⟨-, failure, round⟩ | ⟨fine, card, -, round⟩
    · rw [round] at ended
      cases ended
    · rw [round] at ended
      cases ended
    · rw [round] at ended
      obtain ⟨rest, same, total⟩ := ih (Nat.mod_lt _ (by decide)) ended
      rw [visited, walk, if_pos fine, round]
      refine ⟨?_, ?_, ?_⟩
      · exact List.forall_mem_cons.mpr ⟨fine, rest⟩
      · exact congrArg _ same
      · rw [total, blocksOf, blocksOf, List.map_cons, List.sum_cons]
        simp only [passed]
        omega

theorem sparseChunks_sure {chunks : Nat} (sure : cursor.card.outcomes = [])
    (fine : ∀ p ∈ walk ram header chunks cursor.data,
      wellFormed header (readChunkHeader ram p) = true) :
    ∃ final, sparseChunks ram ptn header chunks cursor = .ok final := by
  induction chunks generalizing cursor with
  | zero => exact ⟨cursor, rfl⟩
  | succ chunks ih =>
    rw [walk] at fine
    have first := fine cursor.data List.mem_cons_self
    rw [if_pos first] at fine
    rcases @sparseChunk_sure ram ptn header cursor sure with
      ⟨bad, -⟩ | ⟨-, card, later, round⟩
    · rw [first] at bad
      cases bad
    · rw [sparseChunks, round]
      exact ih later (List.forall_mem_cons.mp fine).2

end Loop

section Command

def imageWalk (ram : Nat → UInt8) : List Nat :=
  walk ram (readSparseHeader ram 0) (readSparseHeader ram 0).totalChunks (firstHeader ram)

instance decidableAccepted (entries : List PartitionEntry) (arg : Text) (sz : Nat) :
    Decidable (Accepted entries arg sz) :=
  inferInstanceAs (Decidable (_ ∧ _))

variable (entries : List PartitionEntry) (card : Card) (ram : Nat → UInt8) (arg : Text) (sz : Nat)

def headerReads : List Nat :=
  if Accepted entries arg sz then
    visited ram (partitionGetOffset entries (partitionGetIndex entries arg))
      (readSparseHeader ram 0) (readSparseHeader ram 0).totalChunks ⟨firstHeader ram, 0, card⟩
  else []

variable {entries card ram arg sz}

theorem headerReads_accepted (accepted : Accepted entries arg sz) :
    headerReads entries card ram arg sz =
      visited ram (partitionGetOffset entries (partitionGetIndex entries arg))
        (readSparseHeader ram 0) (readSparseHeader ram 0).totalChunks ⟨firstHeader ram, 0, card⟩ :=
  if_pos accepted

theorem headerReads_prefix : headerReads entries card ram arg sz <+: imageWalk ram := by
  unfold headerReads
  split
  · exact visited_prefix _ _
  · exact List.nil_prefix

theorem headerReads_sure (accepted : Accepted entries arg sz) (sure : card.outcomes = []) :
    headerReads entries card ram arg sz = imageWalk ram := by
  rw [headerReads_accepted accepted]
  exact visited_sure _ sure

theorem reportsOkay_replies {header : SparseHeader} {result : Except (Text × Card) Cursor} :
    ReportsOkay (replies header result) ↔
      ∃ final, result = .ok final ∧ final.totalBlocks = header.totalBlks := by
  cases result with
  | error failure =>
    refine iff_of_false (not_reportsOkay_fail _ _) ?_
    rintro ⟨final, never, -⟩
    cases never
  | ok final =>
    rw [replies]
    by_cases same : final.totalBlocks = header.totalBlks
    · rw [if_neg (not_not.mpr same)]
      exact iff_of_true (reportsOkay_okay _) ⟨final, rfl, same⟩
    · rw [if_pos same]
      refine iff_of_false (not_reportsOkay_fail _ _) ?_
      rintro ⟨other, ended, equal⟩
      obtain rfl := Except.ok.inj ended
      exact same equal

theorem reportsOkay_iff :
    ReportsOkay (cmdFlashMmcSparseImg entries card ram arg sz).1 ↔
      Accepted entries arg sz ∧ ∃ final, imageLoop entries card ram arg = .ok final ∧
        final.totalBlocks = (readSparseHeader ram 0).totalBlks := by
  by_cases accepted : Accepted entries arg sz
  · rw [cmdFlashMmcSparseImg_accepted _ _ accepted, reportsOkay_replies]
    exact (and_iff_right accepted).symm
  · obtain ⟨reason, refused⟩ := cmdFlashMmcSparseImg_refused accepted
    rw [refused]
    exact iff_of_false (not_reportsOkay_fail _ _) fun both => accepted both.1

end Command

end AndroidBoot.Aboot.SparseWalk
