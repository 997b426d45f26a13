/- source: bootable/lk/app/aboot/aboot.c, platform/msm_shared/mmc.c, partition_parser.c
   digest: What the card holds after a raw image was flashed, or a partition erased. -/

import AndroidBoot.Aboot.FastbootReplies
import AndroidBoot.Aboot.FlashCommands

set_option autoImplicit false

namespace AndroidBoot.Aboot.RawFlash

open Foundation.Memory Platform.Mmc
open Fastboot (Text)
open FastbootReplies (ReportsOkay reportsOkay_okay not_reportsOkay_fail)
open DeviceInfo FlashCommands

def start (entry : PartitionEntry) : Nat := entry.firstLba * blockSize

def bytes (entry : PartitionEntry) : Nat := entry.size * blockSize

def sectors (sz : Nat) : Nat := (sz + 511) / 512 * 512

def TableInside (emmc : Emmc) (faults : List Fault) : Prop :=
  ∀ entry ∈ emmc.entries, start entry + bytes entry ≤ (emmc.card faults).reach

structure Exact (card : Card) (entry : PartitionEntry) (ram : Nat → UInt8) (sz : Nat)
    (after : Nat → UInt8) : Prop where
  image : ∀ i, i < sectors sz → after (start entry + i) = ram i
  others : ∀ a, a < start entry ∨ start entry + sectors sz ≤ a → after a = card.content a
  inside : ∀ a, card.Covers (start entry) (padded sz) a →
    start entry ≤ a ∧ a < start entry + bytes entry

theorem roundToPage_sectors {sz : Nat} (small : sz ≤ 2 ^ 32 - 512) :
    roundToPage sz 511 = sectors sz := by
  rw [roundToPage_block, Nat.mod_eq_of_lt (by omega), sectors]

theorem padded_sectors {sz : Nat} (small : sz ≤ 2 ^ 32 - 512) : padded sz = sectors sz := by
  unfold padded
  split
  · exact roundToPage_sectors small
  · rw [sectors]
    omega

variable {emmc : Emmc} {ram : Nat → UInt8} {arg : Text} {sz : Nat} {faults : List Fault}
  {partitioned : Bool × Emmc}

theorem okay_written (other : arg ≠ "partition".toList)
    (okay : ReportsOkay (cmdFlashMmcImg emmc ram arg sz faults partitioned).1) :
    let ptn := partitionGetOffset emmc.entries (partitionGetIndex emmc.entries arg)
    ptn ≠ 0 ∧
      roundToPage sz 511 ≤ partitionGetSize emmc.entries (partitionGetIndex emmc.entries arg) ∧
      (mmcWrite (emmc.card faults) ptn sz ram).1 = false ∧
      (cmdFlashMmcImg emmc ram arg sz faults partitioned).2.content =
        (mmcWrite (emmc.card faults) ptn sz ram).2.content := by
  unfold cmdFlashMmcImg at okay ⊢
  rw [if_neg other] at okay ⊢
  dsimp only at okay ⊢
  split at okay
  case isTrue => exact absurd okay (not_reportsOkay_fail _ _)
  case isFalse found =>
    rw [if_neg found]
    split at okay
    case isTrue => exact absurd okay (not_reportsOkay_fail _ _)
    case isFalse bootable =>
      rw [if_neg bootable]
      split at okay
      case isTrue => exact absurd okay (not_reportsOkay_fail _ _)
      case isFalse fits =>
        rw [if_neg fits]
        split at okay
        case isTrue => exact absurd okay (not_reportsOkay_fail _ _)
        case isFalse passed =>
          rw [if_neg passed]
          exact ⟨found, Nat.not_lt.mp fits, Bool.eq_false_iff.mpr passed, rfl⟩

/-- A raw image that is reported as flashed is in its partition, and nothing else is written. -/
theorem raw_flash_exact (inside : TableInside emmc faults) (other : arg ≠ "partition".toList)
    (small : sz ≤ 2 ^ 32 - 512)
    (okay : ReportsOkay (cmdFlashMmcImg emmc ram arg sz faults partitioned).1) :
    ∃ entry, emmc.entries.find? (fun entry => entry.name = arg) = some entry ∧
      sectors sz ≤ bytes entry ∧
      Exact (emmc.card faults) entry ram sz
        (cmdFlashMmcImg emmc ram arg sz faults partitioned).2.content := by
  obtain ⟨found, fits, passed, content⟩ := okay_written other okay
  obtain ⟨entry, named, offset, size⟩ := partition_found found
  have within := inside entry (List.mem_of_find?_eq_some named)
  have reach := (emmc.card faults).reach_lt
  have place : partitionGetOffset emmc.entries (partitionGetIndex emmc.entries arg) =
      start entry := by
    rw [offset, start]
    exact Nat.mod_eq_of_lt (by unfold start at within; omega)
  have room : sectors sz ≤ bytes entry := by
    rw [roundToPage_sectors small, size] at fits
    exact Nat.le_trans fits (Nat.mod_le _ _)
  have aligned : blockSize ∣ start entry := Nat.dvd_mul_left _ _
  have reached : start entry + padded sz ≤ (emmc.card faults).reach := by
    rw [padded_sectors small]
    omega
  rw [place] at passed content
  have wrote := @mmcWrite_padded (start entry) sz ram (emmc.card faults) aligned reached
  refine ⟨entry, named, room, ?_, ?_, ?_⟩
  · intro i below
    rw [content, wrote.written passed, padded_sectors small]
    have shown := matches_splice (emmc.card faults).content (start entry) (sectors sz) ram i below
    rwa [Nat.zero_add] at shown
  · intro a apart
    rw [content, wrote.written passed, padded_sectors small]
    exact splice_apart _ _ apart
  · intro a covered
    have bounds := Card.covers_within aligned reached covered
    rw [padded_sectors small] at bounds
    omega

def blank : Emmc := ⟨true, [⟨"system".toList, 1, 4⟩], fun _ => 0⟩

/-- An image of 700 sevens takes two sectors; the eights behind it fill the second one. -/
theorem raw_flash_exact_two_sectors :
    let ram : Nat → UInt8 := fun i => if i < 700 then 7 else 8
    let flashed := cmdFlashMmcImg blank ram "system".toList 700 [] (false, blank)
    ReportsOkay flashed.1 ∧ flashed.2.content 1211 = 7 ∧ flashed.2.content 1212 = 8 ∧
      flashed.2.content 1536 = 0 := by
  have replied : (cmdFlashMmcImg blank (fun i => if i < 700 then 7 else 8) "system".toList 700 []
      (false, blank)).1 = [.okay (some [])] := by
    decide +kernel
  have okay : ReportsOkay (cmdFlashMmcImg blank (fun i => if i < 700 then 7 else 8)
      "system".toList 700 [] (false, blank)).1 := replied ▸ reportsOkay_okay _
  have inside : TableInside blank [] := by
    intro entry member
    obtain rfl := List.mem_singleton.mp member
    decide
  obtain ⟨entry, named, -, stored⟩ := raw_flash_exact inside (by decide) (by decide) okay
  obtain rfl : (⟨"system".toList, 1, 4⟩ : PartitionEntry) = entry := Option.some.inj named
  exact ⟨okay, stored.image 699 (by decide), stored.image 700 (by decide),
    stored.others 1536 (Or.inr (by decide))⟩

section Erase

def ErasesInside (emmc : Emmc) (arg : Text) : Prop :=
  ∀ content faults a,
    (cmdEraseMmc { emmc with content := content } arg faults).2.content a ≠ content a →
      ∃ entry, emmc.entries.find? (fun entry => entry.name = arg) = some entry ∧
        start entry ≤ a ∧ a < start entry + bytes entry

def ErasesAt (emmc : Emmc) (arg : Text) (entry : PartitionEntry) : Prop :=
  emmc.entries.length < numPartitions ∧
    emmc.entries.find? (fun entry => entry.name = arg) = some entry ∧ start entry % 2 ^ 64 ≠ 0

theorem ErasesAt.offset {entry : PartitionEntry} (erased : ErasesAt emmc arg entry) :
    partitionGetOffset emmc.entries (partitionGetIndex emmc.entries arg) =
      start entry % 2 ^ 64 := by
  rw [partitionGetIndex, if_neg (Nat.not_le.mpr erased.1), partitionGetOffset,
    ← List.find?_eq_bind_findIdx?_getElem?, erased.2.1]
  rfl

theorem cmdEraseMmc_content (content : Nat → UInt8)
    (found : partitionGetOffset emmc.entries (partitionGetIndex emmc.entries arg) ≠ 0) :
    (cmdEraseMmc { emmc with content := content } arg faults).2.content =
      (mmcWrite ⟨emmc.highCapacity, content, faults⟩
        (partitionGetOffset emmc.entries (partitionGetIndex emmc.entries arg)) eraseSize
        fun _ => 0).2.content := by
  unfold cmdEraseMmc
  dsimp only
  rw [if_neg found]
  split <;> rfl

/-- The sixteen kilobytes that are cleared lie inside just if the partition is as large, and starts
where the commands of the card reach. -/
theorem erase_inside_iff (emmc : Emmc) (arg : Text) :
    ErasesInside emmc arg ↔ ∀ entry, ErasesAt emmc arg entry →
      start entry < (emmc.card []).reach ∧ eraseSize ≤ bytes entry := by
  by_cases missing : partitionGetOffset emmc.entries (partitionGetIndex emmc.entries arg) = 0
  · constructor
    · intro _ entry erased
      exact absurd (erased.offset.symm.trans missing) erased.2.2
    · intro _ content faults a changed
      rw [cmdEraseMmc, if_pos missing] at changed
      exact absurd rfl changed
  obtain ⟨entry, named, offset, -⟩ := partition_found missing
  rw [← start] at offset
  have erased : ErasesAt emmc arg entry := by
    refine ⟨?_, named, offset ▸ missing⟩
    by_contra full
    rw [partitionGetIndex, if_pos (Nat.not_lt.mp full)] at missing
    exact missing rfl
  have covers (faults : List Fault) (a : Nat) := @Card.covers_short
    (start entry % 2 ^ 64) eraseSize a (emmc.card faults) (by decide)
  rw [Nat.mod_mod] at covers
  constructor
  · intro inside other at_
    obtain rfl : entry = other := Option.some.inj (named.symm.trans at_.2.1)
    obtain ⟨update, writes, ran⟩ := mmcWrite_overwrites (emmc.card []) rfl
      (start entry % 2 ^ 64) eraseSize fun _ => 0
    have nontrivial : Nontrivial UInt8 := ⟨0, 1, by decide⟩
    have within := (writes.confined_iff fun a =>
      start entry ≤ a ∧ a < start entry + bytes entry).mp fun content a changed => by
        have told := inside content [] a
        have wrote : mmcWrite ⟨emmc.highCapacity, content, []⟩ (start entry % 2 ^ 64) eraseSize
          (fun _ => 0) = _ := ran content
        rw [cmdEraseMmc_content content missing, offset, wrote] at told
        obtain ⟨_, same, there⟩ := told changed
        exact Option.some.inj (named.symm.trans same) ▸ there
    have reached := (emmc.card []).address_lt_reach (start entry % 2 ^ 64)
    have size : eraseSize = 16384 := rfl
    have first := within _ ((covers [] _).mpr ⟨Nat.le_refl _, by omega⟩)
    have last := within ((emmc.card []).address (start entry % 2 ^ 64) + 16383)
      ((covers [] _).mpr ⟨by omega, by omega⟩)
    omega
  · intro large content faults a changed
    obtain ⟨reached, room⟩ := large entry erased
    refine ⟨entry, named, ?_⟩
    by_contra beyond
    rw [cmdEraseMmc_content content missing, offset] at changed
    refine changed ((mmcWrite_stays _ _ _ _).outside a fun covered => beyond ?_)
    have aligned : blockSize ∣ start entry := Nat.dvd_mul_left _ _
    have plain : start entry % 2 ^ 64 = start entry :=
      Nat.mod_eq_of_lt (Nat.lt_trans reached (Card.reach_lt _))
    have there : (emmc.card faults).address (start entry % 2 ^ 64) = start entry :=
      plain.symm ▸ Card.address_eq aligned reached
    have bounds := (covers faults a).mp covered
    omega

theorem erase_beyond_partition : ¬ ErasesInside blank "system".toList := by
  intro inside
  have large := (erase_inside_iff blank "system".toList).mp inside ⟨"system".toList, 1, 4⟩
    ⟨by decide, rfl, by decide⟩
  exact absurd large.2 (by decide)

end Erase

end AndroidBoot.Aboot.RawFlash
