/- source: bootable/lk/platform/msm_shared/partition_parser.c
   digest: The card as `write_gpt` reads it back, by the outcomes of the transfers before. -/

import AndroidBoot.Platform.GptRegions

set_option autoImplicit false

namespace AndroidBoot.Platform.GptFlash

open Foundation.Memory Mmc PartitionTable PartitionImage GptRegions

section Flash

/-- The flasher as the parser finds it, if the image has been accepted and written. -/
def written (w : Flasher) : Option Flasher :=
  match accept w.capacity w.image with
  | none => none
  | some (arraySize, image) =>
    match mmcEraseCard { w with image := image } 0 w.capacity with
    | (true, _) => none
    | (false, w) =>
      match sendParts (gptParts arraySize) w with
      | (true, _) => none
      | (false, w) => some w

theorem writeGpt_written (size : Nat) {w v : Flasher} (wrote : written w = some v) :
    (writeGpt size w).1 = (mmcBootReadGpt v.stack v.capacity v.card v.table).1 := by
  unfold written at wrote
  rcases writeGpt_cases size w with ⟨arraySize, image, accepted, flashed⟩ | ⟨refused, -⟩
  · rw [accepted] at wrote
    rw [flashed, flashGpt]
    dsimp only at wrote ⊢
    generalize mmcEraseCard { w with image := image } 0 w.capacity = erase at wrote ⊢
    obtain ⟨failed | failed, u⟩ := erase
    · dsimp only at wrote ⊢
      generalize sendParts (gptParts arraySize) u = send at wrote ⊢
      obtain ⟨failed | failed, u⟩ := send
      · obtain rfl := Option.some.inj wrote
        dsimp only
        generalize mmcBootReadGpt u.stack u.capacity u.card u.table = read
        obtain ⟨ret | ret | ret, card, table⟩ := read <;> rfl
      · cases wrote
    · cases wrote
  · rw [refused] at wrote
    cases wrote

end Flash

section Outcomes

/-- The transfers of the erase and of the writes; the next one is to read the primary header. -/
def transfersBefore (w : Flasher) (arraySize : Nat) : Nat :=
  (if w.capacity / 512 / w.group.sectors < 1 then 1 else 3) +
    ((gptParts arraySize).map fun part => transfers (padded part.len)).sum

theorem command_transfers (card : Card) : Transfers 1 card (command card) := by
  unfold command
  rcases coming : card.outcomes with _ | ⟨_ | debris, rest⟩ <;> constructor <;> simp [coming]

theorem mmcEraseCard_transfers (w : Flasher) (address size : Nat) (groups : w.group.sectors ≠ 0) :
    Transfers (if size / 512 / w.group.sectors < 1 then 1 else 3) w.card
      ((mmcEraseCard w address size).1, (mmcEraseCard w address size).2.card) := by
  unfold mmcEraseCard
  rw [if_neg groups]
  split_ifs with small
  · exact mmcWrite_transfers w.card address 16384 fun _ => 0
  · have first := command_transfers w.card
    generalize command w.card = result at first
    obtain ⟨failed | failed, card⟩ := result
    · have second := command_transfers card
      dsimp only
      generalize command card = result at second
      obtain ⟨failed | failed, card'⟩ := result
      · have third := command_transfers card'
        dsimp only
        generalize command card' = result at third
        have all := (first.trans rfl second).trans rfl third
        obtain ⟨failed | failed, card''⟩ := result
        · exact ⟨all.succeeds, all.rest⟩
        · exact all
      · exact (first.trans rfl second).failed (k := 1) rfl
    · exact first.failed (k := 2) rfl

theorem written_transfers {w : Flasher} {arraySize : Nat} {image : Image}
    (accepted : accept w.capacity w.image = some (arraySize, image)) (groups : w.group.sectors ≠ 0)
    (passed : ∀ outcome ∈ w.card.outcomes.take (transfersBefore w arraySize), outcome = none) :
    ∃ v, written w = some v ∧
      v.card.outcomes = w.card.outcomes.drop (transfersBefore w arraySize) := by
  unfold written
  rw [accepted]
  have erase := mmcEraseCard_transfers { w with image := image } 0 w.capacity groups
  dsimp only
  generalize mmcEraseCard { w with image := image } 0 w.capacity = erased at erase ⊢
  obtain ⟨failed | failed, u⟩ := erased
  · dsimp only
    have all : Transfers (transfersBefore w arraySize) w.card
        ((sendParts (gptParts arraySize) u).1, (sendParts (gptParts arraySize) u).2.card) :=
      erase.trans rfl (sendParts_transfers (gptParts arraySize) u)
    generalize sendParts (gptParts arraySize) u = sent at all ⊢
    obtain ⟨failed | failed, v⟩ := sent
    · exact ⟨v, rfl, all.rest rfl⟩
    · exact absurd (all.succeeds.mpr passed) nofun
  · have all : Transfers (transfersBefore w arraySize) w.card (true, u.card) := erase.failed rfl
    exact absurd (all.succeeds.mpr passed) nofun

theorem mmcBootReadGpt_stale {card : Card} {stale : Nat → UInt8} {rest : List Fault}
    (outcomes : card.outcomes = some stale :: rest) (signed : GptSigned stale 0)
    (none_ : le32 stale 80 = 0) (stack : Nat → UInt8) (capacity : Nat) (t : Table) :
    (mmcBootReadGpt stack capacity card t).1 = .success := by
  have read : Matches (splice stack 0 blockSize stale) 0 stale 0 blockSize :=
    matches_splice stack 0 blockSize stale
  have signed' : GptSigned (splice stack 0 blockSize stale) 0 :=
    ⟨(read.le32 (i := 0) (by decide)).trans signed.1, (read.le32 (by decide)).trans signed.2⟩
  have parse := parse_signed (m := onStack (splice stack 0 blockSize stale)) (by decide) signed'
  have counted : le32 (splice stack 0 blockSize stale) (0 + 80) = 0 :=
    (read.le32 (i := 80) (by decide)).trans none_
  have few : (headerAt (onStack (splice stack 0 blockSize stale)).bytes 0).maxPartitionCount = 0 :=
    counted
  simp only [mmcBootReadGpt, mmcBootReadFromCard, outcomes, parse]
  rw [readEntries_eq (by rw [few]; decide), few]
  rfl

end Outcomes

def withOutcomes (w : Flasher) (outcomes : List Fault) : Flasher :=
  { w with card := { w.card with outcomes := outcomes } }

def usedImage (count used x : Nat) : UInt8 :=
  if x % 128 = 0 ∧ (arrayAt ≤ x ∧ x < arrayAt + 128 * used ∨
      backupArrayAt ≤ x ∧ x < backupArrayAt + 128 * used) then 1
  else (gptImage count 2).bytes x

end AndroidBoot.Platform.GptFlash
