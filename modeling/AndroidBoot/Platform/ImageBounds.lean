/- source: bootable/lk/platform/msm_shared/partition_parser.c, mmc.c
   digest: The bytes of a partition image that flashing it reads or writes. -/

import AndroidBoot.Platform.GptFlash
import AndroidBoot.Platform.MbrFlash

set_option autoImplicit false

namespace AndroidBoot.Platform.ImageBounds

open Foundation.Memory Mmc PartitionTable PartitionImage GptRegions
open GptFlash (written written_transfers transfersBefore withOutcomes writeGpt_written
  mmcBootReadGpt_stale)
open MbrFlash (Signed signature_bytes signature_iff slot findEbr_eq flasher)

/-- Every byte that has been read or written is one of the first `size`. -/
def Inside (size : Nat) (m : Image) : Prop :=
  ∀ span ∈ m.touched, ∀ k, k < span.2 → wrap (span.1 + k) < size

section Access

variable {size i len : Nat} {m : Image}

theorem inside_touch_iff (small : size < 2 ^ 32) (some_ : len ≠ 0) :
    Inside size (m.touch i len) ↔ Inside size m ∧ wrap i + len ≤ size := by
  have low : wrap i < 2 ^ 32 := Nat.mod_lt _ (by decide)
  refine ⟨fun inside => ⟨fun span member => inside span (List.mem_cons_of_mem _ member), ?_⟩,
    fun ⟨inside, fits⟩ span member k below => ?_⟩
  · have each := inside (wrap i, len) List.mem_cons_self
    by_contra beyond
    have first := each (size - wrap i) (by dsimp only; omega)
    rw [wrap, Nat.mod_eq_of_lt (by dsimp only; omega)] at first
    dsimp only at first
    omega
  · rcases List.mem_cons.mp member with rfl | earlier
    · have lower : wrap (wrap i + k) ≤ wrap i + k := Nat.mod_le _ _
      exact Nat.lt_of_le_of_lt lower (by dsimp only at below; omega)
    · exact inside span earlier k below

theorem Inside.touch (inside : Inside size m) (fits : i + len ≤ size) :
    Inside size (m.touch i len) := by
  intro span member k below
  rcases List.mem_cons.mp member with rfl | earlier
  · have lower : wrap (wrap i + k) ≤ i + k :=
      Nat.le_trans (Nat.mod_le _ _) (Nat.add_le_add_right (Nat.mod_le _ _) k)
    exact Nat.lt_of_le_of_lt lower (by dsimp only at below; omega)
  · exact inside span earlier k below

theorem not_inside (start len k : Nat) (span : (start, len) ∈ m.touched) (within : k < len)
    (beyond : size ≤ wrap (start + k)) : ¬ Inside size m :=
  fun inside => Nat.not_lt.mpr beyond (inside (start, len) span k within)

section Inside

variable (inside : Inside size m)
include inside

theorem Inside.byte (fits : i + 1 ≤ size) : Inside size (m.byte i).2 :=
  inside.touch fits

theorem Inside.lword (fits : i + 4 ≤ size) : Inside size (m.lword i).2 :=
  inside.touch fits

end Inside

end Access

section Mbr

variable {size : Nat}

theorem verify_inside {m : Image} (inside : Inside size m)
    (signature : m.bytes 510 = 0x55 → size ≠ 511) :
    Inside size (partitionVerifyMbrSignature size m 0).2 ∧
      ((partitionVerifyMbrSignature size m 0).1 = false → 512 ≤ size) := by
  unfold partitionVerifyMbrSignature
  split_ifs with short
  · exact ⟨inside, nofun⟩
  · have first : Inside size (m.byte (0 + 0x1FE)).2 := inside.byte (by omega)
    dsimp only
    split_ifs with other
    · exact ⟨first, nofun⟩
    · have full : size ≠ 511 := signature (UInt8.toNat_inj.mp (not_not.mp other))
      exact ⟨first.byte (by omega), fun _ => by omega⟩

theorem findEbr_inside (room : 512 ≤ size) : ∀ (left i : Nat) (m : Image), i + left = 4 →
    Inside size m → Inside size (findEbr left i m).2 := by
  intro left
  induction left with
  | zero =>
    intro i m _ inside
    exact inside
  | succ left ih =>
    intro i m all inside
    have next : Inside size (m.byte (0x1BE + i * 0x10 + 4)).2 := inside.byte (by omega)
    simp only [findEbr]
    split_ifs with ebr
    · exact next
    · exact ih (i + 1) _ (by omega) next

variable {w : Flasher}

theorem send_inside {address len source : Nat} (inside : Inside size w.image)
    (fits : source + padded len ≤ size) : Inside size (w.send address len source).2.image :=
  inside.touch fits

theorem writeEbrs_inside (whole : 512 ∣ size) (offset dfirstsec ebrImage : Nat) (w : Flasher)
    (aligned : 512 ∣ ebrImage) (inside : Inside size w.image) :
    Inside size (writeEbrs size offset dfirstsec ebrImage w).2.image := by
  have block : blockSize = 512 := rfl
  have same : padded blockSize = 512 := rfl
  fun_induction writeEbrs size offset dfirstsec ebrImage w with
  | case1 => exact inside
  | case2 dfirstsec ebrImage w more v failed =>
    have sent : Inside size (w.send ((offset + dfirstsec) * 512 % 2 ^ 32) blockSize
        ebrImage).2.image := send_inside inside (by omega)
    rw [failed] at sent
    exact sent
  | case3 dfirstsec ebrImage w more v done next image link ih =>
    have sent : Inside size (w.send ((offset + dfirstsec) * 512 % 2 ^ 32) blockSize
        ebrImage).2.image := send_inside inside (by omega)
    rw [done] at sent
    have read : Inside size (v.image.lword (ebrImage + 0x1CE + 8)).2 := sent.lword (by omega)
    rw [link] at read
    exact ih (by omega) read

section Mbr

variable (room : 512 ≤ size) (inside : Inside size w.image)
  (ebrs : (∃ i, i < 4 ∧ (slot w.image.bytes i).dtype = 0x05) → 512 ∣ size)
include room inside ebrs

theorem writeMbrInBlocks_inside : Inside size (writeMbrInBlocks size w).2.image := by
  have sent : Inside size (w.send 0 blockSize 0).2.image := send_inside inside room
  have bytes : (w.send 0 blockSize 0).2.image.bytes = w.image.bytes := rfl
  unfold writeMbrInBlocks
  generalize w.send 0 blockSize 0 = result at sent bytes ⊢
  obtain ⟨failed, v⟩ := result
  cases failed with
  | true => exact sent
  | false =>
    dsimp only at sent bytes ⊢
    obtain ⟨-, which⟩ := findEbr_eq 4 0 v.image rfl
    have searched := findEbr_inside room 4 0 v.image rfl sent
    generalize findEbr 4 0 v.image = found at which searched ⊢
    obtain ⟨number, image⟩ := found
    cases number with
    | none => exact searched
    | some i =>
      have four : i < 4 := by simpa using List.mem_of_find?_eq_some which.symm
      have type := List.find?_some which.symm
      rw [bytes] at type
      refine writeEbrs_inside (ebrs ⟨i, four, of_decide_eq_true type⟩) _ 0 blockSize _
        (Nat.dvd_refl _) ?_
      exact searched.lword (by omega)

theorem writeMbr_inside : Inside size (writeMbr size w).2.image := by
  obtain ⟨looked, -⟩ := verify_inside inside fun _ => by omega
  have bytes := signature_bytes size w.image 0
  unfold writeMbr
  generalize partitionVerifyMbrSignature size w.image 0 = verified at looked bytes ⊢
  obtain ⟨invalid, image⟩ := verified
  dsimp only at looked bytes ⊢
  cases invalid with
  | true => exact looked
  | false =>
    have wrote : Inside size (writeMbrInBlocks size { w with image := image }).2.image := by
      refine writeMbrInBlocks_inside room looked ?_
      rw [bytes]
      exact ebrs
    generalize writeMbrInBlocks size { w with image := image } = result at wrote ⊢
    obtain ⟨failed, v⟩ := result
    cases failed <;> exact wrote

end Mbr

end Mbr

section Outside

variable {size : Nat} {m : Image} {w : Flasher}

theorem partitionVerify_image (full : 511 ≤ size) (first : m.bytes 510 = 0x55) :
    (partitionVerifyMbrSignature size m 0).2 = (m.touch 510 1).touch 511 1 := by
  have long : ¬ size < 0x1FE + 1 := by omega
  have same : (m.byte (0 + 0x1FE)).1 = 0x55 := UInt8.toNat_inj.mpr first
  unfold partitionVerifyMbrSignature
  rw [if_neg long]
  dsimp only
  rw [if_neg (not_not.mpr same)]
  rfl

theorem partitionVerify_signed (full : 511 ≤ size) (signed : Signed m.bytes 0) :
    partitionVerifyMbrSignature size m 0 = (false, (m.touch 510 1).touch 511 1) :=
  Prod.ext ((signature_iff m full).mpr signed) (partitionVerify_image full signed.1)

theorem send_reliable (address len source : Nat) (sure : w.card.outcomes = []) :
    (w.send address len source).1 = false ∧ (w.send address len source).2.card.outcomes = [] := by
  have sent := mmcWrite_transfers w.card address len fun k => w.image.bytes (wrap source + k)
  have passed := sent.succeeds.mpr (by simp [sure])
  exact ⟨passed, (sent.rest passed).trans (by simp [sure])⟩

/-- With a card that fails no transfer the block that the image ends in is written as a whole. -/
theorem writeEbrs_outside (partial_ : ¬ 512 ∣ size) (small : size < 2 ^ 32)
    (offset dfirstsec ebrImage : Nat) (w : Flasher) (aligned : 512 ∣ ebrImage)
    (more : ebrImage < size) (sure : w.card.outcomes = []) :
    ¬ Inside size (writeEbrs size offset dfirstsec ebrImage w).2.image := by
  have block : blockSize = 512 := rfl
  fun_induction writeEbrs size offset dfirstsec ebrImage w with
  | case1 dfirstsec ebrImage w done => omega
  | case2 dfirstsec ebrImage w _ v failed =>
    have passed := (send_reliable ((offset + dfirstsec) * 512 % 2 ^ 32) blockSize ebrImage sure).1
    rw [failed] at passed
    cases passed
  | case3 dfirstsec ebrImage w _ v done next image link ih =>
    have sent := (send_reliable ((offset + dfirstsec) * 512 % 2 ^ 32) blockSize ebrImage sure).2
    rw [done] at sent
    by_cases last : size ≤ ebrImage + blockSize
    · have low : wrap ebrImage = ebrImage := Nat.mod_eq_of_lt (by omega)
      have span : (ebrImage, 512) ∈ image.touched := by
        have touched : v.image.touched = (wrap ebrImage, 512) :: w.image.touched := by
          rw [← show _ = v from congrArg Prod.snd done]
          rfl
        rw [← show _ = image from congrArg Prod.snd link]
        refine List.mem_cons_of_mem _ ?_
        rw [touched, low]
        exact List.mem_cons_self
      rw [writeEbrs, if_pos last]
      refine not_inside ebrImage 512 (size - ebrImage) span (by omega) ?_
      rw [wrap, Nat.mod_eq_of_lt (by omega)]
      omega
    · exact ih (by omega) (by omega) sent

theorem writeMbr_outside (signed : Signed w.image.bytes 0) (full : 512 ≤ size)
    (small : size < 2 ^ 32) (partial_ : ¬ 512 ∣ size) (sure : w.card.outcomes = [])
    (extended : ∃ i, i < 4 ∧ (slot w.image.bytes i).dtype = 0x05) :
    ¬ Inside size (writeMbr size w).2.image := by
  unfold writeMbr
  rw [partitionVerify_signed (by omega) signed]
  dsimp only
  have bytes : ((w.image.touch 510 1).touch 511 1).bytes = w.image.bytes := rfl
  generalize (w.image.touch 510 1).touch 511 1 = image at bytes
  have wrote : ¬ Inside size (writeMbrInBlocks size { w with image := image }).2.image := by
    obtain ⟨passed, sure'⟩ := send_reliable (w := { w with image := image }) 0 blockSize 0 sure
    have kept : (Flasher.send { w with image := image } 0 blockSize 0).2.image.bytes =
        w.image.bytes := bytes
    unfold writeMbrInBlocks
    generalize Flasher.send { w with image := image } 0 blockSize 0 = sent at passed sure' kept
    obtain ⟨failed, v⟩ := sent
    obtain rfl : failed = false := passed
    obtain ⟨-, which⟩ := findEbr_eq 4 0 v.image rfl
    dsimp only at sure' kept ⊢
    generalize findEbr 4 0 v.image = found at which
    obtain ⟨_ | i, image'⟩ := found
    · obtain ⟨i, four, type⟩ := extended
      rw [kept] at which
      have absent := List.find?_eq_none.mp which.symm i (by simpa using four)
      exact absurd type (by simpa using absent)
    · exact writeEbrs_outside partial_ small _ 0 blockSize _ (Nat.dvd_refl _)
        (show 512 < size by omega) sure'
  generalize writeMbrInBlocks size { w with image := image } = result at wrote
  obtain ⟨failed | failed, v⟩ := result <;> exact wrote

end Outside

section Gpt

variable {size : Nat} {m : Image}

/-- A header is found to be unsigned by bytes inside of the image. -/
def Refused (size : Nat) (bytes : Nat → UInt8) (start : Nat) : Prop :=
  le32 bytes start ≠ 0x20494645 ∧ start + 4 ≤ size ∨
    le32 bytes start = 0x20494645 ∧ le32 bytes (start + 4) ≠ 0x54524150 ∧ start + 8 ≤ size

theorem parse_refused_iff {start : Nat} (small : size < 2 ^ 32) (low : start < 2 ^ 32) :
    (partitionParseGptHeader m start).1 = none ∧ Inside size (partitionParseGptHeader m start).2 ↔
      Inside size m ∧ Refused size m.bytes start := by
  have at_ : wrap start = start := Nat.mod_eq_of_lt low
  have span : Inside size (m.lword start).2 ↔ Inside size m ∧ wrap start + 4 ≤ size :=
    inside_touch_iff small (by decide)
  have span' : Inside size ((m.lword start).2.lword (start + 4)).2 ↔
      Inside size (m.lword start).2 ∧ wrap (start + 4) + 4 ≤ size :=
    inside_touch_iff small (by decide)
  have four (room : start + 4 ≤ size) : wrap (start + 4) = start + 4 := Nat.mod_eq_of_lt (by omega)
  unfold partitionParseGptHeader Refused
  dsimp only
  by_cases first : (m.lword start).1 ≠ 0x20494645
  · rw [if_pos first, span, at_]
    rw [Image.lword, at_] at first
    simp [show le32 m.bytes start ≠ 0x20494645 from first]
  · rw [if_neg first]
    rw [Image.lword, at_, ne_eq, not_not] at first
    simp only [show le32 m.bytes start = 0x20494645 from first, ne_eq, not_true_eq_false,
      false_and, true_and, false_or]
    by_cases second : ((m.lword start).2.lword (start + 4)).1 ≠ 0x54524150
    · rw [if_pos second, span', span, at_]
      constructor
      · rintro ⟨-, ⟨inside, room⟩, room'⟩
        rw [four room] at room'
        rw [Image.lword, four room] at second
        exact ⟨inside, second, by omega⟩
      · rintro ⟨inside, -, room⟩
        rw [four (by omega)]
        exact ⟨rfl, ⟨inside, by omega⟩, by omega⟩
    · rw [if_neg second]
      constructor
      · rintro ⟨none_, -⟩
        cases none_
      · rintro ⟨-, other, room⟩
        rw [Image.lword, four (by omega), ne_eq, not_not] at second
        exact absurd second other

theorem parse_inside_iff (small : size < 2 ^ 32) (signed : GptSigned m.bytes blockSize) :
    Inside size (partitionParseGptHeader m blockSize).2 ↔ Inside size m ∧ 600 ≤ size := by
  have first : ¬ (m.lword blockSize).1 ≠ 0x20494645 := not_not.mpr signed.1
  have second : ¬ ((m.lword blockSize).2.lword (blockSize + 4)).1 ≠ 0x54524150 :=
    not_not.mpr signed.2
  have spans : (partitionParseGptHeader m blockSize).2 =
      (((((m.touch 512 4).touch 516 4).touch 524 4).touch 552 8).touch 592 4).touch 596 4 := by
    unfold partitionParseGptHeader
    dsimp only
    rw [if_neg first, if_neg second]
    rfl
  have four (m : Image) (i : Nat) : Inside size (m.touch i 4) ↔
      Inside size m ∧ wrap i + 4 ≤ size := inside_touch_iff small (by decide)
  have eight (m : Image) (i : Nat) : Inside size (m.touch i 8) ↔
      Inside size m ∧ wrap i + 8 ≤ size := inside_touch_iff small (by decide)
  rw [spans, four, four, eight, four, four, four]
  simp only [wrap, and_assoc]
  exact and_congr_right fun _ => by omega

theorem findUnused_endless (left total : Nat) (m : Image)
    (none_ : (findUnused left total m).1 = none) {t : Nat} (from_ : total ≤ t)
    (below : t < total + left) :
    (wrap (blockSize + blockSize + t * 0x80), 1) ∈ (findUnused left total m).2.touched := by
  have kept (left total : Nat) (m : Image) : m.touched <:+ (findUnused left total m).2.touched := by
    induction left generalizing total m with
    | zero => exact List.suffix_rfl
    | succ left ih =>
      simp only [findUnused]
      split_ifs
      · exact (List.suffix_cons _ _).trans (ih _ (m.touch (blockSize + blockSize + total * 0x80) 1))
      · exact List.suffix_cons _ _
  induction left generalizing total m with
  | zero => omega
  | succ left ih =>
    simp only [findUnused] at none_ ⊢
    split_ifs at none_ ⊢ with used
    by_cases here : t = total
    · rw [here]
      exact (kept left (total + 1) _).subset List.mem_cons_self
    · exact ih (total + 1) _ none_ (by omega) (by omega)

theorem writeGpt_cleared {w : Flasher} (done : (writeGpt size w).1 = .success) :
    ∃ image : Image, (writeGpt size w).2.image = image.put blockSize size fun _ => 0 := by
  rcases writeGpt_cases size w with ⟨arraySize, image, -, flashed⟩ | ⟨-, failed, -⟩
  · rw [flashed] at done ⊢
    unfold flashGpt at done ⊢
    dsimp only at done ⊢
    generalize mmcEraseCard { w with image := image } 0 w.capacity = erase at done ⊢
    obtain ⟨failed | failed, v⟩ := erase
    · dsimp only at done ⊢
      generalize sendParts (gptParts arraySize) v = send at done ⊢
      obtain ⟨failed | failed, v⟩ := send
      · dsimp only at done ⊢
        generalize mmcBootReadGpt v.stack v.capacity v.card v.table = read at done ⊢
        obtain ⟨ret | ret | ret, card, table⟩ := read
        · exact ⟨v.image, rfl⟩
        all_goals cases done
      · cases done
    · cases done
  · exact absurd done failed

theorem patchGpt_endless {capacity arraySize count entry : Nat} {image : Image}
    (halted : patchGpt m capacity arraySize count entry = (true, image)) {t : Nat}
    (below : t < entryRoom) : (wrap (blockSize + blockSize + t * 0x80), 1) ∈ image.touched := by
  unfold patchGpt at halted
  dsimp only at halted
  split at halted
  · rename_i found search
    obtain rfl := congrArg Prod.snd halted
    have endless := findUnused_endless entryRoom 0 _ (congrArg Prod.fst search) (Nat.zero_le t)
      (by omega)
    rw [search] at endless
    exact endless
  · cases congrArg Prod.fst halted

theorem writeGpt_outside {primary backup : GptHeader} {first second : Image}
    (some_ : 0 < size) (small : size + 128 ≤ 2 ^ 32)
    (parse : partitionParseGptHeader m blockSize = (some primary, first))
    (parse' : partitionParseGptHeader first (secondaryHeader (arraySizeOf primary)) =
      (some backup, second)) :
    ∃ w : Flasher, w.image = m ∧ ¬ Inside size (writeGpt size w).2.image := by
  cases patch : patchGpt second (flasher m.bytes).capacity (arraySizeOf primary)
      backup.maxPartitionCount backup.partitionEntrySize with
  | mk halted image =>
    cases halted with
    | true =>
      refine ⟨{ flasher m.bytes with image := m }, rfl, ?_⟩
      have stopped : (writeGpt size { flasher m.bytes with image := m }).2.image = image := by
        simp only [writeGpt, parse, parse', patch]
      rw [stopped]
      have far : wrap (wrap (blockSize + blockSize + (2 ^ 25 - 9) * 0x80) + 0) = 2 ^ 32 - 128 := by
        decide
      exact not_inside _ 1 0 (patchGpt_endless patch (t := 2 ^ 25 - 9) (by decide)) (by decide)
        (by omega)
    | false =>
      have accepted : accept (flasher m.bytes).capacity m = some (arraySizeOf primary, image) := by
        simp only [accept, parse, parse', patch]
      let before := transfersBefore (flasher m.bytes) (arraySizeOf primary)
      let stale : List Fault := [some (headerBytes 0 2)]
      let w := withOutcomes { flasher m.bytes with image := m } (List.replicate before none ++ stale)
      refine ⟨w, rfl, ?_⟩
      have taken : w.card.outcomes.take (transfersBefore w (arraySizeOf primary)) =
          List.replicate before none := List.take_left' List.length_replicate
      obtain ⟨v, wrote, rest⟩ := written_transfers (w := w) accepted (show (1 : Nat) ≠ 0 by decide)
        fun outcome member => (List.mem_replicate.mp (taken ▸ member)).2
      have left : v.card.outcomes = stale := rest.trans (List.drop_left' List.length_replicate)
      have done := mmcBootReadGpt_stale left ⟨by decide, by decide⟩ (by decide) v.stack v.capacity
        v.table
      obtain ⟨image', cleared⟩ := writeGpt_cleared ((writeGpt_written size wrote).trans done)
      rw [cleared]
      refine not_inside 512 size (size - 512) List.mem_cons_self (by omega) ?_
      rw [wrap, Nat.mod_eq_of_lt (by omega)]
      omega

/-- The primary header is refused, or it is signed and the backup that it leads to is refused. -/
def HeadersRefused (size : Nat) (bytes : Nat → UInt8) : Prop :=
  Refused size bytes blockSize ∨ GptSigned bytes blockSize ∧ 600 ≤ size ∧
    Refused size bytes (secondaryHeader (arraySizeOf (headerAt bytes blockSize)))

theorem secondaryHeader_lt (arraySize : Nat) : secondaryHeader arraySize < 2 ^ 32 :=
  Nat.mod_lt _ (by decide)

theorem writeGpt_inside {w : Flasher} (small : size < 2 ^ 32) (inside : Inside size w.image)
    (refused : HeadersRefused size w.image.bytes) : Inside size (writeGpt size w).2.image := by
  rcases refused with primary | ⟨signed, room, backup⟩
  · have none_ := (parse_refused_iff small (by decide)).mpr ⟨inside, primary⟩
    cases parse : partitionParseGptHeader w.image blockSize with
    | mk header image =>
      rw [parse] at none_
      obtain ⟨rfl, kept⟩ := none_
      simpa only [writeGpt, parse] using kept
  · have header := parse_signed (by decide) signed
    have kept := (parse_inside_iff small signed).mpr ⟨inside, room⟩
    rw [← parse_bytes w.image blockSize] at backup
    have none_ := (parse_refused_iff small (secondaryHeader_lt _)).mpr ⟨kept, backup⟩
    cases parse : partitionParseGptHeader w.image blockSize with
    | mk primary first =>
      have bytes := parse_bytes w.image blockSize
      rw [parse] at header none_ bytes
      obtain rfl : primary = _ := header
      rw [bytes] at none_
      cases parse' : partitionParseGptHeader first
          (secondaryHeader (arraySizeOf (headerAt w.image.bytes blockSize))) with
      | mk header second =>
        rw [parse'] at none_
        obtain ⟨rfl, kept⟩ := none_
        simpa only [writeGpt, parse, parse'] using kept

theorem refused_of_writeGpt (some_ : 0 < size) (small : size + 128 ≤ 2 ^ 32)
    (each : ∀ w : Flasher, w.image = m → Inside size (writeGpt size w).2.image) :
    HeadersRefused size m.bytes := by
  have low : size < 2 ^ 32 := by omega
  have bytes := parse_bytes m blockSize
  have inside := each { flasher m.bytes with image := m } rfl
  cases parse : partitionParseGptHeader m blockSize with
  | mk header first =>
    rw [parse] at bytes
    cases header with
    | none =>
      simp only [writeGpt, parse] at inside
      exact .inl ((parse_refused_iff low (by decide)).mp (parse ▸ ⟨rfl, inside⟩)).2
    | some primary =>
      have signed : GptSigned m.bytes blockSize := by
        by_contra unsigned
        have none_ := parse_unsigned (by decide) unsigned
        rw [parse] at none_
        cases none_
      have header := parse_signed (by decide) signed
      rw [parse] at header
      obtain rfl : primary = _ := Option.some.inj header
      cases parse' : partitionParseGptHeader first
          (secondaryHeader (arraySizeOf (headerAt m.bytes blockSize))) with
      | mk header second =>
        cases header with
        | none =>
          simp only [writeGpt, parse, parse'] at inside
          obtain ⟨kept, backup⟩ := (parse_refused_iff (m := first) low
            (secondaryHeader_lt (arraySizeOf (headerAt m.bytes blockSize)))).mp
            (by rw [parse']; exact ⟨rfl, inside⟩)
          rw [bytes] at backup
          refine .inr ⟨signed, ((parse_inside_iff low signed).mp ?_).2, backup⟩
          rw [parse]
          exact kept
        | some backup =>
          obtain ⟨w, same, outside⟩ := writeGpt_outside some_ small parse parse'
          exact absurd (each w same) outside

end Gpt

section Partition

variable {size : Nat} {m : Image}

structure Bounded (size : Nat) (bytes : Nat → UInt8) : Prop where
  signature : bytes 510 = 0x55 → size ≠ 511
  ebrs : 512 ≤ size → Signed bytes 0 → bytes 450 ≠ 0xEE →
    (∃ i, i < 4 ∧ (slot bytes i).dtype = 0x05) → 512 ∣ size
  headers : 512 ≤ size → Signed bytes 0 → bytes 450 = 0xEE → HeadersRefused size bytes

/-- The image as `partition_get_type` leaves it. -/
def looked (m : Image) : Image := ((m.touch 510 1).touch 511 1).touch 450 1

theorem partitionGetType_signed (full : 511 ≤ size) (signed : Signed m.bytes 0) :
    partitionGetType size m = (some (if m.bytes 450 = 0xEE then .gpt else .mbr), looked m) := by
  have protective : (((m.touch 510 1).touch 511 1).byte (0x1BE + 4)).1 = 0xEE ↔
      m.bytes 450 = 0xEE := UInt8.toNat_inj (b := 0xEE)
  unfold partitionGetType
  rw [partitionVerify_signed full signed]
  dsimp only
  rw [if_neg (by omega)]
  simp only [protective]
  rfl

theorem partitionGetType_unsigned (bad : size < 511 ∨ ¬ Signed m.bytes 0) :
    partitionGetType size m = (none, (partitionVerifyMbrSignature size m 0).2) := by
  have invalid : (partitionVerifyMbrSignature size m 0).1 = true := by
    by_cases short : size < 511
    · rw [partitionVerifyMbrSignature, if_pos short]
    · have unsigned := bad.resolve_left short
      exact Bool.eq_true_of_not_eq_false ((signature_iff m (by omega)).not.mpr unsigned)
  unfold partitionGetType
  generalize partitionVerifyMbrSignature size m 0 = verified at invalid
  obtain ⟨wrong, image⟩ := verified
  obtain rfl : wrong = true := invalid
  rfl

theorem writeMbr_failed {w : Flasher} {debris : Nat → UInt8} (full : 511 ≤ size)
    (signed : Signed w.image.bytes 0) (fails : w.card.outcomes = [some debris]) :
    (0, 512) ∈ (writeMbr size w).2.image.touched := by
  unfold writeMbr
  rw [partitionVerify_signed full signed]
  dsimp only
  have sent := mmcWrite_transfers w.card 0 blockSize fun k => w.image.bytes (wrap 0 + k)
  have failed : (Flasher.send { w with image := (w.image.touch 510 1).touch 511 1 } 0 blockSize
      0).1 = true := by
    refine Bool.eq_true_of_not_eq_false fun passed => ?_
    have all := sent.succeeds.mp passed
    rw [fails] at all
    cases all (some debris) List.mem_cons_self
  have span : (0, 512) ∈ (Flasher.send { w with image := (w.image.touch 510 1).touch 511 1 } 0
      blockSize 0).2.image.touched := List.mem_cons_self
  unfold writeMbrInBlocks
  generalize Flasher.send { w with image := (w.image.touch 510 1).touch 511 1 } 0 blockSize 0 =
    result at failed span
  obtain ⟨failed', v⟩ := result
  obtain rfl : failed' = true := failed
  exact span

section Necessary

variable (each : ∀ w : Flasher, w.image = m → Inside size (writePartition size w).2.image)
include each

theorem each_mbr (full : 511 ≤ size) (signed : Signed m.bytes 0) (ordinary : m.bytes 450 ≠ 0xEE)
    (w : Flasher) (image : w.image = looked m) : Inside size (writeMbr size w).2.image := by
  have inside := each { w with image := m } rfl
  unfold writePartition at inside
  simp only [partitionGetType_signed full signed, if_neg ordinary, ← image] at inside
  exact inside

theorem each_gpt (full : 511 ≤ size) (signed : Signed m.bytes 0) (protective : m.bytes 450 = 0xEE)
    (w : Flasher) (image : w.image = looked m) : Inside size (writeGpt size w).2.image := by
  have inside := each { w with image := m } rfl
  unfold writePartition at inside
  simp only [partitionGetType_signed full signed, if_pos protective, ← image] at inside
  exact inside

theorem headersRefused_of_inside (small : size + 128 ≤ 2 ^ 32) (full : 511 ≤ size)
    (signed : Signed m.bytes 0) (protective : m.bytes 450 = 0xEE) :
    HeadersRefused size m.bytes :=
  refused_of_writeGpt (m := looked m) (by omega) small (each_gpt each full signed protective)

theorem bounded_of_inside (small : size + 128 ≤ 2 ^ 32) : Bounded size m.bytes where
  signature first exact_ := by
    have full : 511 ≤ size := by omega
    by_cases second : m.bytes 511 = 0xAA
    · have signed : Signed m.bytes 0 := ⟨first, second⟩
      by_cases protective : m.bytes 450 = 0xEE
      · have block : blockSize = 512 := rfl
        rcases headersRefused_of_inside each small full signed protective with
          (⟨-, room⟩ | ⟨-, -, room⟩) | ⟨-, room, -⟩ <;> omega
      · let w := withOutcomes { flasher m.bytes with image := looked m } [some fun _ => 0]
        have inside := each_mbr each full signed protective w rfl
        exact not_inside 0 512 511 (writeMbr_failed full signed rfl) (by decide)
          (by rw [exact_]; decide) inside
    · have inside := each { flasher m.bytes with image := m } rfl
      unfold writePartition at inside
      rw [partitionGetType_unsigned (.inr fun signed => second signed.2)] at inside
      dsimp only at inside
      rw [partitionVerify_image full first] at inside
      exact not_inside 511 1 0 List.mem_cons_self (by decide) (by rw [exact_]; decide) inside
  ebrs full signed ordinary extended := by
    by_contra partial_
    have inside := each_mbr each (by omega) signed ordinary
      { flasher m.bytes with image := looked m } rfl
    exact writeMbr_outside signed full (by omega) partial_ rfl extended inside
  headers full signed protective := headersRefused_of_inside each small (by omega) signed protective

end Necessary

/-- Flashing an image stays inside of it, whatever the card does, just if the image is bounded. -/
theorem flash_inside_iff (size : Nat) (m : Image) (small : size + 128 ≤ 2 ^ 32)
    (fresh : m.touched = []) :
    (∀ w : Flasher, w.image = m → Inside size (writePartition size w).2.image) ↔
      Bounded size m.bytes := by
  refine ⟨fun each => bounded_of_inside each small, fun bounded w same => ?_⟩
  have inside : Inside size m := by
    intro span member
    rw [fresh] at member
    exact absurd member List.not_mem_nil
  unfold writePartition
  rw [same]
  by_cases valid : 511 ≤ size ∧ Signed m.bytes 0
  · obtain ⟨full, signed⟩ := valid
    have room : 512 ≤ size := by
      have := bounded.signature signed.1
      omega
    have kept : Inside size (looked m) :=
      ((inside.touch (by omega)).touch (by omega)).touch (by omega)
    rw [partitionGetType_signed full signed]
    split_ifs with protective
    · exact writeGpt_inside (w := { w with image := looked m }) (by omega) kept
        (bounded.headers room signed protective)
    · exact writeMbr_inside (w := { w with image := looked m }) room kept
        (bounded.ebrs room signed protective)
  · rw [partitionGetType_unsigned (by rw [← Nat.not_le]; exact not_and_or.mp valid)]
    exact (verify_inside inside bounded.signature).1

end Partition

section Runs

def protectiveImage (x : Nat) : UInt8 :=
  if x = 450 then 0xEE else if x = 510 then 0x55 else if x = 511 then 0xAA
  else GptFlash.usedImage 8 5 x

def shortEbr (x : Nat) : UInt8 :=
  if x = 450 then 0x05 else if x = 510 then 0x55 else if x = 511 then 0xAA else 0

theorem flash_inside_whole : Inside 1024 (writePartition 1024 (flasher shortEbr)).2.image :=
  (flash_inside_iff 1024 ⟨shortEbr, []⟩ (by decide) rfl).mpr
    ⟨by decide, fun _ _ _ _ => by decide, fun _ _ protective => absurd protective (by decide)⟩
    (flasher shortEbr) rfl

/-- A well-formed GPT is cleared 512 bytes beyond its end, the last block of an MBR image is written
as a whole, and of 511 bytes the 512th is looked at. -/
theorem flash_outside :
    ((writePartition 34304 (flasher protectiveImage)).1 = .success ∧
      ¬ Inside 34304 (writePartition 34304 (flasher protectiveImage)).2.image) ∧
    ¬ Inside 600 (writePartition 600 (flasher shortEbr)).2.image ∧
    ¬ Inside 511 (writePartition 511 (flasher shortEbr)).2.image := by
  refine ⟨⟨by decide +kernel, ?_⟩, ?_, ?_⟩
  · exact not_inside 512 34304 34303 (by decide +kernel) (by decide) (by decide)
  · exact not_inside 512 512 511 (by decide +kernel) (by decide) (by decide)
  · exact not_inside 511 1 0 (by decide +kernel) (by decide) (by decide)

end Runs

end AndroidBoot.Platform.ImageBounds
