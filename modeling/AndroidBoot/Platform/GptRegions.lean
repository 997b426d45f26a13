/- source: bootable/lk/platform/msm_shared/partition_parser.c
   digest: The regions of the card that `write_gpt` writes, and when they are apart and inside. -/

import AndroidBoot.Platform.PartitionImage

set_option autoImplicit false

namespace AndroidBoot.Platform.GptRegions

open Foundation.Memory Mmc PartitionTable PartitionImage

section Patch

/-- `MIN_PARTITION_ARRAY_SIZE`. -/
def arrayLen : Nat := 0x4000

def arrayAt : Nat := 1024
def backupArrayAt : Nat := arrayAt + arrayLen

def lastAt (total : Nat) : Nat := wrap (blockSize + blockSize + lastPartOffset total)

/-- `PUT_LONG_LONG` and `PUT_LONG` as writes. -/
def wide (start value : Nat) : Put UInt8 := ⟨start, 8, bytesOf value⟩
def word (start value : Nat) : Put UInt8 := ⟨start, 4, bytesOf value⟩

theorem putLongLong_bytes (m : Image) (i value : Nat) :
    (m.putLongLong i value).bytes = putAll [wide (wrap i) value] m.bytes := rfl

theorem findUnused_bytes (left total : Nat) (m : Image) :
    (findUnused left total m).2.bytes = m.bytes := by
  induction left generalizing total m with
  | zero => rfl
  | succ left ih =>
    simp only [findUnused]
    split_ifs with used
    · exact ih _ _
    · rfl

theorem minus_lt (x y : Nat) : minus x y < 2 ^ 64 := Nat.mod_lt _ (by decide)

end Patch

section Accepted

/-- What `write_gpt` makes of an image before it writes to the card: the size of an array and the
patched image, if it accepts the two headers. -/
def accept (capacity : Nat) (m : Image) : Option (Nat × Image) :=
  match partitionParseGptHeader m blockSize with
  | (none, _) => none
  | (some primary, image) =>
    match partitionParseGptHeader image (secondaryHeader (arraySizeOf primary)) with
    | (none, _) => none
    | (some backup, image) =>
      match patchGpt image capacity (arraySizeOf primary) backup.maxPartitionCount
        backup.partitionEntrySize with
      | (true, _) => none
      | (false, image) => some (arraySizeOf primary, image)

theorem writeGpt_cases (size : Nat) (w : Flasher) :
    (∃ arraySize image, accept w.capacity w.image = some (arraySize, image) ∧
      writeGpt size w = flashGpt size arraySize { w with image := image }) ∨
    accept w.capacity w.image = none ∧ (writeGpt size w).1 ≠ .success ∧
      (writeGpt size w).2.card = w.card := by
  unfold accept writeGpt
  obtain ⟨none | primary, image⟩ := partitionParseGptHeader w.image blockSize
  · exact .inr ⟨rfl, nofun, rfl⟩
  · dsimp only
    obtain ⟨none | backup, image⟩ :=
      partitionParseGptHeader image (secondaryHeader (arraySizeOf primary))
    · exact .inr ⟨rfl, nofun, rfl⟩
    · dsimp only
      obtain ⟨returned | halted, image⟩ := patchGpt image w.capacity (arraySizeOf primary)
        backup.maxPartitionCount backup.partitionEntrySize
      · exact .inl ⟨_, _, rfl, rfl⟩
      · exact .inr ⟨rfl, nofun, rfl⟩

end Accepted

section Regions

abbrev Region := Nat × Nat

/-- The region that a write means, as long as `mmc_write` makes it. -/
def regionOf (m : Image) (part : Part) : Region := ((part.target.resolve m).1, padded part.len)

def gptRegions (arraySize : Nat) (m : Image) : List Region :=
  (gptParts arraySize).map (regionOf m)

/-- No byte is in both; a length that `mmc_write` pads to 0 writes none. -/
def Apart (r s : Region) : Prop := r.2 = 0 ∨ s.2 = 0 ∨ r.1 + r.2 ≤ s.1 ∨ s.1 + s.2 ≤ r.1

def Safe (capacity : Nat) (regions : List Region) : Prop :=
  regions.Pairwise Apart ∧ ∀ r ∈ regions, r.2 = 0 ∨ r.1 + r.2 ≤ capacity

theorem resolve_congr {m m' : Image} (same : m'.bytes = m.bytes) (target : Target) :
    (target.resolve m').1 = (target.resolve m).1 := by
  cases target with
  | address n => rfl
  | field i => simp only [Target.resolve, Image.llword, same]

theorem resolve_bytes (target : Target) (m : Image) : (target.resolve m).2.bytes = m.bytes := by
  cases target <;> rfl

def send (part : Part) (w : Flasher) : Bool × Flasher :=
  Flasher.send { w with image := (part.target.resolve w.image).2 }
    (part.target.resolve w.image).1 part.len part.source

theorem sendParts_cons (part : Part) (rest : List Part) (w : Flasher) :
    sendParts (part :: rest) w =
      if (send part w).1 then send part w else sendParts rest (send part w).2 := by
  rw [sendParts, send]
  dsimp only
  generalize Flasher.send _ _ _ _ = sent
  obtain ⟨_ | _, v⟩ := sent <;> rfl

theorem send_bytes (part : Part) (w : Flasher) : (send part w).2.image.bytes = w.image.bytes :=
  resolve_bytes part.target w.image

theorem sendParts_transfers (parts : List Part) (w : Flasher) :
    Transfers (parts.map fun part => transfers (padded part.len)).sum w.card
      ((sendParts parts w).1, (sendParts parts w).2.card) := by
  induction parts generalizing w with
  | nil => exact Transfers.none w.card
  | cons part rest ih =>
    have first : Transfers (transfers (padded part.len)) w.card
        ((send part w).1, (send part w).2.card) := mmcWrite_transfers w.card _ part.len _
    rw [sendParts_cons, List.map_cons, List.sum_cons]
    cases failed : (send part w).1 with
    | true => exact first.failed failed
    | false => exact first.trans failed (ih (send part w).2)

/-- The writes change nothing outside of their regions, whether they fail or not. -/
theorem sendParts_stays (parts : List Part) (w : Flasher) :
    Stays w.card (fun a => ∃ r ∈ parts.map (regionOf w.image), w.card.Covers r.1 r.2 a)
      (sendParts parts w).2.card := by
  induction parts generalizing w with
  | nil => exact Stays.refl _ _
  | cons part rest ih =>
    have first : Stays w.card (w.card.Covers (regionOf w.image part).1 (padded part.len))
        (send part w).2.card := mmcWrite_stays w.card _ part.len _
    rw [sendParts_cons]
    split_ifs
    · exact first.mono fun a covered => ⟨_, List.mem_cons_self, covered⟩
    · refine (first.trans (ih _)).mono ?_
      rintro a (covered | ⟨r, member, covered⟩)
      · exact ⟨_, List.mem_cons_self, covered⟩
      · obtain ⟨p, listed, rfl⟩ := List.mem_map.mp member
        refine ⟨regionOf w.image p, List.mem_map_of_mem (List.mem_cons_of_mem part listed), ?_⟩
        rw [Card.covers_congr first.sameKind] at covered
        simpa only [regionOf, resolve_congr (send_bytes part w)] using covered

end Regions

section Arrays

theorem accept_cases {capacity arraySize : Nat} {m image : Image}
    (accepted : accept capacity m = some (arraySize, image)) :
    ∃ (primary backup : GptHeader) (first second : Image),
      partitionParseGptHeader m blockSize = (some primary, first) ∧
      arraySize = arraySizeOf primary ∧
      partitionParseGptHeader first (secondaryHeader arraySize) = (some backup, second) ∧
      first.bytes = m.bytes ∧ second.bytes = m.bytes ∧
      patchGpt second capacity arraySize backup.maxPartitionCount backup.partitionEntrySize =
        (false, image) := by
  unfold accept at accepted
  split at accepted
  · exact absurd accepted nofun
  · rename_i primary first parse
    split at accepted
    · exact absurd accepted nofun
    · rename_i backup second parse'
      split at accepted
      · exact absurd accepted nofun
      · rename_i third patch
        obtain ⟨rfl, rfl⟩ := Prod.mk.inj (Option.some.inj accepted)
        have one := parse_bytes m blockSize
        have two := parse_bytes first (secondaryHeader (arraySizeOf primary))
        rw [parse] at one
        rw [parse'] at two
        exact ⟨primary, backup, first, second, parse, rfl, parse', one, two.trans one, patch⟩

def lbaPuts (card secondary : Nat) : List (Put UInt8) :=
  [wide 544 (minus card 1), wide 560 (minus card 34), wide (wrap (secondary + 24)) (minus card 1),
    wide (wrap (secondary + 48)) (minus card 34), wide (wrap (secondary + 72)) (minus card 33)]

def lastEntryPuts (card arraySize total : Nat) : List (Put UInt8) :=
  [wide (lastAt total) (minus card 34),
    wide (wrap (blockSize + blockSize + lastPartOffset total + arraySize)) (minus card 34)]

def crcPuts (secondary array backupArray header backupHeader : Nat) : List (Put UInt8) :=
  [word 600 array, word (wrap (secondary + 88)) backupArray, word 528 0, word 528 header,
    word (wrap (secondary + 16)) 0, word (wrap (secondary + 16)) backupHeader]

/-- The writes of `patch_gpt` in its order, with these checksums. -/
def patchPuts (card arraySize total array backupArray header backupHeader : Nat) :
    List (Put UInt8) :=
  lbaPuts card (secondaryHeader arraySize) ++ lastEntryPuts card arraySize total ++
    crcPuts (secondaryHeader arraySize) array backupArray header backupHeader

theorem patchHeaders_puts (m : Image) (card secondary : Nat) :
    (patchHeaders m card secondary).bytes = putAll (lbaPuts card secondary) m.bytes := rfl

theorem patchLast_puts (m : Image) (card arraySize total : Nat) :
    (patchLast m card arraySize total).bytes =
      putAll (lastEntryPuts card arraySize total) m.bytes := by
  rw [patchLast, putLongLong_bytes, putLongLong_bytes, ← putAll_append, List.singleton_append,
    lastEntryPuts, lastAt]

theorem patchCrcs_puts (m : Image) (arraySize len secondary : Nat) :
    ∃ array backupArray header backupHeader, (patchCrcs m arraySize len secondary).bytes =
      putAll (crcPuts secondary array backupArray header backupHeader) m.bytes :=
  ⟨_, _, _, _, rfl⟩

theorem patchGpt_puts {m image : Image} {capacity arraySize count size : Nat}
    (returned : patchGpt m capacity arraySize count size = (false, image)) :
    ∃ total array backupArray header backupHeader,
      (findUnused entryRoom 0 (patchHeaders m (cardSizeSec capacity)
        (secondaryHeader arraySize))).1 = some total ∧
      image.bytes = putAll (patchPuts (cardSizeSec capacity) arraySize total array backupArray
        header backupHeader) m.bytes := by
  have same := findUnused_bytes entryRoom 0
    (patchHeaders m (cardSizeSec capacity) (secondaryHeader arraySize))
  unfold patchGpt at returned
  dsimp only at returned
  generalize findUnused entryRoom 0 (patchHeaders m (cardSizeSec capacity)
    (secondaryHeader arraySize)) = found at returned same ⊢
  obtain ⟨none | total, searched⟩ := found
  · exact Bool.noConfusion (congrArg Prod.fst returned)
  · obtain ⟨array, backupArray, header, backupHeader, crcs⟩ := patchCrcs_puts
      (patchLast searched (cardSizeSec capacity) arraySize total) arraySize (wrap (count * size))
      (secondaryHeader arraySize)
    refine ⟨total, array, backupArray, header, backupHeader, rfl, ?_⟩
    rw [← (Prod.mk.inj returned).2, crcs, patchPuts, putAll_append, putAll_append, patchLast_puts,
      show searched.bytes = _ from same, patchHeaders_puts]

def patchPlaces (arraySize total : Nat) : List (Nat × Nat) :=
  let secondary := secondaryHeader arraySize
  [(544, 8), (560, 8), (wrap (secondary + 24), 8), (wrap (secondary + 48), 8),
    (wrap (secondary + 72), 8), (lastAt total, 8),
    (wrap (blockSize + blockSize + lastPartOffset total + arraySize), 8), (600, 4),
    (wrap (secondary + 88), 4), (528, 4), (528, 4), (wrap (secondary + 16), 4),
    (wrap (secondary + 16), 4)]

theorem patchPuts_places (card arraySize total array backupArray header backupHeader : Nat) :
    (patchPuts card arraySize total array backupArray header backupHeader).map
      (fun put => (put.start, put.len)) = patchPlaces arraySize total := rfl

/-- Writes to these places leave eight bytes as they are. -/
def Spares (places : List (Nat × Nat)) (field : Nat) : Prop :=
  ∀ place ∈ places, field + 8 ≤ place.1 ∨ place.1 + place.2 ≤ field

/-- No patch falls on the field of an LBA after that has its value. -/
def Legible (capacity arraySize : Nat) (m : Image) : Prop :=
  ∀ total ∈ (findUnused entryRoom 0 (patchHeaders m (cardSizeSec capacity)
      (secondaryHeader arraySize))).1,
    let places := patchPlaces arraySize total
    Spares (places.drop 1) 544 ∧ Spares places 584 ∧
      Spares (places.drop 5) (wrap (secondaryHeader arraySize + 72))

theorem legible_of_dvd {capacity arraySize : Nat} {m : Image} (whole : 64 ∣ arraySize)
    (two : secondaryHeader arraySize ≠ 512) : Legible capacity arraySize m := by
  intro total _
  have aligned : secondaryHeader arraySize % 128 = 0 ∧ secondaryHeader arraySize < 2 ^ 32 := by
    unfold secondaryHeader wrap blockSize
    omega
  have last : lastAt total % 64 = 40 ∧
      wrap (blockSize + blockSize + lastPartOffset total + arraySize) % 64 = 40 := by
    simp only [lastAt, wrap, lastPartOffset, blockSize]
    omega
  have inner {i : Nat} (within : i < 128) : wrap (secondaryHeader arraySize + i) =
      secondaryHeader arraySize + i := Nat.mod_eq_of_lt (by omega)
  simp only [Spares, patchPlaces, List.drop_succ_cons, List.drop_zero, List.forall_mem_cons,
    inner (show 24 < 128 by decide), inner (show 48 < 128 by decide),
    inner (show 72 < 128 by decide), inner (show 88 < 128 by decide),
    inner (show 16 < 128 by decide), List.not_mem_nil, false_imp_iff, implies_true, and_true]
  generalize wrap (blockSize + blockSize + lastPartOffset total + arraySize) = backup at last ⊢
  omega

theorem findUnused_congr {m n : Image} (same : n.bytes = m.bytes) (left total : Nat) :
    (findUnused left total n).1 = (findUnused left total m).1 := by
  induction left generalizing total m n with
  | zero => rfl
  | succ left ih =>
    have value (i : Nat) : (n.byte i).1 = (m.byte i).1 := by rw [Image.byte, Image.byte, same]
    rw [findUnused, findUnused]
    dsimp only
    by_cases used : (m.byte (blockSize + blockSize + total * 0x80)).1 ≠ 0
    · rw [if_pos used, if_pos (value _ ▸ used)]
      exact ih (m := m.touch _ 1) (n := n.touch _ 1) same (total + 1)
    · rw [if_neg used, if_neg (value _ ▸ used)]

theorem le64_spared {puts : List (Put UInt8)} {place : Nat}
    (spared : Spares (puts.map fun put => (put.start, put.len)) place) (bytes : Nat → UInt8) :
    le64 (putAll puts bytes) place = le64 bytes place := by
  refine (putAll_matches (fun put member => ?_) bytes).le64 (i := 0) (Nat.le_refl 8)
  exact spared _ (List.mem_map_of_mem member)

theorem le64_wide (place : Nat) {value : Nat} (small : value < 2 ^ 64) (bytes : Nat → UInt8) :
    le64 (putAll [wide place value] bytes) place = value := by
  have own : Matches (putAll [wide place value] bytes) place (bytesOf value) 0 8 :=
    putAll_self [] (wide place value) [] (by simp) bytes
  exact ((own.le64 (i := 0) (by decide)).trans (le64_bytesOf value)).trans (Nat.mod_eq_of_lt small)

theorem accept_fields {capacity arraySize : Nat} {m image : Image}
    (accepted : accept capacity m = some (arraySize, image))
    (legible : Legible capacity arraySize m) :
    le64 image.bytes 544 = minus (cardSizeSec capacity) 1 ∧
      le64 image.bytes 584 = le64 m.bytes 584 ∧
      le64 image.bytes (wrap (secondaryHeader arraySize + 72)) =
        minus (cardSizeSec capacity) 33 := by
  obtain ⟨primary, backup, -, parsed, -, -, -, -, same, patch⟩ := accept_cases accepted
  obtain ⟨total, array, backupArray, header, backupHeader, found, bytes⟩ := patchGpt_puts patch
  have headers : (patchHeaders parsed (cardSizeSec capacity) (secondaryHeader arraySize)).bytes =
      (patchHeaders m (cardSizeSec capacity) (secondaryHeader arraySize)).bytes := by
    rw [patchHeaders_puts, patchHeaders_puts, same]
  obtain ⟨first, second, third⟩ :=
    legible total ((findUnused_congr headers entryRoom 0).symm.trans found)
  have places := patchPuts_places (cardSizeSec capacity) arraySize total array backupArray header
    backupHeader
  rw [bytes, same]
  generalize puts : patchPuts (cardSizeSec capacity) arraySize total array backupArray header
    backupHeader = patches at places ⊢
  rw [← places] at first second third
  rw [← List.map_drop] at first third
  refine ⟨?_, le64_spared second m.bytes, ?_⟩
  · have split : patches = [wide 544 (minus (cardSizeSec capacity) 1)] ++ patches.drop 1 := by
      simp [← puts, patchPuts, lbaPuts]
    rw [split, putAll_append, le64_spared first]
    exact le64_wide 544 (minus_lt _ _) _
  · have split : patches = (patches.take 4 ++ [wide (wrap (secondaryHeader arraySize + 72))
        (minus (cardSizeSec capacity) 33)]) ++ patches.drop 5 := by
      simp [← puts, patchPuts, lbaPuts]
    rw [split, putAll_append, le64_spared third, putAll_append]
    exact le64_wide _ (minus_lt _ _) _

theorem gptRegions_eq (arraySize : Nat) (m : Image) : gptRegions arraySize m =
    [(0, 512), (512, 512), (le64 m.bytes 544 * 512 % 2 ^ 64, 512),
      (le64 m.bytes 584 * 512 % 2 ^ 64, padded arraySize),
      (le64 m.bytes (wrap (secondaryHeader arraySize + 72)) * 512 % 2 ^ 64, padded arraySize)] := by
  have at_ : wrap (512 + 32) = 544 ∧ wrap (512 + 72) = 584 ∧ padded 512 = 512 := by decide
  simp only [gptRegions, gptParts, blockSize, List.map_cons, List.map_nil, regionOf,
    Target.resolve, Image.llword, at_]

theorem safe_iff (capacity last first second len : Nat) :
    Safe capacity [(0, 512), (512, 512), (last, 512), (first, len), (second, len)] ↔
      1024 ≤ last ∧ last + 512 ≤ capacity ∧
        (len = 0 ∨ (∀ start ∈ [first, second],
          1024 ≤ start ∧ start + len ≤ capacity ∧ Apart (last, 512) (start, len)) ∧
          Apart (first, len) (second, len)) := by
  by_cases empty : len = 0
  · simp [Safe, Apart, empty]
    omega
  · simp [Safe, Apart, empty]
    omega

theorem padded_eq (len : Nat) (small : len < 2 ^ 32) :
    padded len = if 2 ^ 32 - 512 < len then 0 else (len + 511) / 512 * 512 := by
  rw [padded, roundToPage_block]
  split_ifs <;> omega

end Arrays

def primaryLba (m : Image) : Nat := le64 m.bytes 584 % 2 ^ 55

section Runs

def headerBytes (count lba x : Nat) : UInt8 :=
  if x < 4 then bytesOf 0x20494645 x
  else if x < 8 then bytesOf 0x54524150 (x - 4)
  else if x = 12 then 92
  else if 72 ≤ x ∧ x < 80 then bytesOf lba (x - 72)
  else if 80 ≤ x ∧ x < 84 then bytesOf count (x - 80)
  else if x = 84 then 128
  else 0

def gptImage (count lba : Nat) : Image where
  bytes x :=
    let arraySize := max (128 * count) 0x4000
    if 512 ≤ x ∧ x < 1024 then headerBytes count lba (x - 512)
    else if x = 1024 ∨ x = 1024 + arraySize then 1
    else if 1024 + 2 * arraySize ≤ x ∧ x < 1536 + 2 * arraySize then
      headerBytes count lba (x - (1024 + 2 * arraySize))
    else 0
  touched := []

def smallCard : Nat := 64 * 1024 * 1024

theorem gptImage_accepted : (accept smallCard (gptImage 128 2)).isSome = true := by
  decide +kernel

end Runs

end AndroidBoot.Platform.GptRegions
