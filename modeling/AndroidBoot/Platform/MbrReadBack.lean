/- source: bootable/lk/platform/msm_shared/partition_parser.c
   digest: The table read back after an MBR with its chain of EBRs is flashed. -/

import AndroidBoot.Platform.MbrReread

set_option autoImplicit false

namespace AndroidBoot.Platform.MbrFlash

open Foundation.Memory Mmc PartitionTable PartitionImage MbrReread

section Rows

theorem rowOf_addRows_below (rows : List Row) (t : Table) {n : Nat} (below : n < t.count) :
    rowOf (addRows t rows) n = rowOf t n := by
  induction rows generalizing t with
  | nil => rfl
  | cons row rows ih =>
    rw [addRows_cons, ih _ (by rw [addMbr_count]; omega)]
    rw [rowOf_addMbr, if_neg (by omega)]

theorem rowOf_addRows (rows : List Row) (t : Table) {j : Nat} {row : Row}
    (found : rows[j]? = some row) : rowOf (addRows t rows) (t.count + j) = row := by
  induction rows generalizing t j with
  | nil => cases found
  | cons head rows ih =>
    have count := addMbr_count t head.dtype head.status head.firstLba head.size
    rw [addRows_cons]
    cases j with
    | zero =>
      obtain rfl := Option.some.inj found
      rw [rowOf_addRows_below rows _ (by omega)]
      exact (rowOf_addMbr t head _).trans (if_pos rfl)
    | succ j =>
      have later := ih (t.addMbr head.dtype head.status head.firstLba head.size) found
      rwa [count, Nat.add_assoc, Nat.add_comm 1 j] at later

variable {bytes content : Nat → UInt8}

theorem slotRows_ordinary {block : Nat → UInt8}
    (ordinary : ∀ i, i < 4 → (slot block i).dtype ≠ 0xEE) (left i : Nat) (bound : i + left ≤ 4) :
    slotRows block left i = ((List.range' i left).map (slot block), false) := by
  induction left generalizing i with
  | zero => rfl
  | succ left ih =>
    rw [slotRows, if_neg (ordinary i (by omega)), ih (i + 1) (by omega)]
    rfl

/-- The rows of an image with `n` EBRs, as many as the table has room for. -/
def imageRows (bytes : Nat → UInt8) (n : Nat) : List Row :=
  (List.range' 0 4).map (slot bytes) ++
    (List.range' 0 (min (numPartitions - 4) n)).map (logical bytes)

theorem imageRows_slot (bytes : Nat → UInt8) (n : Nat) {i : Nat} (below : i < 4) :
    (imageRows bytes n)[i]? = some (slot bytes i) := by
  rw [imageRows, List.getElem?_append_left (by simpa using below)]
  simp [below]

theorem imageRows_logical (bytes : Nat → UInt8) {n k : Nat}
    (room : k < min (numPartitions - 4) n) :
    (imageRows bytes n)[4 + k]? = some (logical bytes k) := by
  rw [imageRows, List.getElem?_append_right (by simp)]
  simp [room]

theorem reload_describes {n : Nat} (valid : signed (blockAt content 0) = true)
    (same : (mbrRows content).1 = imageRows bytes n) (t : Table) :
    Describes bytes n (reload content t) := by
  have limit : numPartitions = 32 := rfl
  have length : (imageRows bytes n).length = min (4 + n) numPartitions := by
    simp [imageRows, limit]
    omega
  have count : (reload content t).count = (imageRows bytes n).length := by
    simp only [reload, valid, if_true, ← same]
    split <;> simp [addRows_count]
  have rows {j : Nat} {row : Row} (found : (imageRows bytes n)[j]? = some row) :
      rowOf (reload content t) j = row := by
    have read := rowOf_addRows _ { t with count := 0 } found
    rw [Nat.zero_add, ← same] at read
    simp only [reload, valid, if_true]
    split <;> exact read
  exact ⟨count.trans length, fun i below => rows (imageRows_slot bytes n below),
    fun k below fits => rows (imageRows_logical bytes (by omega))⟩

theorem mbrRows_eq {n : Nat} (slots : ∀ i, i < 4 → slot (blockAt content 0) i = slot bytes i)
    (ordinary : ∀ i, i < 4 → (slot bytes i).dtype ≠ 0xEE)
    (chain : (if (slot bytes 3).dtype = 0x05 then
        ebrRows content (slot bytes 3).firstLba (numPartitions - 4) (slot bytes 3).firstLba else []) =
      (List.range' 0 (min (numPartitions - 4) n)).map (logical bytes)) :
    (mbrRows content).1 = imageRows bytes n := by
  have read := slotRows_ordinary (fun i below => slots i below ▸ ordinary i below) 4 0 (Nat.le_refl 4)
  have same : (List.range' 0 4).map (slot (blockAt content 0)) =
      (List.range' 0 4).map (slot bytes) := by
    simpa [List.map_inj_left] using slots
  rw [imageRows, ← chain]
  simp only [mbrRows, read, same, slots 3 (by decide), Bool.false_eq_true, if_false]
  split_ifs <;> simp

theorem ebrRows_step {k : Nat}
    (here : Matches content (ebrAddress bytes k) bytes (ebrAt k) blockSize)
    (valid : Signed bytes (ebrAt k)) (left : Nat) :
    ebrRows content (extendedSec bytes) (left + 1) (ebrSec bytes k) =
      logical bytes k :: if link bytes k = 0 then []
        else ebrRows content (extendedSec bytes) left (ebrSec bytes (k + 1)) := by
  have row : rowAt (blockAt content (ebrAddress bytes k)) 0x1BE = rowAt bytes (ebrAt k + 0x1BE) :=
    rowAt_blockAt here (by decide)
  have next : le32 (blockAt content (ebrAddress bytes k)) (0x1CE + 8) = link bytes k :=
    congrArg Row.firstLba (rowAt_blockAt (i := 0x1CE) here (by decide))
  have valid' := (signed_blockAt here).mpr valid
  simp only [ebrAddress] at row next valid'
  rw [ebrRows]
  simp only [row, next, valid', if_true]
  rfl

/-- Of EBRs that are on the card where the links lead to, the rows are read in order. -/
theorem ebrRows_walk (left d k : Nat)
    (each : ∀ i, k ≤ i → i < k + d →
      Matches content (ebrAddress bytes i) bytes (ebrAt i) blockSize ∧ Signed bytes (ebrAt i) ∧
        link bytes i ≠ 0) :
    ebrRows content (extendedSec bytes) (left + d) (ebrSec bytes k) =
      (List.range' k d).map (logical bytes) ++
        ebrRows content (extendedSec bytes) left (ebrSec bytes (k + d)) := by
  induction d generalizing k with
  | zero => rfl
  | succ d ih =>
    obtain ⟨here, valid, linked⟩ := each k (Nat.le_refl k) (by omega)
    rw [← Nat.add_assoc, ebrRows_step here valid, if_neg linked,
      ih (k + 1) fun i low below => each i (by omega) (by omega), List.range'_succ, List.map_cons,
      List.cons_append, Nat.add_assoc, Nat.add_comm 1 d]

end Rows

section Written

variable {bytes : Nat → UInt8} {size n : Nat}

/-- The block that the writes leave at an address has a signature. -/
def SignedThen (bytes : Nat → UInt8) (size : Nat) (content : Nat → UInt8) (address : Nat) : Prop :=
  match lastBlock (mbrPlaces bytes size) address with
  | some place => Signed bytes place
  | none => Signed content address

/-- Only the fourth slot leads to EBRs, which no other block is written over. -/
structure Readable (bytes : Nat → UInt8) (size n : Nat) (content : Nat → UInt8) : Prop where
  ordinary : ∀ i, i < 4 → (slot bytes i).dtype ≠ 0xEE
  fourth : n ≠ 0 → extendedSlot bytes = some 3
  mbr : lastBlock (mbrPlaces bytes size) 0 = some 0
  ebrs : ∀ k, k < n → 4 + k < numPartitions →
    lastBlock (mbrPlaces bytes size) (ebrAddress bytes k) = some (ebrAt k)
  bare : n = 0 → extendedSlot bytes = some 3 → ¬ SignedThen bytes size content (ebrAddress bytes 0)

variable (content : Nat → UInt8)

theorem mbrPlaces_aligned (bytes : Nat → UInt8) (size : Nat) :
    ∀ block ∈ mbrPlaces bytes size, blockSize ∣ block.1 := by
  intro block member
  rcases List.mem_cons.mp member with rfl | later
  · exact Nat.dvd_zero _
  · split_ifs at later
    · obtain ⟨k, -, rfl⟩ := List.mem_map.mp later
      exact dvd_ebrAddress bytes k
    · exact absurd later List.not_mem_nil

theorem written_matches {address place : Nat} (aligned : blockSize ∣ address)
    (last : lastBlock (mbrPlaces bytes size) address = some place) :
    Matches (putBlocks bytes (mbrPlaces bytes size) content) address bytes place blockSize := by
  have put := putBlocks_matches bytes content aligned _ (mbrPlaces_aligned bytes size)
  rw [last] at put
  exact put

theorem written_signed (bytes : Nat → UInt8) (size : Nat) {address : Nat}
    (aligned : blockSize ∣ address) :
    signed (blockAt (putBlocks bytes (mbrPlaces bytes size) content) address) = true ↔
      SignedThen bytes size content address := by
  have put := putBlocks_matches bytes content aligned _ (mbrPlaces_aligned bytes size)
  unfold SignedThen
  generalize lastBlock (mbrPlaces bytes size) address = last at put ⊢
  cases last with
  | none => exact signed_blockAt put
  | some place => exact signed_blockAt put

theorem fourth_iff (formed : Formed bytes size n) :
    (slot bytes 3).dtype = 0x05 ↔ extendedSlot bytes = some 3 := by
  constructor
  · intro type
    cases found : extendedSlot bytes with
    | none => exact absurd type (by simpa using List.find?_eq_none.mp found 3 (by decide))
    | some i =>
      obtain ⟨below, type'⟩ := extendedSlot_some bytes found
      rw [formed.sole i 3 below (by decide) type' type]
  · exact fun found => (extendedSlot_some bytes found).2

theorem ebrRows_unsigned (first left current : Nat)
    (unsigned : signed (blockAt content (current * 512 % 2 ^ 32)) = false) :
    ebrRows content first (left + 1) current = [] := by
  rw [ebrRows, unsigned]
  rfl

variable {content}

theorem ebrRows_chain (formed : Formed bytes size n) (some_ : n ≠ 0)
    (loaded : ∀ k, k < n → 4 + k < numPartitions →
      Matches content (ebrAddress bytes k) bytes (ebrAt k) blockSize) :
    ebrRows content (extendedSec bytes) (numPartitions - 4) (extendedSec bytes) =
      (List.range' 0 (min (numPartitions - 4) n)).map (logical bytes) := by
  have limit : numPartitions = 32 := rfl
  have each (i : Nat) (inner : i + 1 < n) (room : 4 + i < numPartitions) :=
    And.intro (loaded i (by omega) room) (And.intro (formed.ebrs i (by omega)) (formed.links i inner))
  by_cases long : numPartitions - 4 < n
  · have walk := ebrRows_walk 0 (numPartitions - 4) 0 fun i _ below => each i (by omega) (by omega)
    rw [Nat.zero_add] at walk
    rw [Nat.min_eq_left (by omega)]
    exact walk.trans (List.append_nil _)
  · have walk := ebrRows_walk (numPartitions - 4 - n + 1) (n - 1) 0 fun i _ below =>
      each i (by omega) (by omega)
    rw [Nat.zero_add, ebrRows_step (loaded (n - 1) (by omega) (by omega))
      (formed.ebrs (n - 1) (by omega)), if_pos (formed.ends some_)] at walk
    rw [Nat.min_eq_right (by omega), show numPartitions - 4 = numPartitions - 4 - n + 1 + (n - 1) by
      omega]
    refine walk.trans ?_
    obtain ⟨m, rfl⟩ : ∃ m, n = m + 1 := ⟨n - 1, by omega⟩
    simp [List.range'_concat]

theorem Readable.rows (formed : Formed bytes size n) (readable : Readable bytes size n content) :
    signed (blockAt (putBlocks bytes (mbrPlaces bytes size) content) 0) = true ∧
      (mbrRows (putBlocks bytes (mbrPlaces bytes size) content)).1 = imageRows bytes n := by
  have first := written_matches content (Nat.dvd_zero _) readable.mbr
  have loaded (k : Nat) (inside : k < n) (fits : 4 + k < numPartitions) :=
    written_matches content (dvd_ebrAddress bytes k) (readable.ebrs k inside fits)
  have valid := written_signed content bytes size (dvd_ebrAddress bytes 0)
  generalize putBlocks bytes (mbrPlaces bytes size) content = final at first loaded valid
  refine ⟨(signed_blockAt first).mpr formed.signed, mbrRows_eq (fun i below => ?_)
    readable.ordinary ?_⟩
  · have row := rowAt_blockAt (i := 0x1BE + i * 0x10) first (by unfold blockSize; omega)
    rwa [Nat.zero_add] at row
  · have sector (found : extendedSlot bytes = some 3) :
        (slot bytes 3).firstLba = extendedSec bytes := by
      rw [extendedSec, found]
      rfl
    by_cases none_ : n = 0
    · rw [none_, Nat.min_zero]
      split_ifs with type
      · have found := (fourth_iff formed).mp type
        rw [sector found]
        refine ebrRows_unsigned _ _ 27 _ (Bool.eq_false_of_not_eq_true ?_)
        exact valid.not.mpr (readable.bare none_ found)
      · rfl
    · have found := readable.fourth none_
      rw [if_pos ((fourth_iff formed).mpr found), sector found]
      exact ebrRows_chain formed none_ loaded

end Written

/-- Of an image of an MBR with `n` EBRs that is readable, the table that is read back describes the
partitions. -/
theorem mbr_read_back (w : Flasher) (size n : Nat) (small : size < 2 ^ 32)
    (sure : w.card.Reliable) (formed : Formed w.image.bytes size n)
    (readable : Readable w.image.bytes size n w.card.content) :
    (writeMbr size w).1 = false ∧ Describes w.image.bytes n (writeMbr size w).2.table := by
  have full : 511 ≤ size := by
    have room := formed.room
    rw [ebrAt, show blockSize = 512 from rfl] at room
    omega
  have verified := (signature_iff w.image full).mpr formed.signed
  have kept : (partitionVerifyMbrSignature size w.image 0).2.bytes = w.image.bytes :=
    signature_bytes size w.image 0
  obtain ⟨valid, rows⟩ := readable.rows formed
  unfold writeMbr
  generalize partitionVerifyMbrSignature size w.image 0 = checked at verified kept
  obtain ⟨invalid, image⟩ := checked
  obtain rfl : invalid = false := verified
  obtain ⟨v, ran, writing⟩ := writeMbrInBlocks_writing (w := { w with image := image }) sure small
  obtain ⟨card, read, -⟩ := mmcBootReadMbr_eq writing.sure v.stack v.table
  have content := writing.content
  dsimp only at kept content
  rw [kept] at content
  rw [← content] at valid rows
  simp only [Bool.false_eq_true, if_false, ran, read, valid, Bool.not_true, true_and]
  exact reload_describes valid rows _

section Runs

theorem extendedIn_formed : Formed (extendedIn 3) 1024 1 where
  signed := ⟨by decide, by decide⟩
  sole i j below below' := by
    have all : ∀ i, i < 4 → ∀ j, j < 4 → (slot (extendedIn 3) i).dtype = 0x05 →
        (slot (extendedIn 3) j).dtype = 0x05 → i = j := by decide +kernel
    exact all i below j below'
  extended _ := by decide +kernel
  room := by decide
  ebrs k inside := by
    obtain rfl : k = 0 := by omega
    exact ⟨by decide, by decide⟩
  links k inside := absurd inside (by omega)
  ends _ := by decide +kernel

theorem mbr_read_back_one :
    (writeMbr 1024 (flasher (extendedIn 3))).1 = false ∧
      Describes (extendedIn 3) 1 (writeMbr 1024 (flasher (extendedIn 3))).2.table :=
  mbr_read_back (flasher (extendedIn 3)) 1024 1 (by decide) (by simp [Card.Reliable, flasher])
    extendedIn_formed
    { ordinary := by decide +kernel
      fourth := fun _ => by decide +kernel
      mbr := by decide +kernel
      ebrs := fun k inside _ => by
        obtain rfl : k = 0 := by omega
        decide +kernel
      bare := fun none_ => absurd none_ (by decide) }

theorem logical_partition_lost :
    ((writeMbr 1024 (flasher (extendedIn 1))).1 = false ∧
      (writeMbr 1024 (flasher (extendedIn 1))).2.table.count = 4) ∧
    (writeMbr 1536 (flasher (extendedIn 3))).1 = false ∧
      (writeMbr 1536 (flasher (extendedIn 3))).2.table.count = 4 := by
  decide +kernel

end Runs

end AndroidBoot.Platform.MbrFlash
