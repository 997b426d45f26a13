/- source: bootable/lk/platform/msm_shared/mmc.c, partition_parser.c
   digest: The eMMC card, reads and writes of it, and the lookup of partitions. -/

import AndroidBoot.Foundation.Memory

/-!
A card is its bytes, the way it is addressed and the outcomes of the coming transfers.
A result is `true` where the source returns an error code.
-/

set_option autoImplicit false

namespace AndroidBoot.Platform.Mmc

open Foundation.Memory

variable {dataAddr dataLen a : Nat} {source : Nat → UInt8}

abbrev Name := List Char

def blockSize : Nat := 512

def roundToPage (x mask : Nat) : Nat := (x + mask) % 2 ^ 32 &&& (2 ^ 32 - 1 - mask)

theorem roundToPage_block (x : Nat) : roundToPage x 511 = (x + 511) % 2 ^ 32 / 512 * 512 := by
  have small : (x + 511) % 2 ^ 32 < 2 ^ 32 := Nat.mod_lt _ (by decide)
  have shifted : (x + 511) % 2 ^ 32 / 512 * 512 = ((x + 511) % 2 ^ 32) >>> 9 <<< 9 := by
    rw [Nat.shiftRight_eq_div_pow, Nat.shiftLeft_eq]
  have upper : 2 ^ 32 - 1 - 511 = (2 ^ 23 - 1) <<< 9 := by decide
  rw [roundToPage, shifted, upper]
  generalize (x + 511) % 2 ^ 32 = n at small ⊢
  refine Nat.eq_of_testBit_eq fun i => ?_
  simp only [Nat.testBit_and, Nat.testBit_shiftLeft, Nat.testBit_shiftRight,
    Nat.testBit_two_pow_sub_one]
  by_cases low : 9 ≤ i
  · by_cases high : i - 9 < 23
    · simp [low, high]
    · have clear : n.testBit i = false := Nat.testBit_lt_two_pow
        (Nat.lt_of_lt_of_le small (Nat.pow_le_pow_right (by decide) (by omega)))
      simp [low, clear]
  · simp [low]

private theorem and_not_add_and (x mask : BitVec 32) : (x &&& ~~~mask) + (x &&& mask) = x := by
  rw [BitVec.add_eq_or_of_and_eq_zero]
  · ext i
    simp [← Bool.and_or_distrib_left]
  · ext i
    simp only [BitVec.getElem_and, BitVec.getElem_not, BitVec.getElem_zero]
    cases x[i] <;> cases mask[i] <;> rfl

theorem le_roundToPage {x mask : Nat} (fits : x + mask < 2 ^ 32) : x ≤ roundToPage x mask := by
  have parts := congrArg BitVec.toNat
    (and_not_add_and (BitVec.ofNat 32 (x + mask)) (BitVec.ofNat 32 mask))
  have small : mask % 2 ^ 32 = mask := Nat.mod_eq_of_lt (by omega)
  simp only [BitVec.toNat_add, BitVec.toNat_and, BitVec.toNat_not, BitVec.toNat_ofNat, small,
    Nat.mod_eq_of_lt fits] at parts
  have inside : (x + mask) &&& mask ≤ mask := Nat.and_le_right
  rw [roundToPage, Nat.mod_eq_of_lt fits]
  omega

theorem roundToPage_le (x mask : Nat) : roundToPage x mask ≤ x + mask :=
  Nat.le_trans Nat.and_le_left (Nat.mod_le _ _)

/-- How a transfer ends: `none` is success, a failure leaves any bytes in its place. -/
abbrev Fault := Option (Nat → UInt8)

structure Card where
  highCapacity : Bool
  content : Nat → UInt8
  outcomes : List Fault

/-- The byte that a command with this address means; the argument has 32 bits. -/
def Card.address (card : Card) (dataAddr : Nat) : Nat :=
  if card.highCapacity then dataAddr / blockSize % 2 ^ 32 * blockSize else dataAddr % 2 ^ 32

/-- The bytes that commands can address. -/
def Card.reach (card : Card) : Nat :=
  if card.highCapacity then 2 ^ 32 * blockSize else 2 ^ 32

def Card.Reliable (card : Card) : Prop := ∀ outcome ∈ card.outcomes, outcome = none

def mmcBootWriteToCard (card : Card) (dataAddr dataLen : Nat) (source : Nat → UInt8) :
    Bool × Card :=
  let start := card.address dataAddr
  match card.outcomes with
  | some debris :: rest =>
    (true, { card with
      content := splice card.content start dataLen debris
      outcomes := rest })
  | none :: rest =>
    (false, { card with
      content := splice card.content start dataLen source
      outcomes := rest })
  | [] => (false, { card with content := splice card.content start dataLen source })

/-- `mmc_boot_read_from_card`, into a buffer from `start` on. -/
def mmcBootReadFromCard (card : Card) (dataAddr dataLen : Nat) (buffer : Nat → UInt8)
    (start : Nat) : Bool × (Nat → UInt8) × Card :=
  match card.outcomes with
  | some debris :: rest =>
    (true, splice buffer start dataLen debris, { card with outcomes := rest })
  | none :: rest =>
    (false, splice buffer start dataLen fun i => card.content (card.address dataAddr + i),
      { card with outcomes := rest })
  | [] =>
    (false, splice buffer start dataLen fun i => card.content (card.address dataAddr + i), card)

def mmcRead (card : Card) (dataAddr : Nat) (buffer : Nat → UInt8) (start dataLen : Nat) :
    Bool × (Nat → UInt8) × Card :=
  mmcBootReadFromCard card dataAddr dataLen buffer start

def writeSize : Nat := 0xFFFFFF / 512 * 512

/-- The loop of `mmc_write` and the write after it. The card address and the source
pointer advance together, by `offset`, which stays below the first `data_len`. -/
def mmcWriteLoop (card : Card) (dataAddr dataLen offset : Nat) (source : Nat → UInt8) :
    Bool × Card :=
  if writeSize < dataLen then
    let written := mmcBootWriteToCard card ((dataAddr + offset) % 2 ^ 64) writeSize
      fun i => source (offset + i)
    if written.1 then written
    else mmcWriteLoop written.2 dataAddr (dataLen - writeSize) (offset + writeSize) source
  else if dataLen ≠ 0 then
    mmcBootWriteToCard card ((dataAddr + offset) % 2 ^ 64) dataLen fun i => source (offset + i)
  else (false, card)
termination_by dataLen
decreasing_by
  have : 0 < writeSize := by decide
  omega

def mmcWrite (card : Card) (dataAddr dataLen : Nat) (source : Nat → UInt8) : Bool × Card :=
  let dataLen := if dataLen % 512 ≠ 0 then roundToPage dataLen 511 else dataLen
  mmcWriteLoop card dataAddr dataLen 0 source

/-- What a write of the card leaves behind: on success the data, and success if no
transfer fails. -/
structure Wrote (card : Card) (start len : Nat) (source : Nat → UInt8) (result : Bool × Card) :
    Prop where
  sameKind : result.2.highCapacity = card.highCapacity
  written : result.1 = false → result.2.content = splice card.content start len source
  succeeds : card.Reliable → result.1 = false ∧ result.2.Reliable

variable {card : Card}

theorem Card.address_eq (aligned : blockSize ∣ dataAddr)
    (reached : dataAddr < card.reach) : card.address dataAddr = dataAddr := by
  unfold Card.address Card.reach blockSize at *
  split
  · rename_i high
    rw [if_pos high] at reached
    omega
  · rename_i low
    rw [if_neg low] at reached
    omega

theorem Card.address_dvd (card : Card) (aligned : blockSize ∣ dataAddr) :
    blockSize ∣ card.address dataAddr := by
  unfold Card.address
  split
  · exact Nat.dvd_mul_left _ _
  · exact (Nat.dvd_mod_iff ⟨2 ^ 23, rfl⟩).mpr aligned

theorem Card.address_lt_reach (card : Card) (dataAddr : Nat) :
    card.address dataAddr < card.reach := by
  unfold Card.address Card.reach blockSize
  split <;> omega

theorem Card.reach_lt (card : Card) : card.reach < 2 ^ 64 := by
  unfold Card.reach blockSize
  split <;> omega

theorem Card.le_reach (card : Card) : 2 ^ 32 ≤ card.reach := by
  unfold Card.reach blockSize
  split <;> omega

theorem mmcBootWriteToCard_wrote (aligned : blockSize ∣ dataAddr)
    (reached : dataAddr < card.reach) :
    Wrote card dataAddr dataLen source (mmcBootWriteToCard card dataAddr dataLen source) := by
  have start := Card.address_eq aligned reached
  rcases coming : card.outcomes with _ | ⟨_ | debris, rest⟩
  · simp only [mmcBootWriteToCard, coming, start]
    exact ⟨rfl, fun _ => rfl, fun sure => ⟨rfl, by simp [Card.Reliable]⟩⟩
  · simp only [mmcBootWriteToCard, coming, start]
    refine ⟨rfl, fun _ => rfl, fun sure => ⟨rfl, ?_⟩⟩
    simp only [Card.Reliable, coming, List.forall_mem_cons] at sure
    exact sure.2
  · simp only [mmcBootWriteToCard, coming]
    refine ⟨rfl, nofun, fun sure => ?_⟩
    simp [Card.Reliable, coming] at sure

theorem Wrote.trans {start n k : Nat} {first second : Bool × Card}
    (one : Wrote card start n source first) (passed : first.1 = false)
    (two : Wrote first.2 (start + n) k (fun i => source (n + i)) second) :
    Wrote card start (n + k) source second := by
  refine ⟨two.sameKind.trans one.sameKind, fun ok => ?_, fun sure => ?_⟩
  · rw [two.written ok, one.written passed, splice_splice]
  · exact two.succeeds (one.succeeds sure).2

theorem Wrote.failed {start n k : Nat} {result : Bool × Card}
    (one : Wrote card start n source result) (stopped : result.1 = true) :
    Wrote card start k source result := by
  refine ⟨one.sameKind, fun ok => ?_, fun sure => ?_⟩
  · rw [ok] at stopped
    cases stopped
  · have ok := (one.succeeds sure).1
    rw [ok] at stopped
    cases stopped

private theorem transfer_wrote {card : Card} {offset : Nat} (dataLen : Nat) (source : Nat → UInt8)
    (aligned : blockSize ∣ dataAddr) (whole : blockSize ∣ offset)
    (reached : dataAddr + offset < card.reach) :
    Wrote card (dataAddr + offset) dataLen source
      (mmcBootWriteToCard card ((dataAddr + offset) % 2 ^ 64) dataLen source) := by
  rw [Nat.mod_eq_of_lt (Nat.lt_trans reached card.reach_lt)]
  exact mmcBootWriteToCard_wrote (Nat.dvd_add aligned whole) reached

theorem mmcWriteLoop_wrote (card : Card) (dataAddr dataLen offset : Nat) (source : Nat → UInt8)
    (aligned : blockSize ∣ dataAddr) (whole : blockSize ∣ offset)
    (reached : dataAddr + offset + dataLen ≤ card.reach) :
    Wrote card (dataAddr + offset) dataLen (fun i => source (offset + i))
      (mmcWriteLoop card dataAddr dataLen offset source) := by
  fun_induction mmcWriteLoop card dataAddr dataLen offset source with
  | case1 card dataLen offset long written stopped =>
    exact (transfer_wrote writeSize _ aligned whole (by omega)).failed stopped
  | case2 card dataLen offset long written passed ih =>
    have first : Wrote card (dataAddr + offset) writeSize (fun i => source (offset + i)) written :=
      transfer_wrote writeSize _ aligned whole (by omega)
    have reach : written.2.reach = card.reach := by
      rw [Card.reach, first.sameKind, Card.reach]
    have rest := ih (Nat.dvd_add whole (by decide)) (by omega)
    rw [← Nat.add_assoc] at rest
    simp only [Nat.add_assoc offset writeSize] at rest
    have both := first.trans (by simpa using passed) rest
    rwa [Nat.add_sub_cancel' (Nat.le_of_lt long)] at both
  | case3 card dataLen offset short rest =>
    exact transfer_wrote dataLen _ aligned whole (by omega)
  | case4 card dataLen offset short done =>
    obtain rfl : dataLen = 0 := by simpa using done
    exact ⟨rfl, fun _ => (splice_zero _ _ _).symm, fun sure => ⟨rfl, sure⟩⟩

/-- The length that `mmc_write` transfers. -/
def padded (dataLen : Nat) : Nat :=
  if dataLen % 512 ≠ 0 then roundToPage dataLen 511 else dataLen

theorem mmcWrite_padded (aligned : blockSize ∣ dataAddr)
    (reached : dataAddr + padded dataLen ≤ card.reach) :
    Wrote card dataAddr (padded dataLen) source (mmcWrite card dataAddr dataLen source) := by
  have loop := mmcWriteLoop_wrote card dataAddr (padded dataLen) 0 source aligned (Nat.dvd_zero _)
    reached
  simp only [Nat.add_zero, Nat.zero_add] at loop
  exact loop

theorem mmcWrite_wrote (aligned : blockSize ∣ dataAddr)
    (whole : blockSize ∣ dataLen) (reached : dataAddr + dataLen ≤ card.reach) :
    Wrote card dataAddr dataLen source (mmcWrite card dataAddr dataLen source) := by
  have exactly : padded dataLen = dataLen := if_neg (not_not.mpr (Nat.mod_eq_zero_of_dvd whole))
  have written := @mmcWrite_padded dataAddr dataLen source card aligned (exactly.symm ▸ reached)
  rwa [exactly] at written

theorem mmcWrite_short (card : Card) (dataAddr : Nat) (source : Nat → UInt8)
    (whole : dataLen % 512 = 0) (filled : dataLen ≠ 0) (short : dataLen ≤ writeSize) :
    mmcWrite card dataAddr dataLen source =
      mmcBootWriteToCard card (dataAddr % 2 ^ 64) dataLen source := by
  rw [mmcWrite, if_neg (not_not.mpr whole), mmcWriteLoop, if_neg (Nat.not_lt.mpr short),
    if_pos filled]
  simp

/-- What a read leaves: the card as it was, and on success its bytes in the buffer. -/
structure Fetched (card : Card) (start : Nat) (buffer : Nat → UInt8) (place len : Nat)
    (result : Bool × (Nat → UInt8) × Card) : Prop where
  sameKind : result.2.2.highCapacity = card.highCapacity
  content : result.2.2.content = card.content
  read : result.1 = false →
    result.2.1 = splice buffer place len fun i => card.content (start + i)
  succeeds : card.Reliable → result.1 = false ∧ result.2.2.Reliable

theorem mmcBootReadFromCard_fetched (buffer : Nat → UInt8) (place : Nat)
    (aligned : blockSize ∣ dataAddr) (reached : dataAddr < card.reach) :
    Fetched card dataAddr buffer place dataLen
      (mmcBootReadFromCard card dataAddr dataLen buffer place) := by
  have start := Card.address_eq aligned reached
  rcases coming : card.outcomes with _ | ⟨_ | debris, rest⟩
  · simp only [mmcBootReadFromCard, coming, start]
    exact ⟨rfl, rfl, fun _ => rfl, fun sure => ⟨rfl, sure⟩⟩
  · simp only [mmcBootReadFromCard, coming, start]
    refine ⟨rfl, rfl, fun _ => rfl, fun sure => ⟨rfl, ?_⟩⟩
    simp only [Card.Reliable, coming, List.forall_mem_cons] at sure
    exact sure.2
  · simp only [mmcBootReadFromCard, coming]
    refine ⟨rfl, rfl, nofun, fun sure => ?_⟩
    simp [Card.Reliable, coming] at sure

theorem Fetched.block {start place len : Nat} {buffer : Nat → UInt8}
    {result : Bool × (Nat → UInt8) × Card} (fetched : Fetched card start buffer place len result)
    (read : result.1 = false) : Matches result.2.1 place card.content start len := by
  rw [fetched.read read]
  refine (matches_splice buffer place len _).trans fun k _ => ?_
  rw [Nat.zero_add]

/-- A call with `n` transfers to the card succeeds just if they do, and then leaves what comes after
them. -/
structure Transfers (n : Nat) (card : Card) (result : Bool × Card) : Prop where
  succeeds : result.1 = false ↔ ∀ outcome ∈ card.outcomes.take n, outcome = none
  rest : result.1 = false → result.2.outcomes = card.outcomes.drop n

section Transfers

variable {n k : Nat} {result next : Bool × Card}

theorem Transfers.none (card : Card) : Transfers 0 card (false, card) :=
  ⟨by simp, fun _ => rfl⟩

theorem Transfers.trans (first : Transfers n card result) (passed : result.1 = false)
    (second : Transfers k result.2 next) : Transfers (n + k) card next := by
  have rest := first.rest passed
  refine ⟨?_, fun done => ?_⟩
  · rw [second.succeeds, rest, List.take_add, List.forall_mem_append]
    exact (and_iff_right (first.succeeds.mp passed)).symm
  · rw [second.rest done, rest, List.drop_drop]

theorem Transfers.failed (first : Transfers n card result) (stopped : result.1 = true) :
    Transfers (n + k) card result := by
  refine ⟨iff_of_false (by simp [stopped]) fun all => ?_, fun done => by simp [stopped] at done⟩
  refine Bool.eq_false_iff.mp (first.succeeds.mpr fun outcome member => ?_) stopped
  rw [List.take_add, List.forall_mem_append] at all
  exact all.1 outcome member

theorem mmcBootWriteToCard_transfers (card : Card) (dataAddr dataLen : Nat)
    (source : Nat → UInt8) :
    Transfers 1 card (mmcBootWriteToCard card dataAddr dataLen source) := by
  unfold mmcBootWriteToCard
  rcases coming : card.outcomes with _ | ⟨_ | debris, rest⟩ <;> constructor <;> simp [coming]

def transfers (dataLen : Nat) : Nat := (dataLen + (writeSize - 1)) / writeSize

theorem transfers_long {dataLen : Nat} (long : writeSize < dataLen) :
    transfers dataLen = 1 + transfers (dataLen - writeSize) := by
  have size : writeSize = 16776704 := by decide
  rw [transfers, transfers, size]
  omega

theorem mmcWriteLoop_transfers (card : Card) (dataAddr dataLen offset : Nat)
    (source : Nat → UInt8) :
    Transfers (transfers dataLen) card (mmcWriteLoop card dataAddr dataLen offset source) := by
  fun_induction mmcWriteLoop card dataAddr dataLen offset source with
  | case1 card dataLen offset long written stopped =>
    rw [transfers_long long]
    exact (mmcBootWriteToCard_transfers ..).failed stopped
  | case2 card dataLen offset long written passed ih =>
    have ok : written.1 = false := by simpa using passed
    rw [transfers_long long]
    exact (mmcBootWriteToCard_transfers ..).trans ok ih
  | case3 card dataLen offset short some_ =>
    have one : transfers dataLen = 1 := by
      have size : writeSize = 16776704 := by decide
      rw [transfers, size]
      omega
    rw [one]
    exact mmcBootWriteToCard_transfers ..
  | case4 card dataLen offset short nothing =>
    obtain rfl : dataLen = 0 := by simpa using nothing
    exact Transfers.none card

theorem mmcWrite_transfers (card : Card) (dataAddr dataLen : Nat) (source : Nat → UInt8) :
    Transfers (transfers (padded dataLen)) card (mmcWrite card dataAddr dataLen source) :=
  mmcWriteLoop_transfers ..

end Transfers

theorem mmcBootWriteToCard_apart (card : Card) (source : Nat → UInt8)
    (apart : a < card.address dataAddr ∨ card.address dataAddr + dataLen ≤ a) :
    (mmcBootWriteToCard card dataAddr dataLen source).2.content a = card.content a := by
  unfold mmcBootWriteToCard
  split <;> exact splice_apart _ _ apart

variable {other : Nat → UInt8}

theorem mmcBootWriteToCard_congr (card : Card) (dataAddr : Nat)
    (same : ∀ i, i < dataLen → source i = other i) :
    mmcBootWriteToCard card dataAddr dataLen source =
      mmcBootWriteToCard card dataAddr dataLen other := by
  simp only [mmcBootWriteToCard, splice_congr card.content (card.address dataAddr) same]

theorem mmcWriteLoop_congr (card : Card) (dataAddr dataLen offset : Nat)
    (same : ∀ i, i < offset + dataLen → source i = other i) :
    mmcWriteLoop card dataAddr dataLen offset source =
      mmcWriteLoop card dataAddr dataLen offset other := by
  induction dataLen using Nat.strongRecOn generalizing card offset with
  | ind dataLen ih =>
    rw [mmcWriteLoop, mmcWriteLoop]
    by_cases long : writeSize < dataLen
    · have positive : 0 < writeSize := by decide
      have first : mmcBootWriteToCard card ((dataAddr + offset) % 2 ^ 64) writeSize
            (fun i => source (offset + i)) =
          mmcBootWriteToCard card ((dataAddr + offset) % 2 ^ 64) writeSize
            (fun i => other (offset + i)) :=
        mmcBootWriteToCard_congr card _ fun i below => same _ (by omega)
      rw [if_pos long, if_pos long, first]
      dsimp only
      split
      · rfl
      · exact ih _ (by omega) _ _ fun i below => same i (by omega)
    · rw [if_neg long, if_neg long]
      split
      · exact mmcBootWriteToCard_congr card _ fun i below => same _ (by omega)
      · rfl

theorem mmcWrite_congr (card : Card) (dataAddr dataLen : Nat)
    (same : ∀ i, i < padded dataLen → source i = other i) :
    mmcWrite card dataAddr dataLen source = mmcWrite card dataAddr dataLen other := by
  refine mmcWriteLoop_congr card dataAddr (padded dataLen) 0 fun i below => same i ?_
  rwa [Nat.zero_add] at below

def Card.Covers (card : Card) (dataAddr dataLen a : Nat) : Prop :=
  ∃ k, k * writeSize < dataLen ∧
    card.address ((dataAddr + k * writeSize) % 2 ^ 64) ≤ a ∧
    a < card.address ((dataAddr + k * writeSize) % 2 ^ 64) + min writeSize (dataLen - k * writeSize)

theorem Card.covers_congr {card other : Card} (same : other.highCapacity = card.highCapacity)
    (dataAddr dataLen a : Nat) :
    other.Covers dataAddr dataLen a ↔ card.Covers dataAddr dataLen a := by
  simp only [Card.Covers, Card.address, same]

theorem Card.covers_short (short : ¬ writeSize < dataLen) :
    card.Covers dataAddr dataLen a ↔ card.address (dataAddr % 2 ^ 64) ≤ a ∧
      a < card.address (dataAddr % 2 ^ 64) + dataLen := by
  have whole : min writeSize dataLen = dataLen := by omega
  constructor
  · rintro ⟨k, within, reached⟩
    obtain rfl : k = 0 := by
      by_contra positive
      have := Nat.le_mul_of_pos_left writeSize (Nat.pos_of_ne_zero positive)
      omega
    simpa [whole] using reached
  · intro reached
    exact ⟨0, by omega, by simpa [whole] using reached⟩

theorem Card.covers_long (long : writeSize < dataLen) :
    card.Covers dataAddr dataLen a ↔
      (card.address (dataAddr % 2 ^ 64) ≤ a ∧ a < card.address (dataAddr % 2 ^ 64) + writeSize) ∨
        card.Covers (dataAddr + writeSize) (dataLen - writeSize) a := by
  have shifted (k : Nat) : dataAddr + (k + 1) * writeSize = dataAddr + writeSize + k * writeSize := by
    rw [Nat.succ_mul]
    omega
  have left (k : Nat) : dataLen - (k + 1) * writeSize = dataLen - writeSize - k * writeSize := by
    rw [Nat.succ_mul]
    omega
  constructor
  · rintro ⟨k, within, reached⟩
    rcases k with _ | k
    · left
      rw [Nat.zero_mul, Nat.add_zero, Nat.sub_zero, Nat.min_eq_left (Nat.le_of_lt long)] at reached
      exact reached
    · right
      rw [shifted, left] at reached
      exact ⟨k, by omega, reached⟩
  · rintro (first | ⟨k, within, reached⟩)
    · refine ⟨0, by omega, ?_⟩
      rw [Nat.zero_mul, Nat.add_zero, Nat.sub_zero, Nat.min_eq_left (Nat.le_of_lt long)]
      exact first
    · refine ⟨k + 1, ?_, ?_⟩
      · rw [Nat.succ_mul]
        omega
      · rw [shifted, left]
        exact reached

theorem Card.covers_within (aligned : blockSize ∣ dataAddr)
    (reached : dataAddr + dataLen ≤ card.reach) (covered : card.Covers dataAddr dataLen a) :
    dataAddr ≤ a ∧ a < dataAddr + dataLen := by
  obtain ⟨k, within, low, high⟩ := covered
  have below : dataAddr + k * writeSize < card.reach := by omega
  have whole : blockSize ∣ dataAddr + k * writeSize :=
    Nat.dvd_add aligned (Nat.dvd_mul_left_of_dvd (by decide) k)
  rw [Nat.mod_eq_of_lt (Nat.lt_trans below card.reach_lt), Card.address_eq whole below] at low high
  omega

/-- The card after writes that stay within a region. -/
structure Stays (card : Card) (region : Nat → Prop) (result : Card) : Prop where
  sameKind : result.highCapacity = card.highCapacity
  outside : ∀ a, ¬ region a → result.content a = card.content a

theorem mmcBootWriteToCard_stays (card : Card) (dataAddr dataLen : Nat) (source : Nat → UInt8) :
    Stays card (fun a => card.address dataAddr ≤ a ∧ a < card.address dataAddr + dataLen)
      (mmcBootWriteToCard card dataAddr dataLen source).2 := by
  refine ⟨?_, fun a beyond => mmcBootWriteToCard_apart card source (by omega)⟩
  unfold mmcBootWriteToCard
  split <;> rfl

theorem Stays.trans {card middle final : Card} {one two : Nat → Prop}
    (before : Stays card one middle) (after : Stays middle two final) :
    Stays card (fun a => one a ∨ two a) final := by
  refine ⟨after.sameKind.trans before.sameKind, fun a beyond => ?_⟩
  rw [not_or] at beyond
  rw [after.outside a beyond.2, before.outside a beyond.1]

theorem Stays.mono {card final : Card} {region larger : Nat → Prop}
    (stays : Stays card region final) (within : ∀ a, region a → larger a) :
    Stays card larger final :=
  ⟨stays.sameKind, fun a beyond => stays.outside a fun here => beyond (within a here)⟩

theorem Stays.refl (card : Card) (region : Nat → Prop) : Stays card region card :=
  ⟨rfl, fun _ _ => rfl⟩

theorem mmcWriteLoop_stays (card : Card) (dataAddr dataLen offset : Nat) (source : Nat → UInt8) :
    Stays card (card.Covers (dataAddr + offset) dataLen)
      (mmcWriteLoop card dataAddr dataLen offset source).2 := by
  fun_induction mmcWriteLoop card dataAddr dataLen offset source with
  | case1 card dataLen offset long written stopped =>
    refine (mmcBootWriteToCard_stays card _ _ _).mono fun a within => ?_
    exact (Card.covers_long long).mpr (.inl within)
  | case2 card dataLen offset long written passed ih =>
    have first := mmcBootWriteToCard_stays card ((dataAddr + offset) % 2 ^ 64) writeSize
      fun i => source (offset + i)
    refine (first.trans ih).mono fun a within => ?_
    rw [Card.covers_congr first.sameKind, ← Nat.add_assoc] at within
    exact (Card.covers_long long).mpr within
  | case3 card dataLen offset short =>
    refine (mmcBootWriteToCard_stays card _ _ _).mono fun a within => ?_
    exact (Card.covers_short short).mpr within
  | case4 card dataLen offset short done => exact Stays.refl card _

theorem mmcWrite_stays (card : Card) (dataAddr dataLen : Nat) (source : Nat → UInt8) :
    Stays card (card.Covers dataAddr (padded dataLen)) (mmcWrite card dataAddr dataLen source).2 :=
  mmcWriteLoop_stays card dataAddr (padded dataLen) 0 source

theorem mmcWriteLoop_overwrites (card : Card) (sure : card.outcomes = [])
    (dataAddr dataLen offset : Nat) (source : Nat → UInt8) :
    ∃ update, Overwrites update (card.Covers (dataAddr + offset) dataLen) ∧
      ∀ content, mmcWriteLoop { card with content := content } dataAddr dataLen offset source =
        (false, { card with content := update content }) := by
  induction dataLen using Nat.strongRecOn generalizing offset with
  | ind dataLen ih =>
    have single (len : Nat) (content : Nat → UInt8) :
        mmcBootWriteToCard { card with content := content } ((dataAddr + offset) % 2 ^ 64) len
            (fun i => source (offset + i)) =
          (false, { card with
            content := splice content (card.address ((dataAddr + offset) % 2 ^ 64)) len
              fun i => source (offset + i) }) := by
      simp only [mmcBootWriteToCard, sure, Card.address]
    by_cases long : writeSize < dataLen
    · have positive : 0 < writeSize := by decide
      obtain ⟨later, writes, ran⟩ := ih (dataLen - writeSize) (by omega) (offset + writeSize)
      refine ⟨_, ((overwrites_splice (card.address ((dataAddr + offset) % 2 ^ 64)) writeSize
        fun i => source (offset + i)).comp writes).congr fun a => ?_, fun content => ?_⟩
      · rw [← Nat.add_assoc]
        exact (Card.covers_long long).symm
      · rw [mmcWriteLoop, if_pos long, single]
        simp only [Bool.false_eq_true, if_false]
        exact ran _
    · by_cases filled : dataLen ≠ 0
      · refine ⟨_, (overwrites_splice (card.address ((dataAddr + offset) % 2 ^ 64)) dataLen
          fun i => source (offset + i)).congr fun a => (Card.covers_short long).symm,
          fun content => ?_⟩
        rw [mmcWriteLoop, if_neg long, if_pos filled, single]
      · refine ⟨_, overwrites_nothing fun a covered => ?_, fun content => ?_⟩
        · obtain ⟨k, within, -⟩ := covered
          omega
        · rw [mmcWriteLoop, if_neg long, if_neg filled]

theorem mmcWrite_overwrites (card : Card) (sure : card.outcomes = []) (dataAddr dataLen : Nat)
    (source : Nat → UInt8) :
    ∃ update, Overwrites update (card.Covers dataAddr (padded dataLen)) ∧
      ∀ content, mmcWrite { card with content := content } dataAddr dataLen source =
        (false, { card with content := update content }) := by
  obtain ⟨update, writes, ran⟩ :=
    mmcWriteLoop_overwrites card sure dataAddr (padded dataLen) 0 source
  refine ⟨update, writes, fun content => ?_⟩
  rw [← ran content]
  rfl

/-- `struct partition_entry`, in blocks. -/
structure PartitionEntry where
  name : Name
  firstLba : Nat
  size : Nat

def numPartitions : Nat := 32

/-- `partition_get_index`; `none` is `INVALID_PTN`. -/
def partitionGetIndex (entries : List PartitionEntry) (name : Name) : Option Nat :=
  if numPartitions ≤ entries.length then none
  else entries.findIdx? fun entry => entry.name = name

def partitionGetSize (entries : List PartitionEntry) (index : Option Nat) : Nat :=
  match index.bind fun i => entries[i]? with
  | none => 0
  | some entry => entry.size * blockSize % 2 ^ 64

def partitionGetOffset (entries : List PartitionEntry) (index : Option Nat) : Nat :=
  match index.bind fun i => entries[i]? with
  | none => 0
  | some entry => entry.firstLba * blockSize % 2 ^ 64

variable (entries : List PartitionEntry)

theorem partitionGetOffset_lt (index : Option Nat) : partitionGetOffset entries index < 2 ^ 64 := by
  unfold partitionGetOffset
  split
  · decide
  · exact Nat.mod_lt _ (by decide)

theorem partitionGetOffset_dvd (index : Option Nat) :
    blockSize ∣ partitionGetOffset entries index := by
  unfold partitionGetOffset
  split
  · exact Nat.dvd_zero _
  · exact (Nat.dvd_mod_iff ⟨2 ^ 55, rfl⟩).mpr (Nat.dvd_mul_left _ _)

theorem partitionGetSize_dvd (index : Option Nat) : blockSize ∣ partitionGetSize entries index := by
  unfold partitionGetSize
  split
  · exact Nat.dvd_zero _
  · exact (Nat.dvd_mod_iff ⟨2 ^ 55, rfl⟩).mpr (Nat.dvd_mul_left _ _)

theorem partition_found {entries : List PartitionEntry} {name : Name}
    (found : partitionGetOffset entries (partitionGetIndex entries name) ≠ 0) :
    ∃ entry, entries.find? (fun entry => entry.name = name) = some entry ∧
      partitionGetOffset entries (partitionGetIndex entries name) =
        entry.firstLba * blockSize % 2 ^ 64 ∧
      partitionGetSize entries (partitionGetIndex entries name) =
        entry.size * blockSize % 2 ^ 64 := by
  cases index : partitionGetIndex entries name with
  | none => exact absurd (by rw [index]; rfl) found
  | some i =>
    unfold partitionGetIndex at index
    split at index
    case isTrue => cases index
    case isFalse =>
      obtain ⟨bound, named, first⟩ := List.findIdx?_eq_some_iff_getElem.mp index
      have here : entries[i]? = some entries[i] := List.getElem?_eq_getElem bound
      refine ⟨entries[i], ?_, ?_, ?_⟩
      · rw [List.find?_eq_some_iff_getElem]
        exact ⟨named, i, bound, rfl, fun j earlier => by simpa using first j earlier⟩
      · simp [partitionGetOffset, here]
      · simp [partitionGetSize, here]

end AndroidBoot.Platform.Mmc
