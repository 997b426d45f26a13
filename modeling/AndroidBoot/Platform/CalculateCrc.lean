/- source: bootable/lk/platform/msm_shared/partition_parser.c
   digest: The loops of `calculate_crc32` compute the CRC-32. -/

import AndroidBoot.Foundation.Crc32

set_option autoImplicit false

namespace AndroidBoot.Platform.CalculateCrc

open Foundation.Crc32

/-- One round of the loop of `reflect`, on `data` and `ref`. -/
def reflectRound (len : Nat) (state : BitVec 32 × BitVec 32) (i : Nat) : BitVec 32 × BitVec 32 :=
  (state.1.sshiftRight 1,
    if state.1 &&& 1#32 ≠ 0 then state.2 ||| 1#32 <<< (len - 1 - i) else state.2)

def reflect (data : BitVec 32) (len : Nat) : BitVec 32 :=
  ((List.range len).foldl (reflectRound len) (data, 0)).2

/-- One round of the inner loop of `calculate_crc32`, on `regs` and `data_byte`. The polynomial
has lost its highest bit in an `int`. -/
def bitRound (state : BitVec 32 × BitVec 32) : BitVec 32 × BitVec 32 :=
  let msb := state.2.sshiftRight 7 &&& 1#32
  let regsMsb := state.1 >>> 31 &&& 1#32
  let regs := state.1 <<< 1
  (if regsMsb ^^^ msb ≠ 0 then regs ^^^ 0x04C11DB7 else regs, state.2 <<< 1)

def byteRound (regs : BitVec 32) (byte : UInt8) : BitVec 32 :=
  ((List.range 8).foldl (fun state _ => bitRound state)
    (regs, reflect (byte.toBitVec.setWidth 32) 8)).1

def calculateCrc32 (buffer : List UInt8) : BitVec 32 :=
  reflect (buffer.foldl byteRound 0xFFFFFFFF) 32 ^^^ 0xFFFFFFFF

theorem and_one_ne_zero_iff (x : BitVec 32) : x &&& 1#32 ≠ 0 ↔ x.getLsbD 0 = true := by
  have low : x &&& 1#32 = BitVec.setWidth 32 (BitVec.ofBool (x.getLsbD 0)) :=
    BitVec.and_one_eq_setWidth_ofBool_getLsbD
  rw [low]
  cases x.getLsbD 0 <;> decide

variable (state : BitVec 32 × BitVec 32)

theorem getLsbD_reflectRound {len count i : Nat} (place : len - 1 - count < 32) :
    (reflectRound len state count).2.getLsbD i =
      (state.2.getLsbD i || (decide (i = len - 1 - count) && state.1.getLsbD 0)) := by
  have bit : (1#32 <<< (len - 1 - count)).getLsbD i = decide (i = len - 1 - count) := by
    rw [← BitVec.twoPow_eq, BitVec.getLsbD_twoPow]
    simp [place, eq_comm]
  simp only [reflectRound, and_one_ne_zero_iff]
  cases state.1.getLsbD 0 with
  | true => simp [bit]
  | false => simp

variable (data : BitVec 32)

theorem reflect_rounds {len : Nat} (short : len ≤ 32) {count : Nat} (bound : count ≤ len) :
    (∀ i, i + count < 32 → (((List.range count).foldl (reflectRound len) (data, 0)).1).getLsbD i =
      data.getLsbD (i + count)) ∧
    ∀ i, i < 32 → (((List.range count).foldl (reflectRound len) (data, 0)).2).getLsbD i =
      (decide (i < len ∧ len - 1 - i < count) && data.getLsbD (len - 1 - i)) := by
  induction count with
  | zero => simp
  | succ count ih =>
    obtain ⟨shifted, filled⟩ := ih (by omega)
    rw [List.range_succ, List.foldl_append, List.foldl_cons, List.foldl_nil]
    generalize (List.range count).foldl (reflectRound len) (data, 0) = state at shifted filled
    have first : state.1.getLsbD 0 = data.getLsbD count := by
      simpa using shifted 0 (by omega)
    refine ⟨fun i inside => ?_, fun i inside => ?_⟩
    · have next := shifted (1 + i) (by omega)
      have index : 1 + i + count = i + (count + 1) := by omega
      rw [index] at next
      rw [reflectRound, BitVec.getLsbD_sshiftRight, ← next]
      have low : 1 + i < 32 := by omega
      have under : ¬ 32 ≤ i := by omega
      simp [low, under]
    · rw [getLsbD_reflectRound state (by omega), filled i inside, first]
      by_cases here : i = len - 1 - count
      · have index : len - 1 - i = count := by omega
        have within : i < len := by omega
        simp [here.symm, index, within]
      · have same : (i < len ∧ len - 1 - i < count + 1) ↔ (i < len ∧ len - 1 - i < count) := by
          omega
        simp only [here, same, decide_false, Bool.false_and, Bool.or_false]

theorem getLsbD_reflect {len i : Nat} (short : len ≤ 32) (inside : i < 32) :
    (reflect data len).getLsbD i = (decide (i < len) && data.getLsbD (len - 1 - i)) := by
  rw [reflect, (reflect_rounds data short (Nat.le_refl len)).2 i inside]
  by_cases within : i < len
  · have below : len - 1 - i < len := by omega
    simp [within, below]
  · simp [within]

theorem reflect_eq_reverse : reflect data 32 = data.reverse := by
  refine BitVec.eq_of_getLsbD_eq fun i inside => ?_
  rw [getLsbD_reflect data (Nat.le_refl 32) inside, BitVec.getLsbD_reverse,
    BitVec.getMsbD_eq_getLsbD]

theorem bitRound_eq :
    bitRound state = (mirroredStep state.1 (state.2.getLsbD 7), state.2 <<< 1) := by
  have bit : (state.1 >>> 31 &&& 1#32 ^^^ (state.2.sshiftRight 7 &&& 1#32) ≠ 0) ↔
      (state.1.msb ^^ state.2.getLsbD 7) = true := by
    have joined : state.1 >>> 31 &&& 1#32 ^^^ (state.2.sshiftRight 7 &&& 1#32) =
        (state.1 >>> 31 ^^^ state.2.sshiftRight 7) &&& 1#32 := by
      ext i inside
      simp only [BitVec.getElem_xor, BitVec.getElem_and, Bool.and_xor_distrib_right]
    have top : state.1.getLsbD 31 = state.1.msb := (BitVec.msb_eq_getLsbD_last _).symm
    have seventh : (state.2.sshiftRight 7).getLsbD 0 = state.2.getLsbD 7 := by
      rw [BitVec.getLsbD_sshiftRight]
      simp
    rw [joined, and_one_ne_zero_iff, BitVec.getLsbD_xor, BitVec.getLsbD_ushiftRight, Nat.add_zero,
      top, seventh]
  have generator : polynomial.reverse = 0x04C11DB7 := by decide +kernel
  simp only [bitRound, mirroredStep, bit, generator]

variable (crc : BitVec 32)

theorem bit_rounds (byte : UInt8) {count : Nat} (bound : count ≤ 8) :
    (List.range count).foldl (fun state _ => bitRound state)
        (crc.reverse, reflect (byte.toBitVec.setWidth 32) 8) =
      ((bits crc byte count).reverse, reflect (byte.toBitVec.setWidth 32) 8 <<< count) := by
  induction count with
  | zero => simp [bits]
  | succ count ih =>
    have bit : (reflect (byte.toBitVec.setWidth 32) 8 <<< count).getLsbD 7 =
        byte.toBitVec.getLsbD count := by
      have from_ : ¬ 7 < count := by omega
      have index : 7 - (7 - count) = count := by omega
      have low : count < 32 := by omega
      have byte_ : 7 - count < 8 := by omega
      rw [BitVec.getLsbD_shiftLeft, getLsbD_reflect _ (by decide) (by omega)]
      simp [from_, index, low, byte_]
    rw [List.range_succ, List.foldl_append, ih (by omega), List.foldl_cons, List.foldl_nil,
      bitRound_eq, bit, bits_succ, reverse_bitStep, BitVec.shiftLeft_add]

theorem byteRound_reverse (byte : UInt8) :
    byteRound crc.reverse byte = (bits crc byte 8).reverse := by
  rw [byteRound, bit_rounds crc byte (Nat.le_refl 8)]

theorem byte_rounds (buffer : List UInt8) :
    buffer.foldl byteRound crc.reverse =
      (buffer.foldl (fun crc byte => bits crc byte 8) crc).reverse := by
  induction buffer generalizing crc with
  | nil => rfl
  | cons byte rest ih => rw [List.foldl_cons, byteRound_reverse, ih, List.foldl_cons]

theorem calculateCrc32_eq (buffer : List UInt8) : calculateCrc32 buffer = crc32 buffer := by
  have ones : (0xFFFFFFFF : BitVec 32) = BitVec.allOnes 32 := by decide
  have mirrored : (BitVec.allOnes 32).reverse = BitVec.allOnes 32 := by decide +kernel
  have rounds := byte_rounds (BitVec.allOnes 32) buffer
  rw [mirrored] at rounds
  rw [calculateCrc32, ones, rounds, reflect_eq_reverse, BitVec.reverse_reverse_eq,
    BitVec.xor_allOnes, crc32, register]

end AndroidBoot.Platform.CalculateCrc
