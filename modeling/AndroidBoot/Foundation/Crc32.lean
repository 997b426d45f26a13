/- source: none
   digest: The cyclic redundancy check of 32 bits, bit by bit, and its mirror image. -/

import Mathlib.Data.BitVec

set_option autoImplicit false

namespace AndroidBoot.Foundation.Crc32

/-- The generator of IEEE 802.3, lowest power in the highest bit. -/
def polynomial : BitVec 32 := 0xEDB88320

/-- One bit of a message, with the register shifted to the right. -/
def bitStep (crc : BitVec 32) (bit : Bool) : BitVec 32 :=
  if crc.getLsbD 0 ^^ bit then crc >>> 1 ^^^ polynomial else crc >>> 1

def bits (crc : BitVec 32) (byte : UInt8) (count : Nat) : BitVec 32 :=
  (List.range count).foldl (fun crc i => bitStep crc (byte.toBitVec.getLsbD i)) crc

def register (message : List UInt8) : BitVec 32 :=
  message.foldl (fun crc byte => bits crc byte 8) (BitVec.allOnes 32)

def crc32 (message : List UInt8) : BitVec 32 := ~~~ register message

example : crc32 [0x31, 0x32, 0x33, 0x34, 0x35, 0x36, 0x37, 0x38, 0x39] = 0xCBF43926 := by
  decide +kernel

theorem bits_succ (crc : BitVec 32) (byte : UInt8) (count : Nat) :
    bits crc byte (count + 1) = bitStep (bits crc byte count) (byte.toBitVec.getLsbD count) := by
  rw [bits, List.range_succ, List.foldl_append]
  rfl

def mirroredStep (crc : BitVec 32) (bit : Bool) : BitVec 32 :=
  if crc.msb ^^ bit then crc <<< 1 ^^^ polynomial.reverse else crc <<< 1

theorem reverse_ushiftRight_one (x : BitVec 32) : (x >>> 1).reverse = x.reverse <<< 1 := by
  ext i bound
  rw [BitVec.getElem_reverse, BitVec.getElem_shiftLeft, BitVec.getElem_reverse]
  rcases i with _ | i
  · simp [BitVec.getMsbD_eq_getLsbD]
  · simp only [BitVec.getMsbD_eq_getLsbD, BitVec.getLsbD_ushiftRight]
    have index : 1 + (30 - i) = 31 - i := by omega
    have lower : i < 32 := by omega
    simp [index, bound, lower]

theorem reverse_xor (x y : BitVec 32) : (x ^^^ y).reverse = x.reverse ^^^ y.reverse := by
  ext i bound
  rw [BitVec.getElem_xor, BitVec.getElem_reverse, BitVec.getElem_reverse, BitVec.getElem_reverse,
    BitVec.getMsbD_xor]

theorem reverse_bitStep (crc : BitVec 32) (bit : Bool) :
    (bitStep crc bit).reverse = mirroredStep crc.reverse bit := by
  unfold bitStep mirroredStep
  rw [BitVec.msb_reverse]
  split
  · rw [reverse_xor, reverse_ushiftRight_one]
  · exact reverse_ushiftRight_one crc

end AndroidBoot.Foundation.Crc32
