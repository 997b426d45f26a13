/- source: kernel/linux-3.10.1/arch/arm/kernel/setup.c
   digest: The memory banks that arm_add_memory and early_mem record. -/

import Mathlib.Algebra.Order.Ring.Int

set_option autoImplicit false

namespace AndroidBoot.Linux.MemoryBanks

/-- `struct membank`; `phys_addr_t` has 32 bits. -/
structure Membank where
  start : Nat
  size : Nat
deriving DecidableEq

def pageAlign (addr : Nat) : Nat := (addr + 4095) % 2 ^ 32 / 4096 * 4096

def bank (start size : BitVec 32) : Membank :=
  let size := (2 ^ 32 + size.toNat - start.toNat % 4096) % 2 ^ 32
  let first := pageAlign start.toNat
  let size := if (first + size) % 2 ^ 32 < first then 2 ^ 32 - 1 - first else size
  ⟨first, size / 4096 * 4096⟩

def einval : Int := 22

/-- `NR_BANKS` is a parameter; the banks are the first `nr_banks` entries of `meminfo`. -/
def armAddMemory (nrBanks : Nat) (banks : List Membank) (start size : BitVec 32) :
    Int × List Membank :=
  if nrBanks ≤ banks.length then (-einval, banks)
  else if (bank start size).size = 0 then (-einval, banks)
  else (0, banks ++ [bank start size])

structure Setup where
  banks : List Membank
  usermem : Bool

inductive Call where
  | armAddMemory (start size : BitVec 32)
  | earlyMem (size : BitVec 32) (start : Option (BitVec 32))

namespace Call

variable (nrBanks : Nat) (physOffset : BitVec 32)

def start : Call → BitVec 32
  | armAddMemory start _ => start
  | earlyMem _ start => start.getD physOffset

def size : Call → BitVec 32
  | armAddMemory _ size | earlyMem size _ => size

def reset (s : Setup) : Call → Setup
  | armAddMemory _ _ => s
  | earlyMem _ _ => ⟨if s.usermem then s.banks else [], true⟩

def run (s : Setup) (call : Call) : Setup :=
  { call.reset s with
    banks := (MemoryBanks.armAddMemory nrBanks (call.reset s).banks (call.start physOffset)
      call.size).2 }

end Call

def Membank.Paged (b : Membank) : Prop := 4096 ∣ b.start ∧ 4096 ∣ b.size ∧ 0 < b.size

def Membank.Within (b : Membank) (start size : BitVec 32) : Prop :=
  start.toNat ≤ b.start ∧ b.start + b.size ≤ start.toNat + size.toNat

def Fits (start size : Nat) : Prop :=
  let cut := start % 4096
  cut = 0 ∨
  start < 0xFFFFF000 ∧ cut ≤ size ∧
    (4096 ≤ cut + cut + (size - cut) % 4096 ∨ size - cut < 4096 ∨
      2 ^ 32 ≤ start - cut + 4096 + (size - cut)) ∨
  0xFFFFE000 < start ∧ start < 0xFFFFF000 ∧ size < cut ∨
  0xFFFFF000 < start ∧ cut ≤ size ∧ size - cut < 4096

theorem within_iff {start size first left kept : Nat} (low : start < 2 ^ 32)
    (short : size < 2 ^ 32) (aligned : first = pageAlign start)
    (reduced : left = (2 ^ 32 + size - start % 4096) % 2 ^ 32)
    (truncated : kept = if (first + left) % 2 ^ 32 < first then 2 ^ 32 - 1 - first else left) :
    (kept / 4096 * 4096 ≠ 0 → start ≤ first ∧ first + kept / 4096 * 4096 ≤ start + size) ↔
      Fits start size := by
  rw [pageAlign] at aligned
  simp only [Fits]
  by_cases wraps : (first + left) % 2 ^ 32 < first
  · rw [if_pos wraps] at truncated
    omega
  · rw [if_neg wraps] at truncated
    omega

theorem bank_within_iff (start size : BitVec 32) :
    ((bank start size).size ≠ 0 → (bank start size).Within start size) ↔
      Fits start.toNat size.toNat :=
  within_iff start.isLt size.isLt rfl rfl rfl

section Runs

variable (nrBanks : Nat)

def Recorded (banks : List Membank) : Prop :=
  banks.length ≤ nrBanks ∧ ∀ b ∈ banks, b.Paged

variable {nrBanks}

theorem recorded_nil : Recorded nrBanks [] :=
  ⟨Nat.zero_le _, fun _ mem => absurd mem List.not_mem_nil⟩

theorem Recorded.armAddMemory {banks : List Membank} (recorded : Recorded nrBanks banks)
    (start size : BitVec 32) :
    Recorded nrBanks (armAddMemory nrBanks banks start size).2 := by
  rw [MemoryBanks.armAddMemory]
  split_ifs with full empty
  · exact recorded
  · exact recorded
  · refine ⟨?_, ?_⟩
    · rw [List.length_append]
      exact Nat.lt_of_not_le full
    · intro b mem
      obtain old | new := List.mem_append.mp mem
      · exact recorded.2 b old
      · rw [List.mem_singleton.mp new]
        exact ⟨Nat.dvd_mul_left .., Nat.dvd_mul_left .., Nat.pos_of_ne_zero empty⟩

theorem Recorded.reset {s : Setup} (recorded : Recorded nrBanks s.banks) (call : Call) :
    Recorded nrBanks (call.reset s).banks := by
  cases call with
  | armAddMemory => exact recorded
  | earlyMem =>
    rw [Call.reset]
    cases s.usermem with
    | true => exact recorded
    | false => exact recorded_nil

/-- After any calls there are at most `NR_BANKS` banks, all page-aligned and not empty. What the next
call records is contained in the memory it was given just if there is no room or the memory
`Fits`. -/
theorem recorded_within_iff (nrBanks : Nat) (physOffset : BitVec 32) (calls : List Call) :
    let s := calls.foldl (Call.run nrBanks physOffset) ⟨[], false⟩
    Recorded nrBanks s.banks ∧ ∀ call : Call,
      ((∀ b, (call.run nrBanks physOffset s).banks = (call.reset s).banks ++ [b] →
          b.Within (call.start physOffset) call.size) ↔
        ((call.reset s).banks.length < nrBanks →
          Fits (call.start physOffset).toNat call.size.toNat)) := by
  intro s
  refine ⟨?_, ?_⟩
  · refine List.foldlRecOn (motive := fun s : Setup => Recorded nrBanks s.banks) calls _
      recorded_nil ?_
    intro s recorded call _
    exact (recorded.reset call).armAddMemory _ _
  · intro call
    rw [Call.run, armAddMemory, ← bank_within_iff]
    by_cases full : nrBanks ≤ (call.reset s).banks.length
    · simp [full, full.not_gt]
    · by_cases empty : (bank (call.start physOffset) call.size).size = 0
      · simp [full, empty]
      · simp [full, empty, Nat.lt_of_not_le full]

end Runs

theorem bank_beyond_memory :
    let call := Call.armAddMemory 0x1001 0x1001
    (call.run 8 0 ⟨[], false⟩).banks = [⟨0x2000, 0x1000⟩] ∧
      ¬ (⟨0x2000, 0x1000⟩ : Membank).Within (call.start 0) call.size :=
  ⟨by decide, fun within => absurd within.2 (by decide)⟩

end AndroidBoot.Linux.MemoryBanks
