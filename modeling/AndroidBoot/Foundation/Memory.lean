/- digest: Memories as functions of the address: writes, overlays, lists in memory, little-endian words. -/

import Mathlib.Algebra.Order.Ring.Int
import Mathlib.Data.List.GetD
import Mathlib.Logic.Nontrivial.Basic

set_option autoImplicit false

namespace AndroidBoot.Foundation.Memory

variable {start len place i : Nat}

variable {α : Type*}

/-- The memory after `len` cells from `start` on have been written from a source. -/
def splice (memory : Nat → α) (start len : Nat) (source : Nat → α) : Nat → α :=
  fun a => if start ≤ a ∧ a < start + len then source (a - start) else memory a

/-- The memory under a list of cells from `start` on; an empty cell shows the memory. -/
def overlay (memory : Nat → α) (start : Nat) (cells : List (Option α)) : Nat → α :=
  fun a => if start ≤ a then (cells.getD (a - start) none).getD (memory a) else memory a

def Agrees (memory : Nat → α) (start : Nat) (cells : List α) : Prop :=
  ∀ i (bound : i < cells.length), memory (start + i) = cells[i]

def window (memory : Nat → α) (start len : Nat) : List α :=
  (List.range len).map fun i => memory (start + i)

theorem splice_zero (memory : Nat → α) (start : Nat) (source : Nat → α) :
    splice memory start 0 source = memory := by
  funext a
  exact if_neg (by omega)

theorem splice_splice (memory : Nat → α) (start n k : Nat) (source : Nat → α) :
    splice (splice memory start n source) (start + n) k (fun i => source (n + i)) =
      splice memory start (n + k) source := by
  funext a
  simp only [splice]
  by_cases low : start ≤ a ∧ a < start + n
  · rw [if_neg (by omega), if_pos low, if_pos (by omega)]
  · by_cases high : start + n ≤ a ∧ a < start + n + k
    · rw [if_pos high, if_pos (by omega)]
      congr 1
      omega
    · rw [if_neg high, if_neg low, if_neg (by omega)]

theorem splice_apart (memory : Nat → α) {a : Nat} (source : Nat → α)
    (apart : a < start ∨ start + len ≤ a) : splice memory start len source a = memory a :=
  if_neg (by omega)

theorem splice_congr (memory : Nat → α) (start : Nat) {source other : Nat → α}
    (same : ∀ i, i < len → source i = other i) :
    splice memory start len source = splice memory start len other := by
  funext a
  simp only [splice]
  by_cases within : start ≤ a ∧ a < start + len
  · rw [if_pos within, if_pos within]
    exact same _ (by omega)
  · rw [if_neg within, if_neg within]

/-- An update that gives the cells of a region values of its own and leaves the others
alone. -/
structure Overwrites (update : (Nat → α) → Nat → α) (region : Nat → Prop) : Prop where
  inside : ∀ a, region a → ∃ value, ∀ memory, update memory a = value
  outside : ∀ a, ¬ region a → ∀ memory, update memory a = memory a

theorem overwrites_splice (start len : Nat) (source : Nat → α) :
    Overwrites (fun memory => splice memory start len source)
      (fun a => start ≤ a ∧ a < start + len) :=
  ⟨fun a within => ⟨source (a - start), fun _ => if_pos within⟩, fun _ beyond _ => if_neg beyond⟩

theorem overwrites_nothing {region : Nat → Prop} (empty : ∀ a, ¬ region a) :
    Overwrites (fun memory : Nat → α => memory) region :=
  ⟨fun a within => absurd within (empty a), fun _ _ _ => rfl⟩

variable {update : (Nat → α) → Nat → α}

theorem Overwrites.congr {region other : Nat → Prop}
    (writes : Overwrites update region) (same : ∀ a, region a ↔ other a) :
    Overwrites update other := by
  obtain rfl : region = other := funext fun a => propext (same a)
  exact writes

theorem Overwrites.comp {first second : (Nat → α) → Nat → α} {one two : Nat → Prop}
    (before : Overwrites first one) (after : Overwrites second two) :
    Overwrites (fun memory => second (first memory)) (fun a => one a ∨ two a) := by
  refine ⟨fun a within => ?_, fun a beyond memory => ?_⟩
  · by_cases late : two a
    · obtain ⟨value, written⟩ := after.inside a late
      exact ⟨value, fun memory => written _⟩
    · obtain ⟨value, written⟩ := before.inside a (within.resolve_right late)
      exact ⟨value, fun memory => (after.outside a late _).trans (written memory)⟩
  · rw [not_or] at beyond
    rw [after.outside a beyond.2, before.outside a beyond.1]

theorem Overwrites.confined_iff [Nontrivial α]
    {region : Nat → Prop} (writes : Overwrites update region) (allowed : Nat → Prop) :
    (∀ memory a, update memory a ≠ memory a → allowed a) ↔ ∀ a, region a → allowed a := by
  constructor
  · intro confined a within
    obtain ⟨value, written⟩ := writes.inside a within
    obtain ⟨other, differs⟩ := exists_ne value
    apply confined (fun _ => other) a
    rw [written]
    exact differs.symm
  · intro within memory a changed
    by_contra beyond
    exact changed (writes.outside a (fun here => beyond (within a here)) memory)

theorem overlay_nil (memory : Nat → α) (start : Nat) : overlay memory start [] = memory := by
  funext a
  simp [overlay]

theorem overlay_append (memory : Nat → α) (start : Nat) (xs ys : List (Option α)) :
    overlay memory start (xs ++ ys) = overlay (overlay memory start xs) (start + xs.length) ys := by
  funext a
  simp only [overlay]
  by_cases low : start ≤ a
  · by_cases high : start + xs.length ≤ a
    · rw [if_pos low, if_pos high, if_pos low, List.getD_append_right _ _ _ _ (by omega),
        List.getD_eq_default xs none (by omega), Option.getD_none]
      congr 2
      omega
    · rw [if_pos low, if_neg high, if_pos low, List.getD_append _ _ _ _ (by omega)]
  · rw [if_neg low, if_neg (by omega), if_neg low]

theorem overlay_map_some (memory : Nat → α) (start : Nat) (cells : List α) (source : Nat → α)
    (same : Agrees source 0 cells) :
    overlay memory start (cells.map some) = splice memory start cells.length source := by
  funext a
  simp only [overlay, splice]
  by_cases low : start ≤ a
  · by_cases high : a < start + cells.length
    · have bound : a - start < cells.length := by omega
      have here := same (a - start) bound
      rw [Nat.zero_add] at here
      rw [if_pos low, if_pos ⟨low, high⟩, here, List.getD_eq_getElem _ _ (by simpa using bound)]
      simp
    · rw [if_pos low, if_neg (by omega), List.getD_eq_default _ _ (by simp; omega)]
      rfl
  · rw [if_neg low, if_neg (by omega)]

theorem overlay_replicate_none (memory : Nat → α) (start n : Nat) :
    overlay memory start (List.replicate n none) = memory := by
  funext a
  simp only [overlay]
  by_cases inside : a - start < n
  · simp
  · simp

variable {memory : Nat → α}

theorem agrees_append {xs ys : List α} :
    Agrees memory start (xs ++ ys) ↔
      Agrees memory start xs ∧ Agrees memory (start + xs.length) ys := by
  constructor
  · intro all
    refine ⟨fun i bound => ?_, fun i bound => ?_⟩
    · have here := all i (by simp; omega)
      rwa [List.getElem_append_left bound] at here
    · have here := all (xs.length + i) (by simp; omega)
      simpa [Nat.add_assoc] using here
  · rintro ⟨left, right⟩ i bound
    by_cases low : i < xs.length
    · rw [List.getElem_append_left low]
      exact left i low
    · rw [List.getElem_append_right (by omega)]
      rw [List.length_append] at bound
      have here := right (i - xs.length) (by omega)
      rwa [Nat.add_assoc, Nat.add_sub_cancel' (by omega)] at here

theorem agrees_overlay (memory : Nat → α) (start : Nat) (cells : List α) :
    Agrees (overlay memory start (cells.map some)) start cells := by
  intro i bound
  rw [overlay, if_pos (by omega), Nat.add_sub_cancel_left,
    List.getD_eq_getElem _ _ (by simpa using bound)]
  simp

theorem Agrees.overlay_behind {xs : List α} (same : Agrees memory start xs)
    (cells : List (Option α)) : Agrees (overlay memory (start + xs.length) cells) start xs := by
  intro i bound
  rw [overlay, if_neg (by omega)]
  exact same i bound

theorem agrees_getD (cells : List α) (rest : α) : Agrees (fun i => cells.getD i rest) 0 cells := by
  intro i bound
  simp [bound]

theorem Agrees.shift {cells : List α} (same : Agrees memory start cells) :
    Agrees (fun i => memory (start + i)) 0 cells := by
  intro i bound
  simpa using same i bound

def le16 (memory : Nat → UInt8) (start : Nat) : Nat :=
  (memory start).toNat + 2 ^ 8 * (memory (start + 1)).toNat

def le32 (memory : Nat → UInt8) (start : Nat) : Nat :=
  le16 memory start + 2 ^ 16 * le16 memory (start + 2)

def le64 (memory : Nat → UInt8) (start : Nat) : Nat :=
  le32 memory start + 2 ^ 32 * le32 memory (start + 4)

theorem le16_lt (memory : Nat → UInt8) (start : Nat) : le16 memory start < 2 ^ 16 := by
  have low := (memory start).toNat_lt
  have high := (memory (start + 1)).toNat_lt
  unfold le16
  omega

theorem le32_lt (memory : Nat → UInt8) (start : Nat) : le32 memory start < 2 ^ 32 := by
  have low := le16_lt memory start
  have high := le16_lt memory (start + 2)
  unfold le32
  omega

theorem le32_eq_zero_iff {memory : Nat → UInt8} {start : Nat} :
    le32 memory start = 0 ↔ ∀ i < 4, memory (start + i) = 0 := by
  have sum : le32 memory start = (memory (start + 0)).toNat + 2 ^ 8 * (memory (start + 1)).toNat +
      2 ^ 16 * ((memory (start + 2)).toNat + 2 ^ 8 * (memory (start + 3)).toNat) := rfl
  simp only [← UInt8.toNat_inj, UInt8.toNat_zero]
  constructor
  · intro zero i bound
    obtain rfl | rfl | rfl | rfl : i = 0 ∨ i = 1 ∨ i = 2 ∨ i = 3 := by omega
    all_goals omega
  · intro zero
    rw [sum, zero 0 (by decide), zero 1 (by decide), zero 2 (by decide), zero 3 (by decide)]
    rfl

def toLe16 (n : Nat) : List UInt8 := [UInt8.ofNat n, UInt8.ofNat (n / 2 ^ 8)]

def toLe32 (n : Nat) : List UInt8 := toLe16 n ++ toLe16 (n / 2 ^ 16)

def be32 (memory : Nat → UInt8) (start : Nat) : Nat :=
  2 ^ 24 * (memory start).toNat + 2 ^ 16 * (memory (start + 1)).toNat +
    2 ^ 8 * (memory (start + 2)).toNat + (memory (start + 3)).toNat

def Matches (memory : Nat → α) (start : Nat) (other : Nat → α) (place len : Nat) : Prop :=
  ∀ i, i < len → memory (start + i) = other (place + i)

section Matches

variable {memory other : Nat → UInt8} (same : Matches memory start other place len)
include same

theorem Matches.le16 (within : i + 2 ≤ len) : le16 memory (start + i) = le16 other (place + i) := by
  rw [Memory.le16, Memory.le16, Nat.add_assoc, Nat.add_assoc, same i (by omega),
    same (i + 1) (by omega)]

theorem Matches.le32 (within : i + 4 ≤ len) : le32 memory (start + i) = le32 other (place + i) := by
  rw [Memory.le32, Memory.le32, same.le16 (by omega), Nat.add_assoc, Nat.add_assoc,
    same.le16 (by omega)]

theorem Matches.le64 (within : i + 8 ≤ len) : le64 memory (start + i) = le64 other (place + i) := by
  rw [Memory.le64, Memory.le64, same.le32 (by omega), Nat.add_assoc, Nat.add_assoc,
    same.le32 (by omega)]

end Matches

theorem matches_splice (memory : Nat → α) (start len : Nat) (source : Nat → α) :
    Matches (splice memory start len source) start source 0 len := by
  intro i within
  simp only [splice]
  rw [if_pos (by omega), Nat.add_sub_cancel_left, Nat.zero_add]

theorem Matches.trans {memory other third : Nat → α} {spot : Nat}
    (first : Matches memory start other place len) (second : Matches other place third spot len) :
    Matches memory start third spot len :=
  fun i within => (first i within).trans (second i within)

variable {memory other : Nat → α}

theorem Matches.splice (same : Matches memory start other place len)
    {from_ size : Nat} (source : Nat → α) (apart : start + len ≤ from_ ∨ from_ + size ≤ start) :
    Matches (Memory.splice memory from_ size source) start other place len := by
  intro i within
  rw [splice_apart memory source (by omega)]
  exact same i within

@[simp] theorem length_toLe16 (n : Nat) : (toLe16 n).length = 2 := rfl

@[simp] theorem length_toLe32 (n : Nat) : (toLe32 n).length = 4 := rfl

theorem le16_of_agrees {memory : Nat → UInt8} {n : Nat} (same : Agrees memory start (toLe16 n)) :
    le16 memory start = n % 2 ^ 16 := by
  have low : memory start = UInt8.ofNat n := same 0 (by simp)
  have high : memory (start + 1) = UInt8.ofNat (n / 2 ^ 8) := same 1 (by simp)
  rw [le16, low, high, UInt8.toNat_ofNat', UInt8.toNat_ofNat']
  omega

theorem le32_of_agrees {memory : Nat → UInt8} {n : Nat} (same : Agrees memory start (toLe32 n))
    (bound : n < 2 ^ 32) : le32 memory start = n := by
  obtain ⟨low, high⟩ := agrees_append.mp same
  have upper : le16 memory (start + 2) = n / 2 ^ 16 % 2 ^ 16 := le16_of_agrees high
  rw [le32, le16_of_agrees low, upper]
  omega

def bytesOf (value : Nat) (k : Nat) : UInt8 := UInt8.ofNat (value / 2 ^ (8 * k))

theorem le64_bytesOf (value : Nat) : le64 (bytesOf value) 0 = value % 2 ^ 64 := by
  simp only [le64, le32, le16, bytesOf, UInt8.toNat_ofNat', Nat.zero_add, Nat.mul_zero,
    Nat.reduceMul, Nat.reduceAdd, Nat.pow_zero, Nat.div_one]
  omega

structure Put (α : Type*) where
  start : Nat
  len : Nat
  source : Nat → α

def putAll (puts : List (Put α)) (memory : Nat → α) : Nat → α :=
  puts.foldl (fun memory put => splice memory put.start put.len put.source) memory

def Put.Apart (put : Put α) (start len : Nat) : Prop :=
  start + len ≤ put.start ∨ put.start + put.len ≤ start

theorem putAll_append (first second : List (Put α)) (memory : Nat → α) :
    putAll (first ++ second) memory = putAll second (putAll first memory) :=
  List.foldl_append

theorem putAll_matches {puts : List (Put α)} (apart : ∀ put ∈ puts, put.Apart start len)
    (memory : Nat → α) : Matches (putAll puts memory) start memory start len := by
  induction puts generalizing memory with
  | nil => exact fun _ _ => rfl
  | cons put rest ih =>
    have first : Matches (splice memory put.start put.len put.source) start memory start len := by
      have same : Matches memory start memory start len := fun _ _ => rfl
      exact same.splice put.source (apart put List.mem_cons_self)
    exact (ih (List.forall_mem_cons.mp apart).2 _).trans first

theorem putAll_self (before : List (Put α)) (put : Put α) (after : List (Put α))
    (apart : ∀ p ∈ after, p.Apart put.start put.len) (memory : Nat → α) :
    Matches (putAll (before ++ put :: after) memory) put.start put.source 0 put.len := by
  rw [putAll_append]
  exact (putAll_matches apart _).trans (matches_splice _ put.start put.len put.source)

theorem window_congr (same : Matches memory start other place len) :
    window memory start len = window other place len := by
  refine List.map_congr_left fun i member => ?_
  exact same i (List.mem_range.mp member)

end AndroidBoot.Foundation.Memory
