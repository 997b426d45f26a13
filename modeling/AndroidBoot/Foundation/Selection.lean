/- source: none
   digest: The numbers of an interval that pass a test, in order. -/

import Mathlib.Data.List.Basic

set_option autoImplicit false

namespace AndroidBoot.Foundation.Selection

/-- The numbers from `start` up to `stop` that pass a test. -/
def kept (keep : Nat → Bool) (start stop : Nat) : List Nat :=
  (List.range' start (stop - start)).filter keep

variable {keep other : Nat → Bool} {start middle stop : Nat}

@[simp] theorem kept_self (keep : Nat → Bool) (start : Nat) : kept keep start start = [] := by
  simp [kept]

theorem kept_append (first : start ≤ middle) (second : middle ≤ stop) :
    kept keep start stop = kept keep start middle ++ kept keep middle stop := by
  have whole : stop - start = (middle - start) + (stop - middle) := by omega
  have there : start + (middle - start) = middle := by omega
  rw [kept, kept, kept, ← List.filter_append, whole, ← List.range'_append_1, there]

theorem mem_kept {n : Nat} : n ∈ kept keep start stop ↔ start ≤ n ∧ n < stop ∧ keep n = true := by
  simp only [kept, List.mem_filter, List.mem_range'_1]
  constructor
  · rintro ⟨⟨low, high⟩, passes⟩
    exact ⟨low, by omega, passes⟩
  · rintro ⟨low, high, passes⟩
    exact ⟨⟨low, by omega⟩, passes⟩

theorem kept_congr (same : ∀ n, start ≤ n → n < stop → keep n = other n) :
    kept keep start stop = kept other start stop := by
  refine List.filter_congr fun n member => ?_
  obtain ⟨low, high⟩ := List.mem_range'_1.mp member
  exact same n low (by omega)

theorem kept_none (none : ∀ n, start ≤ n → n < stop → keep n = false) :
    kept keep start stop = [] := by
  refine List.filter_eq_nil_iff.mpr fun n member => ?_
  obtain ⟨low, high⟩ := List.mem_range'_1.mp member
  simp [none n low (by omega)]

theorem kept_all (all : ∀ n, start ≤ n → n < stop → keep n = true) :
    kept keep start stop = List.range' start (stop - start) := by
  refine List.filter_eq_self.mpr fun n member => ?_
  obtain ⟨low, high⟩ := List.mem_range'_1.mp member
  exact all n low (by omega)

theorem kept_cons (low : start < stop) :
    kept keep start stop =
      if keep start then start :: kept keep (start + 1) stop else kept keep (start + 1) stop := by
  have size : stop - start = (stop - (start + 1)) + 1 := by omega
  rw [kept, kept, size, List.range'_succ, List.filter_cons]

theorem kept_succ (low : start ≤ stop) (passes : keep stop = true) :
    kept keep start (stop + 1) = kept keep start stop ++ [stop] := by
  rw [kept_append low (Nat.le_succ stop), kept_cons (Nat.lt_succ_self stop), if_pos passes,
    kept_self]

theorem kept_succ_of_not (low : start ≤ stop) (fails : keep stop = false) :
    kept keep start (stop + 1) = kept keep start stop := by
  rw [kept_append low (Nat.le_succ stop), kept_cons (Nat.lt_succ_self stop),
    if_neg (Bool.eq_false_iff.mp fails), kept_self, List.append_nil]

theorem lt_of_kept_pos (some_ : 0 < (kept keep start stop).length) : start < stop := by
  obtain ⟨n, member⟩ := List.exists_mem_of_length_pos some_
  obtain ⟨low, high, -⟩ := mem_kept.mp member
  omega

theorem kept_getElem?_length (low : start ≤ middle) (high : middle < stop)
    (passes : keep middle = true) :
    (kept keep start stop)[(kept keep start middle).length]? = some middle := by
  rw [kept_append low (Nat.le_of_lt high), List.getElem?_append_right (Nat.le_refl _),
    Nat.sub_self, kept_cons high, if_pos passes]
  rfl

theorem kept_length_of_getElem? {i n : Nat} (found : (kept keep start stop)[i]? = some n) :
    (kept keep start n).length = i := by
  obtain ⟨low, high, passes⟩ := mem_kept.mp (List.mem_of_getElem? found)
  have distinct : (kept keep start stop).Nodup := List.Pairwise.filter _ List.nodup_range'
  refine ((List.getElem?_inj (List.getElem?_eq_some_iff.mp found).1 distinct).mp ?_).symm
  rw [found, kept_getElem?_length low high passes]

theorem kept_block (keep : Nat → Bool) (size block : Nat) :
    kept (fun n => keep (n / size)) (block * size) ((block + 1) * size) =
      if keep block then List.range' (block * size) size else [] := by
  have width : (block + 1) * size - block * size = size := by
    rw [Nat.succ_mul, Nat.add_sub_cancel_left]
  have same (n : Nat) (low : block * size ≤ n) (high : n < (block + 1) * size) :
      n / size = block := Nat.div_eq_of_lt_le low high
  cases passes : keep block with
  | true =>
    rw [kept_all fun n low high => by rw [same n low high, passes], width]
    rfl
  | false =>
    rw [kept_none fun n low high => by rw [same n low high, passes]]
    rfl

theorem kept_blocks_length (keep : Nat → Bool) (size start count : Nat) :
    (kept (fun n => keep (n / size)) (start * size) ((start + count) * size)).length =
      (kept keep start (start + count)).length * size := by
  induction count with
  | zero => simp
  | succ count ih =>
    have low := Nat.le_add_right start count
    rw [← Nat.add_assoc, kept_append (Nat.mul_le_mul_right size low)
      (Nat.mul_le_mul_right size (Nat.le_succ _)), List.length_append, ih, kept_block]
    cases passes : keep (start + count) with
    | true => simp [kept_succ low passes, Nat.add_mul]
    | false => simp [kept_succ_of_not low passes]

theorem kept_pages_length (keep : Nat → Bool) {size n : Nat} (pos : 0 < size)
    (low : start ≤ n / size) (own : n % size = 0 ∨ keep (n / size) = true) :
    (kept (fun m => keep (m / size)) (start * size) n).length =
      (kept keep start (n / size)).length * size + n % size := by
  have parts := Nat.div_add_mod' n size
  have blocks := kept_blocks_length keep size start (n / size - start)
  rw [Nat.add_sub_cancel' low] at blocks
  rw [kept_append (Nat.mul_le_mul_right size low) (Nat.div_mul_le_self n size),
    List.length_append, blocks, Nat.add_left_cancel_iff]
  rcases own with first | passes
  · rw [show n / size * size = n by omega, kept_self, first]
    rfl
  · rw [kept_all, List.length_range']
    · omega
    · intro m from_ below
      have same : m / size = n / size := Nat.le_antisymm (Nat.div_le_div_right (Nat.le_of_lt below))
        ((Nat.le_div_iff_mul_le pos).mpr from_)
      rw [same, passes]

end AndroidBoot.Foundation.Selection
