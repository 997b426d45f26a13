/- source: bootable/lk/platform/msm_shared/nand.c
   digest: When an image that `flash_write` has written is what `flash_read_ext` delivers. -/

import AndroidBoot.Platform.NandBadBlocks

set_option autoImplicit false

namespace AndroidBoot.Platform.NandReadBack

open Function Foundation.Memory Foundation.Selection NandDriver NandRoundTrip NandBadBlocks

variable {g : Geometry} {ptn : Ptentry} {s : Nand} {data : Nat → UInt8} {n : Nat}

theorem kept_reads (wrote : (flashWrite g ptn s 0 data n).1 = false)
    (left : ∀ v ∈ writeVisits g ptn s 0 n, 0 < v.pages →
      (s.bbtbl v.block).getD v.marked = !v.kept) :
    kept (reads g (flashWrite g ptn s 0 data n).2) (ptn.start * g.pagesPerBlk)
        (endPage g ptn s data n) =
      kept (stays g (flashWrite g ptn s 0 data n).2) (ptn.start * g.pagesPerBlk)
        (endPage g ptn s data n) := by
  have follows : Follows _ _ (flashWrite g ptn s 0 data n).2 := flashWrite_follows 0 n
  have table := (@flashWrite_written g ptn s 0 data n).1.bbtbl
  have sorted : (writeVisits g ptn s 0 n).Pairwise (·.block < ·.block) :=
    (visits_sorted _ _ _ _ _ _ _).1
  refine kept_congr fun p low high => ?_
  have from_ : g.block (ptn.start * g.pagesPerBlk) ≤ g.block p := Nat.div_le_div_right low
  obtain ⟨v, member, here, pages⟩ := flashWrite_reaches wrote (g.block p) from_
    (Nat.lt_of_le_of_lt (block_mul_le g p) high)
  have given : v.block ∈ (flashWrite g ptn s 0 data n).2.abandoned ↔ v.kept = false := by
    rw [follows.abandoned]
    constructor
    · rintro (early | ⟨w, there, same, -, lost⟩)
      · cases early
      · rwa [visit_unique sorted there member same] at lost
    · exact fun lost => .inr ⟨v, member, rfl, pages, lost⟩
  simp only [reads, stays, ← here, given]
  rw [skips, table, follows.marked, settle_visited sorted member, left v member pages]
  cases v.kept <;> rfl

theorem counted_length {pages : Nat} (unsigned : n < 2 ^ 32) (whole : pages * g.pageSize = n) :
    counted g 0 n = pages := by
  have pos := g.pageSize_pos
  obtain ⟨rest, all⟩ : g.pageSize ∣ 2 ^ 32 := g.pageSize_dvd.trans (by decide)
  have fits : n + g.pageSize ≤ 2 ^ 32 := by
    rw [all, Nat.mul_comm] at unsigned ⊢
    rw [← whole] at unsigned ⊢
    rw [← Nat.succ_mul]
    exact Nat.mul_le_mul_right _ (Nat.lt_of_mul_lt_mul_right unsigned)
  rw [counted_eq fits, requested, Nat.add_zero, Nat.add_zero, ← whole]
  exact Nat.div_eq_of_lt_le (by omega) (by rw [Nat.succ_mul]; omega)

theorem read_delivers {later : Nat → Answer} {buffer : Nat → UInt8}
    (sound : ∀ k, (later k).fails = false)
    (read : (flashReadExt g ptn (s.answering later) 0 0 buffer n).1 = false) {j : Nat}
    (below : j < counted g 0 n) :
    ∃ p content, (readPages g ptn s)[j]? = some p ∧ Delivers (s.answering later) p content ∧
      ∀ x, x < g.pageSize →
        (flashReadExt g ptn (s.answering later) 0 0 buffer n).2.1 (j * g.pageSize + x) =
          content.data x := by
  rw [flashReadExt_zero] at read ⊢
  have heard : Sound (s.answering later) := sound
  have first : index g ptn (s.answering later) (ptn.start * g.pagesPerBlk) = 0 := by
    rw [index, block_start, kept_self, Nat.mul_mod_left, List.length_nil, Nat.zero_mul]
  obtain ⟨p, content, found, delivers, bytes⟩ :=
    ((readLoop_spec heard (Nat.le_of_eq (block_start g ptn).symm)).2.2 read).2 j below
  rw [first, Nat.zero_add] at found
  refine ⟨p, content, found, delivers, fun x small => ?_⟩
  rw [← bytes x small, Nat.zero_add, Nat.add_zero]

/-- An image that `flash_write` has written is read back when the partition is not the modem's and
every block that the image came to is skipped by the reader, for its entry in the table or else for
the marker that it is left with, if and only if it was given up. -/
theorem flash_round_trip (g : Geometry) (ptn : Ptentry) (s : Nand) (data buffer : Nat → UInt8)
    (n : Nat) (later : Nat → Answer) (unsigned : n < 2 ^ 32)
    (wrote : (flashWrite g ptn s 0 data n).1 = false) (sound : ∀ k, (later k).fails = false)
    (read : (flashReadExt g ptn ((flashWrite g ptn s 0 data n).2.answering later) 0 0 buffer n).1 =
      false)
    (apps : n ≠ 0 → ptn.modem = false)
    (left : ∀ v ∈ writeVisits g ptn s 0 n, 0 < v.pages →
      (s.bbtbl v.block).getD v.marked = !v.kept) :
    ∀ i, i < n →
      (flashReadExt g ptn ((flashWrite g ptn s 0 data n).2.answering later) 0 0 buffer n).2.1 i =
        data i := by
  intro i low
  have written : Written g ptn 0 data (endPage g ptn s data n) n (flashWrite g ptn s 0 data n).2 :=
    (flashWrite_written 0 data n).2 wrote
  have agree := kept_reads wrote left
  generalize (flashWrite g ptn s 0 data n).2 = flash at agree read written ⊢
  generalize endPage g ptn s data n = last at agree written
  have pos := g.pageSize_pos
  have parts := Nat.div_add_mod' i g.pageSize
  have inside : i / g.pageSize < (kept (stays g flash) (ptn.start * g.pagesPerBlk) last).length :=
    (Nat.div_lt_iff_lt_mul pos).mpr (Nat.lt_of_lt_of_eq low written.count.symm)
  obtain ⟨p, content, found, delivers, bytes⟩ :=
    read_delivers sound read (Nat.lt_of_lt_of_eq inside (counted_length unsigned written.count).symm)
  have image : (kept (stays g flash) (ptn.start * g.pagesPerBlk) last)[i / g.pageSize]? =
      some p := by
    rw [← found, ← agree, ← List.getElem?_append_left (agree ▸ inside)]
    exact congrArg (·[i / g.pageSize]?) (kept_append written.low written.high).symm
  obtain ⟨layout, stored, -⟩ := written.stored _ p image
  have there := bytes (i % g.pageSize) (Nat.mod_lt i pos)
  rw [parts, delivers.1 (layout.trans (by simp [Ptentry.layout, apps (by omega)]))] at there
  refine (there.trans (congrFun stored _)).trans ?_
  rw [Nat.add_zero, parts]

theorem flash_round_trip_marked :
    markedFlash.marked 0 = true ∧ ∀ i, i < 6 → (flashReadExt smallGeometry smallPartition
      ((flashWrite smallGeometry smallPartition markedFlash 0 counting 6).2.answering
        fun _ => succeeding) 0 0 (fun _ => 0) 6).2.1 i = counting i :=
  ⟨rfl, flash_round_trip smallGeometry smallPartition markedFlash counting (fun _ => 0) 6
    (fun _ => succeeding) (by decide) (by decide +kernel) (fun _ => rfl) (by decide +kernel)
    (fun _ => rfl) (by decide +kernel)⟩

theorem unmarked_block_read :
    (flashWrite smallGeometry smallPartition wornFlash 0 counting 2).1 = false ∧
    (∀ k, ((fun _ => succeeding : Nat → Answer) k).fails = false) ∧
    (flashReadExt smallGeometry smallPartition
      ((flashWrite smallGeometry smallPartition wornFlash 0 counting 2).2.answering
        fun _ => succeeding) 0 0 (fun _ => 0) 2).1 = false ∧
    (flashReadExt smallGeometry smallPartition
      ((flashWrite smallGeometry smallPartition wornFlash 0 counting 2).2.answering
        fun _ => succeeding) 0 0 (fun _ => 0) 2).2.1 0 = 0xff ∧
    counting 0 = 1 :=
  ⟨by decide +kernel, fun _ => rfl, by decide +kernel, by decide +kernel, rfl⟩

end AndroidBoot.Platform.NandReadBack
