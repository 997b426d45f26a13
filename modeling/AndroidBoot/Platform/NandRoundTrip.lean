/- source: bootable/lk/platform/msm_shared/nand.c
   digest: What `flash_write` lays out on the flash, and what `flash_read_ext` delivers of it. -/

import AndroidBoot.Foundation.Selection
import AndroidBoot.Platform.NandDriver

/-!
The writer gives a block up when a command on it fails; the reader skips a block for its marker or
for its entry in the table.
-/

set_option autoImplicit false

namespace AndroidBoot.Platform.NandRoundTrip

open Function Foundation.Memory Foundation.Selection NandDriver

variable {g : Geometry} {ptn : Ptentry} {s t u : Nand} {data : Nat → UInt8}

section Frame

/-- Nothing in front of a page has changed, and no block was given up. -/
structure Before (limit : Nat) (s t : Nand) : Prop where
  page : ∀ p, p < limit → t.page p = s.page p
  abandoned : t.abandoned = s.abandoned

/-- Nothing has changed outside of some blocks. -/
structure Confined (g : Geometry) (blocks : Nat → Prop) (s t : Nand) : Prop where
  page : ∀ p, ¬ blocks (g.block p) → t.page p = s.page p
  marked : ∀ b, ¬ blocks b → t.marked b = s.marked b
  bbtbl : t.bbtbl = s.bbtbl

/-- What a command on a page can change: its block from the page on, and the marker. -/
structure Touches (g : Geometry) (first : Nat) (s t : Nand) : Prop where
  page : ∀ p, p < first ∨ g.block p ≠ g.block first → t.page p = s.page p
  marked : ∀ b, b ≠ g.block first → t.marked b = s.marked b
  bbtbl : t.bbtbl = s.bbtbl
  abandoned : t.abandoned = s.abandoned

def inPartition (ptn : Ptentry) (block : Nat) : Prop :=
  ptn.start ≤ block ∧ block < ptn.start + ptn.length

variable {limit page : Nat} {blocks : Nat → Prop}

theorem Before.refl (limit : Nat) (s : Nand) : Before limit s s := ⟨fun _ _ => rfl, rfl⟩

theorem Before.trans (first : Before limit s t) (second : Before limit t u) : Before limit s u :=
  ⟨fun p low => (second.page p low).trans (first.page p low),
    second.abandoned.trans first.abandoned⟩

theorem Before.mono {less : Nat} (before : Before limit s t) (le : less ≤ limit) :
    Before less s t :=
  ⟨fun p low => before.page p (by omega), before.abandoned⟩

theorem Confined.refl (s : Nand) : Confined g blocks s s := ⟨fun _ _ => rfl, fun _ _ => rfl, rfl⟩

theorem Confined.trans (first : Confined g blocks s t) (second : Confined g blocks t u) :
    Confined g blocks s u :=
  ⟨fun p outside => (second.page p outside).trans (first.page p outside),
    fun b outside => (second.marked b outside).trans (first.marked b outside),
    second.bbtbl.trans first.bbtbl⟩

theorem Confined.abandon (confined : Confined g blocks s t) (block : Nat) :
    Confined g blocks s (t.abandon block) :=
  { confined with }

theorem Touches.refl (page : Nat) (s : Nand) : Touches g page s s :=
  ⟨fun _ _ => rfl, fun _ _ => rfl, rfl, rfl⟩

theorem Touches.trans (first : Touches g page s t) (second : Touches g page t u) :
    Touches g page s u :=
  ⟨fun p away => (second.page p away).trans (first.page p away),
    fun b other => (second.marked b other).trans (first.marked b other),
    second.bbtbl.trans first.bbtbl, second.abandoned.trans first.abandoned⟩

theorem Touches.before (touches : Touches g page s t) : Before page s t :=
  ⟨fun p low => touches.page p (.inl low), touches.abandoned⟩

theorem Touches.confined (touches : Touches g page s t) (inside : blocks (g.block page)) :
    Confined g blocks s t :=
  ⟨fun p outside => touches.page p (.inr fun same => outside (same ▸ inside)),
    fun _ outside => touches.marked _ fun same => outside (same ▸ inside), touches.bbtbl⟩

theorem le_block {b p : Nat} : b ≤ g.block p ↔ b * g.pagesPerBlk ≤ p :=
  Nat.le_div_iff_mul_le g.pagesPerBlk_pos

theorem block_lt {b p : Nat} : g.block p < b ↔ p < b * g.pagesPerBlk :=
  Nat.div_lt_iff_lt_mul g.pagesPerBlk_pos

theorem block_mul_le (g : Geometry) (p : Nat) : g.block p * g.pagesPerBlk ≤ p :=
  Nat.div_mul_le_self p g.pagesPerBlk

theorem mul_le_first {b : Nat} (le : b * g.pagesPerBlk ≤ page) :
    b * g.pagesPerBlk ≤ page - page % g.pagesPerBlk := by
  have floor := Nat.div_add_mod' page g.pagesPerBlk
  have := Nat.mul_le_mul_right g.pagesPerBlk (le_block.mpr le)
  rw [Geometry.block] at this
  omega

theorem lt_block_succ_mul (g : Geometry) (p : Nat) : p < (g.block p + 1) * g.pagesPerBlk := by
  rw [Nat.add_mul, Nat.one_mul]
  exact Nat.lt_div_mul_add g.pagesPerBlk_pos

theorem block_first (g : Geometry) (page : Nat) :
    g.block (page - page % g.pagesPerBlk) = g.block page := by
  have floor := Nat.div_add_mod' page g.pagesPerBlk
  have first : page - page % g.pagesPerBlk = page / g.pagesPerBlk * g.pagesPerBlk := by omega
  rw [first, Geometry.block, Geometry.block, Nat.mul_div_cancel _ g.pagesPerBlk_pos]

theorem block_lt_of_lt {p : Nat} (aligned : page % g.pagesPerBlk = 0) (low : p < page) :
    g.block p < g.block page := by
  rwa [block_lt, Geometry.block, Nat.div_mul_cancel (Nat.dvd_of_mod_eq_zero aligned)]

theorem block_eq {p : Nat} (aligned : page % g.pagesPerBlk = 0) (low : page ≤ p)
    (high : p < page + g.pagesPerBlk) : g.block p = g.block page := by
  have here : g.block page * g.pagesPerBlk = page :=
    Nat.div_mul_cancel (Nat.dvd_of_mod_eq_zero aligned)
  refine Nat.div_eq_of_lt_le ?_ ?_
  · rw [here]
    exact low
  · rw [Nat.succ_mul, here]
    exact high

theorem page_inPartition (low : ptn.start * g.pagesPerBlk ≤ page) (room : page < g.lastPage ptn) :
    inPartition ptn (g.block page) :=
  ⟨le_block.mpr low, block_lt.mpr room⟩

theorem eraseBlock_touches (page : Nat) : Touches g page s (eraseBlock g s page).2 := by
  unfold eraseBlock
  split
  · exact Touches.refl page s
  · rename_i aligned
    have put (content : Nat → Page) (p : Nat) (away : p < page ∨ g.block p ≠ g.block page) :
        (s.putBlock g (g.block page) content).page p = s.page p :=
      if_neg (away.elim (fun low => Nat.ne_of_lt (block_lt_of_lt (not_not.mp aligned) low)) id)
    dsimp only
    split
    · exact ⟨fun _ _ => rfl, fun _ _ => rfl, rfl, rfl⟩
    · split
      · exact ⟨put _, fun _ other => update_of_ne other _ _, rfl, rfl⟩
      · exact ⟨put _, fun _ _ => rfl, rfl, rfl⟩

theorem putPage_touches (s : Nand) (content : Page) :
    Touches g page s (s.putPage page content) := by
  refine ⟨fun p away => update_of_ne ?_ _ _, fun _ _ => rfl, rfl, rfl⟩
  rintro rfl
  exact away.elim (Nat.lt_irrefl p) (absurd rfl)

theorem writePage_touches (layout : Layout) (page : Nat) (bytes spare : Nat → UInt8) :
    Touches g page s (writePage g layout s page bytes spare).2 := by
  have put (content : Page) : Touches g page s (s.putPage page content) := putPage_touches s content
  unfold writePage
  dsimp only
  split
  · split
    · exact ⟨(put _).page, fun _ other => update_of_ne other _ _, rfl, rfl⟩
    · exact ⟨(put _).page, fun _ _ => rfl, rfl, rfl⟩
  · exact ⟨(put _).page, fun _ _ => rfl, rfl, rfl⟩

theorem markBadblock_touches (aligned : page % g.pagesPerBlk = 0) :
    Touches g page s (markBadblock g s page).2 := by
  have first : page - page % g.pagesPerBlk = page := by omega
  simp only [markBadblock, first]
  exact ⟨(putPage_touches s _).page, fun _ other => update_of_ne other _ _, rfl, rfl⟩

theorem erased_touches (page : Nat) : Touches g page s
    (if page % g.pagesPerBlk = 0 then eraseBlock g s page else (false, s)).2 := by
  split
  · exact eraseBlock_touches page
  · exact Touches.refl page s

theorem wrote_touches (layout : Layout) (page : Nat) (bytes spare : Nat → UInt8) :
    Touches g page s (writePage g layout
      (if page % g.pagesPerBlk = 0 then eraseBlock g s page else (false, s)).2 page bytes spare).2 :=
  (erased_touches page).trans (writePage_touches layout page bytes spare)

theorem givenUp_touches (wrote : Touches g page s t) :
    let first := page - page % g.pagesPerBlk
    let again := (eraseBlock g t first).2
    Touches g first s (if ptn.modem then again else (markBadblock g again first).2) := by
  intro first again
  have aligned : first % g.pagesPerBlk = 0 := Nat.mod_eq_zero_of_dvd (Nat.dvd_sub_mod page)
  have block : g.block first = g.block page := block_first g page
  have from_ : Touches g first s t :=
    ⟨fun p away => wrote.page p (away.imp (by omega) (block ▸ ·)),
      fun b other => wrote.marked b (block ▸ other), wrote.bbtbl, wrote.abandoned⟩
  have erased : Touches g first s again := from_.trans (eraseBlock_touches first)
  split
  · exact erased
  · exact erased.trans (markBadblock_touches aligned)

theorem eraseFrom_frame (low : ptn.start * g.pagesPerBlk ≤ page) :
    Before page s (eraseFrom g ptn page s) ∧
      Confined g (inPartition ptn) s (eraseFrom g ptn page s) := by
  fun_induction eraseFrom g ptn page s with
  | case1 page s done => exact ⟨Before.refl page s, Confined.refl s⟩
  | case2 page s more ih =>
    have erased : Touches g page s (eraseBlock g s page).2 := eraseBlock_touches page
    obtain ⟨before, confined⟩ := ih (by omega)
    exact ⟨erased.before.trans (before.mono (Nat.le_add_right _ _)),
      (erased.confined (page_inPartition low (by omega))).trans confined⟩

theorem writePage_done {layout : Layout} {bytes spare : Nat → UInt8}
    (done : (writePage g layout s page bytes spare).1 = false) :
    ((writePage g layout s page bytes spare).2.page page).layout = layout ∧
      ((writePage g layout s page bytes spare).2.page page).data = bytes ∧
      (layout ≠ .modem → ((writePage g layout s page bytes spare).2.page page).spare = spare) := by
  unfold writePage at done ⊢
  dsimp only at done ⊢
  split at done
  · exact absurd done (by simp)
  · rename_i fine
    rw [if_neg fine]
    simp +contextual [Nand.putPage]

end Frame

section Layout

def stays (g : Geometry) (s : Nand) (p : Nat) : Bool := decide (g.block p ∉ s.abandoned)

/-- The `i`th page of an image, as it is programmed. -/
def Programmed (g : Geometry) (ptn : Ptentry) (extra : Nat) (data : Nat → UInt8) (i : Nat)
    (page : Page) : Prop :=
  page.layout = ptn.layout ∧ page.data = (fun k => data (i * (g.pageSize + extra) + k)) ∧
    (ptn.layout ≠ .modem → page.spare = if extra = 0 then fun _ => 0xff
      else fun k => data (i * (g.pageSize + extra) + g.pageSize + k))

/-- What is on the flash when the writer stands at a page with `offset` bytes behind it. -/
structure Written (g : Geometry) (ptn : Ptentry) (extra : Nat) (data : Nat → UInt8)
    (page offset : Nat) (s : Nand) : Prop where
  low : ptn.start * g.pagesPerBlk ≤ page
  high : page ≤ g.lastPage ptn
  past : ∀ b ∈ s.abandoned, (b + 1) * g.pagesPerBlk ≤ page
  count : (kept (stays g s) (ptn.start * g.pagesPerBlk) page).length * (g.pageSize + extra) = offset
  stored : ∀ i p, (kept (stays g s) (ptn.start * g.pagesPerBlk) page)[i]? = some p →
    Programmed g ptn extra data i (s.page p)

variable {extra page offset : Nat}

theorem Written.start (fresh : s.abandoned = []) :
    Written g ptn extra data (ptn.start * g.pagesPerBlk) 0 s where
  low := Nat.le_refl _
  high := Nat.mul_le_mul_right _ (Nat.le_add_right _ _)
  past := by simp [fresh]
  count := by simp
  stored := by simp

section Step

variable (written : Written g ptn extra data page offset s)
include written

theorem Written.frame (before : Before page s t) : Written g ptn extra data page offset t := by
  have same : stays g t = stays g s := by
    funext p
    simp only [stays, before.abandoned]
  refine ⟨written.low, written.high, by rw [before.abandoned]; exact written.past,
    by rw [same]; exact written.count, ?_⟩
  intro i p found
  rw [same] at found
  obtain ⟨-, below, -⟩ := mem_kept.mp (List.mem_of_getElem? found)
  rw [before.page p below]
  exact written.stored i p found

theorem Written.stays_from {p : Nat} (from_ : page - page % g.pagesPerBlk ≤ p) :
    stays g s p = true := by
  simp only [stays, decide_eq_true_eq]
  intro given
  have ends := mul_le_first (written.past _ given)
  have inside := lt_block_succ_mul g p
  omega

theorem Written.split :
    kept (stays g s) (ptn.start * g.pagesPerBlk) page =
      kept (stays g s) (ptn.start * g.pagesPerBlk) (page - page % g.pagesPerBlk) ++
        List.range' (page - page % g.pagesPerBlk) (page % g.pagesPerBlk) := by
  have size : page - (page - page % g.pagesPerBlk) = page % g.pagesPerBlk := by
    have := Nat.mod_le page g.pagesPerBlk
    omega
  have block : kept (stays g s) (page - page % g.pagesPerBlk) page =
      List.range' (page - page % g.pagesPerBlk) (page - (page - page % g.pagesPerBlk)) :=
    kept_all fun p from_ _ => written.stays_from from_
  rw [kept_append (mul_le_first written.low) (Nat.sub_le page (page % g.pagesPerBlk)), block, size]

theorem Written.count_split :
    (kept (stays g s) (ptn.start * g.pagesPerBlk) (page - page % g.pagesPerBlk)).length *
      (g.pageSize + extra) + page % g.pagesPerBlk * (g.pageSize + extra) = offset := by
  rw [← Nat.add_mul, ← written.count, written.split, List.length_append, List.length_range']

theorem Written.inBlock_le : page % g.pagesPerBlk * (g.pageSize + extra) ≤ offset :=
  written.count_split ▸ Nat.le_add_left _ _

theorem Written.back :
    Written g ptn extra data (page - page % g.pagesPerBlk)
      (offset - page % g.pagesPerBlk * (g.pageSize + extra)) s := by
  refine ⟨mul_le_first written.low, Nat.le_trans (Nat.sub_le _ _) written.high,
    fun b given => mul_le_first (written.past b given), ?_, ?_⟩
  · have := written.count_split
    omega
  · intro i p found
    refine written.stored i p ?_
    rw [written.split, List.getElem?_append_left (List.getElem?_eq_some_iff.mp found).1]
    exact found

theorem Written.skip (aligned : page % g.pagesPerBlk = 0) (room : page < g.lastPage ptn) :
    Written g ptn extra data (page + g.pagesPerBlk) offset (s.abandon (g.block page)) := by
  have here : g.block page * g.pagesPerBlk = page :=
    Nat.div_mul_cancel (Nat.dvd_of_mod_eq_zero aligned)
  have same : kept (stays g (s.abandon (g.block page))) (ptn.start * g.pagesPerBlk)
      (page + g.pagesPerBlk) = kept (stays g s) (ptn.start * g.pagesPerBlk) page := by
    rw [kept_append written.low (Nat.le_add_right page g.pagesPerBlk)]
    have front : kept (stays g (s.abandon (g.block page))) (ptn.start * g.pagesPerBlk) page =
        kept (stays g s) (ptn.start * g.pagesPerBlk) page := by
      refine kept_congr fun p _ below => ?_
      have other := Nat.ne_of_lt (block_lt_of_lt aligned below)
      simp [stays, Nand.abandon, other]
    have block : kept (stays g (s.abandon (g.block page))) page (page + g.pagesPerBlk) = [] := by
      refine kept_none fun p low high => ?_
      have it := block_eq aligned low high
      simp [stays, Nand.abandon, it]
    rw [front, block, List.append_nil]
  have inside : g.block page + 1 ≤ ptn.start + ptn.length := block_lt.mpr room
  have ends : (g.block page + 1) * g.pagesPerBlk = page + g.pagesPerBlk := by
    rw [Nat.add_mul, here, Nat.one_mul]
  refine ⟨by have := written.low; omega, ends ▸ Nat.mul_le_mul_right _ inside, ?_,
    by rw [same]; exact written.count, ?_⟩
  · refine List.forall_mem_cons.mpr ⟨Nat.le_of_eq ends, fun b earlier => ?_⟩
    have := written.past b earlier
    omega
  · rw [same]
    exact written.stored

theorem Written.next (room : page < g.lastPage ptn)
    (content : ∀ i, i * (g.pageSize + extra) = offset →
      Programmed g ptn extra data i (s.page page)) :
    Written g ptn extra data (page + 1) (offset + (g.pageSize + extra)) s := by
  have more : kept (stays g s) (ptn.start * g.pagesPerBlk) (page + 1) =
      kept (stays g s) (ptn.start * g.pagesPerBlk) page ++ [page] :=
    kept_succ written.low (written.stays_from (Nat.sub_le _ _))
  refine ⟨by have := written.low; omega, room, ?_, ?_, ?_⟩
  · intro b given
    have := written.past b given
    omega
  · rw [more, List.length_append, List.length_singleton, Nat.add_mul, written.count, Nat.one_mul]
  · rw [more]
    intro i p found
    rcases Nat.lt_or_ge i (kept (stays g s) (ptn.start * g.pagesPerBlk) page).length with lt | ge
    · rw [List.getElem?_append_left lt] at found
      exact written.stored i p found
    · rw [List.getElem?_append_right ge, List.getElem?_singleton] at found
      split at found
      · obtain rfl : page = p := Option.some.inj found
        have last : i = (kept (stays g s) (ptn.start * g.pagesPerBlk) page).length := by omega
        exact content i (by rw [last, written.count])
      · exact absurd found (by simp)

end Step

/-- The page at which the loop of `flash_write` ends. -/
def endPage (g : Geometry) (ptn : Ptentry) (s : Nand) (data : Nat → UInt8) (n : Nat) : Nat :=
  (writeLoop g ptn 0 data (ptn.start * g.pagesPerBlk) 0 n { s with abandoned := [] }).2.1

theorem writeLoop_written {n bytes : Nat} (written : Written g ptn extra data page offset s)
    (whole : offset + bytes = n) :
    Confined g (inPartition ptn) s (writeLoop g ptn extra data page offset bytes s).2.2 ∧
      ((writeLoop g ptn extra data page offset bytes s).1 = false →
        Written g ptn extra data (writeLoop g ptn extra data page offset bytes s).2.1 n
          (writeLoop g ptn extra data page offset bytes s).2.2) := by
  fun_induction writeLoop g ptn extra data page offset bytes s with
  | case1 page offset s =>
    obtain rfl : offset = n := by omega
    exact ⟨Confined.refl s, fun _ => written⟩
  | case2 page offset bytes s => exact ⟨Confined.refl s, nofun⟩
  | case3 page offset bytes s => exact ⟨Confined.refl s, nofun⟩
  | case4 page offset bytes s wsize some_ enough room erased failed ih =>
    have aligned : page % g.pagesPerBlk = 0 := by
      by_contra inside
      simp [erased, inside] at failed
    have erasing : Touches g page s erased.2 := erased_touches page
    have inside := page_inPartition written.low (by omega)
    exact (ih ((written.frame erasing.before).skip aligned (by omega)) whole).imp_left
      ((erasing.confined inside).abandon _).trans
  | case5 page offset bytes s wsize some_ enough room erased fine spare wrote failed
      inBlock again again' ih =>
    -- what was programmed in the block so far is taken back, and the block is given up
    have aligned : (page - inBlock) % g.pagesPerBlk = 0 :=
      Nat.mod_eq_zero_of_dvd (Nat.dvd_sub_mod page)
    have first : g.block (page - inBlock) = g.block page := block_first g page
    have inside := page_inPartition written.low (Nat.not_le.mp room)
    have given : Touches g (page - inBlock) s again' := givenUp_touches (wrote_touches _ page _ spare)
    have written' := (written.back.frame given.before).skip aligned (by omega)
    rw [first] at written'
    have behind : inBlock * wsize ≤ offset := written.inBlock_le
    have here : inPartition ptn (g.block (page - inBlock)) := first ▸ inside
    exact (ih written' (by omega)).imp_left ((given.confined here).abandon _).trans
  | case6 page offset bytes s wsize some_ enough room erased fine spare wrote done ih =>
    have inside := page_inPartition written.low (Nat.not_le.mp room)
    have writing : Touches g page s wrote.2 := wrote_touches _ page _ spare
    obtain ⟨layout, content, spared⟩ := writePage_done (Bool.eq_false_iff.mpr done)
    have written' := (written.frame writing.before).next (by omega) fun i there => by
      rw [Programmed, there]
      exact ⟨layout, content, spared⟩
    exact (ih written' (by omega)).imp_left (writing.confined inside).trans

theorem flashWrite_written (extra : Nat) (data : Nat → UInt8) (n : Nat) :
    Confined g (inPartition ptn) s (flashWrite g ptn s extra data n).2 ∧
      ((flashWrite g ptn s extra data n).1 = false → Written g ptn extra data
        (writeLoop g ptn extra data (ptn.start * g.pagesPerBlk) 0 n { s with abandoned := [] }).2.1
        n (flashWrite g ptn s extra data n).2) := by
  have fresh : Written g ptn extra data (ptn.start * g.pagesPerBlk) 0 { s with abandoned := [] } :=
    Written.start rfl
  have run := writeLoop_written fresh (Nat.zero_add n)
  unfold flashWrite
  dsimp only
  generalize writeLoop g ptn extra data (ptn.start * g.pagesPerBlk) 0 n { s with abandoned := [] } =
    result at run ⊢
  obtain ⟨failed, page, flash⟩ := result
  obtain ⟨confined, written⟩ := run
  have start : Confined g (inPartition ptn) s flash := { confined with }
  cases failed with
  | true => exact ⟨start, nofun⟩
  | false =>
    have written : Written g ptn extra data page n flash := written rfl
    have next : page ≤ (page + g.pagesPerBlk - 1) / g.pagesPerBlk * g.pagesPerBlk := by
      have up := Nat.lt_div_mul_add (a := page + g.pagesPerBlk - 1) g.pagesPerBlk_pos
      have := g.pagesPerBlk_pos
      omega
    obtain ⟨before, rest⟩ := eraseFrom_frame (s := flash) (Nat.le_trans written.low next)
    exact ⟨start.trans rest, fun _ => written.frame (before.mono next)⟩

/-- Whatever fails, `flash_write` keeps to the blocks of the partition; and where it succeeds, the
pages of the image lie in order on an increasing sequence of them. -/
theorem flash_write_in_order (g : Geometry) (ptn : Ptentry) (s : Nand) (extra : Nat)
    (data : Nat → UInt8) (n : Nat) :
    Confined g (inPartition ptn) s (flashWrite g ptn s extra data n).2 ∧
      ((flashWrite g ptn s extra data n).1 = false → ∃ blocks : List Nat,
        blocks.Pairwise (· < ·) ∧ (∀ b ∈ blocks, inPartition ptn b) ∧
        g.pageSize + extra ∣ n ∧
        ∀ i, i * (g.pageSize + extra) < n → ∃ b, blocks[i / g.pagesPerBlk]? = some b ∧
          Programmed g ptn extra data i
            ((flashWrite g ptn s extra data n).2.page
              (b * g.pagesPerBlk + i % g.pagesPerBlk))) := by
  obtain ⟨confined, written⟩ := @flashWrite_written g ptn s extra data n
  refine ⟨confined, fun done => ?_⟩
  specialize written done
  generalize (flashWrite g ptn s extra data n).2 = flash at written
  generalize (writeLoop g ptn extra data (ptn.start * g.pagesPerBlk) 0 n _).2.1 = last at written
  refine ⟨kept (fun b => decide (b ∉ flash.abandoned)) ptn.start (ptn.start + ptn.length),
    (List.pairwise_lt_range' 1).filter _, fun b member => ?_,
    written.count ▸ Dvd.intro_left _ rfl, fun i below => ?_⟩
  · obtain ⟨low, high, -⟩ := mem_kept.mp member
    exact ⟨low, high⟩
  · rw [← written.count] at below
    obtain ⟨p, found⟩ : ∃ p, (kept (stays g flash) (ptn.start * g.pagesPerBlk) last)[i]? = some p :=
      ⟨_, List.getElem?_eq_getElem (Nat.lt_of_mul_lt_mul_right below)⟩
    obtain ⟨from_, front, stays_⟩ := mem_kept.mp (List.mem_of_getElem? found)
    obtain ⟨low, high⟩ := page_inPartition from_ (Nat.lt_of_lt_of_le front written.high)
    have place := (kept_length_of_getElem? found).symm.trans
      (kept_pages_length (fun b => decide (b ∉ flash.abandoned)) g.pagesPerBlk_pos low
        (.inr stays_))
    have small := Nat.mod_lt p g.pagesPerBlk_pos
    have block : i / g.pagesPerBlk =
        (kept (fun b => decide (b ∉ flash.abandoned)) ptn.start (g.block p)).length := by
      rw [place, Nat.mul_comm, Nat.mul_add_div g.pagesPerBlk_pos, Nat.div_eq_of_lt small]
      rfl
    have rest : i % g.pagesPerBlk = p % g.pagesPerBlk := by
      rw [place, Nat.mul_add_mod_self_right, Nat.mod_mod]
    refine ⟨g.block p, block ▸ kept_getElem?_length low high stays_, ?_⟩
    rw [rest, Geometry.block, Nat.div_add_mod']
    exact written.stored i p found

end Layout

section Reader

def skips (s : Nand) (block : Nat) : Bool := (s.bbtbl block).getD (s.marked block)

def reads (g : Geometry) (s : Nand) (p : Nat) : Bool := !skips s (g.block p)

def Sound (s : Nand) : Prop := ∀ k, (s.answers k).fails = false

structure Reads (s t : Nand) : Prop where
  page : t.page = s.page
  skips : skips t = skips s
  sound : Sound t

structure Looks (s t : Nand) : Prop extends Reads s t where
  marked : t.marked = s.marked
  heard : ∀ k, ∃ j, t.answers k = s.answers j

/-- What can be read of a page: it, or anything if it was programmed in the other layout. -/
def Delivers (s : Nand) (p : Nat) (content : Page) : Prop :=
  ((s.page p).layout = .apps → content = s.page p) ∧
    ((s.page p).layout ≠ .apps → ∃ j, content = (s.answers j).debris p)

theorem Looks.refl (sound : Sound s) : Looks s s := ⟨⟨rfl, rfl, sound⟩, rfl, fun k => ⟨k, rfl⟩⟩

theorem Looks.ask (sound : Sound s) : Looks s s.ask.2 :=
  ⟨⟨rfl, rfl, fun k => sound (k + 1)⟩, rfl, fun k => ⟨k + 1, rfl⟩⟩

theorem Looks.trans (first : Looks s t) (second : Looks t u) : Looks s u := by
  refine ⟨⟨second.page.trans first.page, second.skips.trans first.skips, second.sound⟩,
    second.marked.trans first.marked, fun k => ?_⟩
  obtain ⟨j, later⟩ := second.heard k
  obtain ⟨i, earlier⟩ := first.heard j
  exact ⟨i, later.trans earlier⟩

theorem Looks.delivers {p : Nat} {content : Page} (looks : Looks s t)
    (delivers : Delivers t p content) : Delivers s p content := by
  rw [Delivers, looks.page] at delivers
  refine ⟨delivers.1, fun other => ?_⟩
  obtain ⟨j, same⟩ := delivers.2 other
  obtain ⟨i, earlier⟩ := looks.heard j
  exact ⟨i, earlier ▸ same⟩

theorem fetchPage_looks (sound : Sound s) (page : Nat) :
    ∃ content, (fetchPage s page).1 = .good content ∧ Delivers s page content ∧
      Looks s (fetchPage s page).2 := by
  have fine : s.ask.1.fails = false := sound 0
  have read : Looks s s.ask.2 := Looks.ask sound
  unfold fetchPage
  dsimp only
  rw [if_neg (by simp [fine])]
  split
  · rename_i apps
    exact ⟨_, rfl, ⟨fun _ => rfl, absurd apps⟩, read⟩
  · rename_i other
    exact ⟨_, rfl, ⟨fun layout => absurd layout other, fun _ => ⟨0, rfl⟩⟩, read⟩

theorem enter_skips (block : Nat) (unknown : s.bbtbl block = none) :
    skips { s.ask.2 with
      bbtbl := update s.ask.2.bbtbl block (some (s.marked block)) } = skips s := by
  funext b
  simp only [skips, Nand.ask]
  obtain rfl | it := eq_or_ne b block
  · rw [update_self, unknown]
    rfl
  · rw [update_of_ne it]

theorem readPage_looks (sound : Sound s) (page : Nat) :
    ∃ content, (readPage g s page).1 =
        (if skips s (g.block page) then .badBlock else .good content) ∧
      (skips s (g.block page) = false → Delivers s page content) ∧
      Looks s (readPage g s page).2 := by
  have fine : s.ask.1.fails = false := sound 0
  unfold readPage
  cases entry : s.bbtbl (g.block page) with
  | none =>
    have known : skips s (g.block page) = s.marked (g.block page) := by simp [skips, entry]
    have bad : blockIsbad g s page = (s.marked (g.block page), s.ask.2) := by
      simp [blockIsbad, fine]
    have entered : Looks s { s.ask.2 with
        bbtbl := update s.ask.2.bbtbl (g.block page) (some (s.marked (g.block page))) } :=
      ⟨⟨rfl, enter_skips _ entry, fun k => sound (k + 1)⟩, rfl, fun k => ⟨k + 1, rfl⟩⟩
    simp only [known, bad]
    cases marked : s.marked (g.block page) with
    | true =>
      rw [marked] at entered
      exact ⟨s.page page, rfl, fun good => absurd good (by decide), entered⟩
    | false =>
      rw [marked] at entered
      obtain ⟨content, result, delivers, read⟩ := fetchPage_looks entered.sound page
      exact ⟨content, result, fun _ => entered.delivers delivers, entered.trans read⟩
  | some bad =>
    have known : skips s (g.block page) = bad := by simp [skips, entry]
    rw [known]
    cases bad with
    | true => exact ⟨s.page page, rfl, fun good => absurd good (by decide), Looks.refl sound⟩
    | false =>
      obtain ⟨content, result, delivers, read⟩ := fetchPage_looks sound page
      exact ⟨content, result, fun _ => delivers, read⟩

def Inside (g : Geometry) (s : Nand) (page : Nat) : Prop :=
  page % g.pagesPerBlk ≠ 0 → skips s (g.block page) = false

def index (g : Geometry) (ptn : Ptentry) (s : Nand) (page : Nat) : Nat :=
  (kept (fun b => !skips s b) ptn.start (g.block page)).length * g.pagesPerBlk +
    page % g.pagesPerBlk

variable {page : Nat}

theorem block_add (g : Geometry) (page : Nat) : g.block (page + g.pagesPerBlk) = g.block page + 1 :=
  Nat.add_div_right page g.pagesPerBlk_pos

theorem index_congr (same : skips t = skips s) (page : Nat) :
    index g ptn t page = index g ptn s page := by
  rw [index, index, same]

section

variable (low : ptn.start ≤ g.block page)
include low

theorem index_skip (bad : skips s (g.block page) = true) :
    index g ptn s (page + g.pagesPerBlk) = index g ptn s page := by
  rw [index, index, block_add, kept_succ_of_not low (by simp [bad]), Nat.add_mod_right]

theorem index_eq_length (inside : Inside g s page) :
    index g ptn s page = (kept (reads g s) (ptn.start * g.pagesPerBlk) page).length := by
  refine (kept_pages_length (fun b => !skips s b) g.pagesPerBlk_pos low ?_).symm
  refine or_iff_not_imp_left.mpr fun within => ?_
  have good : skips s (page / g.pagesPerBlk) = false := inside within
  rw [good]
  rfl

theorem index_next (good : skips s (g.block page) = false) :
    index g ptn s (page + 1) = index g ptn s page + 1 := by
  have inside : Inside g s (page + 1) := by
    intro within
    have same : g.block (page + 1) = g.block page :=
      Nat.succ_div_of_not_dvd fun first => within (Nat.mod_eq_zero_of_dvd first)
    rw [same, good]
  have first := Nat.le_trans (Nat.mul_le_mul_right _ low) (block_mul_le g page)
  rw [index_eq_length (Nat.le_trans low (Nat.div_le_div_right (Nat.le_succ page))) inside,
    index_eq_length low fun _ => good, kept_succ first (by simp [reads, good]), List.length_append]
  rfl

end

def readPages (g : Geometry) (ptn : Ptentry) (s : Nand) : List Nat :=
  kept (reads g s) (ptn.start * g.pagesPerBlk) (g.lastPage ptn)

theorem readPages_congr (same : skips t = skips s) : readPages g ptn t = readPages g ptn s := by
  have reads_ : reads g t = reads g s := by
    funext p
    rw [reads, reads, same]
  rw [readPages, readPages, reads_]

theorem readPages_index (low : ptn.start ≤ g.block page) (room : page < g.lastPage ptn)
    (good : skips s (g.block page) = false) :
    (readPages g ptn s)[index g ptn s page]? = some page := by
  rw [index_eq_length low fun _ => good]
  exact kept_getElem?_length (Nat.le_trans (Nat.mul_le_mul_right _ low) (block_mul_le g page)) room
    (by simp [reads, good])

theorem readPages_length :
    (readPages g ptn s).length =
      (kept (fun b => !skips s b) ptn.start (ptn.start + ptn.length)).length * g.pagesPerBlk :=
  kept_blocks_length (fun b => !skips s b) g.pagesPerBlk ptn.start ptn.length

theorem readPages_past (past : g.lastPage ptn ≤ page) :
    (readPages g ptn s).length ≤ index g ptn s page := by
  have behind : ptn.start + ptn.length ≤ g.block page := le_block.mpr past
  rw [readPages_length, index, kept_append (Nat.le_add_right _ _) behind, List.length_append,
    Nat.add_mul]
  omega

def Ends (g : Geometry) (ptn : Ptentry) (s : Nand) (page count : Nat) : Prop :=
  if count = 0 then page < g.lastPage ptn
  else ∃ p, (readPages g ptn s)[index g ptn s page + (count - 1)]? = some p ∧
    p + 1 < g.lastPage ptn

/-- The loop of the reader succeeds where it ends inside of the partition, delivers the pages from
its place on, and leaves what is in front of `start`. The markers stay. -/
theorem readLoop_spec {extra count start : Nat} {buffer : Nat → UInt8} (sound : Sound s)
    (low : ptn.start ≤ g.block page) :
    Looks s (readLoop g ptn extra page count buffer start s).2.2 ∧
      ((readLoop g ptn extra page count buffer start s).1 = false ↔ Ends g ptn s page count) ∧
      ((readLoop g ptn extra page count buffer start s).1 = false →
        (∀ i, i < start → (readLoop g ptn extra page count buffer start s).2.1 i = buffer i) ∧
        ∀ j, j < count →
          ∃ p content, (readPages g ptn s)[index g ptn s page + j]? = some p ∧
            Delivers s p content ∧ ∀ x, x < g.pageSize →
              (readLoop g ptn extra page count buffer start s).2.1
                (start + j * (g.pageSize + extra) + x) = content.data x) := by
  fun_induction readLoop g ptn extra page count buffer start s with
  | case1 page count buffer start s past =>
    refine ⟨Looks.refl sound, ⟨nofun, fun ends => ?_⟩, nofun⟩
    have none_ := readPages_past (s := s) past
    unfold Ends at ends
    split_ifs at ends
    · omega
    · obtain ⟨p, found, -⟩ := ends
      have := (List.getElem?_eq_some_iff.mp found).1
      omega
  | case2 page buffer start s room =>
    exact ⟨Looks.refl sound, iff_of_true rfl (by rw [Ends, if_pos rfl]; omega),
      fun _ => ⟨fun _ _ => rfl, fun j below => absurd below (Nat.not_lt_zero j)⟩⟩
  | case3 page count buffer start s room more debris s' result ih =>
    obtain ⟨content, met, -⟩ := readPage_looks (g := g) sound page
    rw [result] at met
    exact absurd met (by split <;> simp)
  | case4 page count buffer start s room more s' result ih =>
    obtain ⟨content, met, -, read⟩ := readPage_looks (g := g) sound page
    rw [result] at met
    have read : Looks s s' := by rwa [result] at read
    have skipped : skips s (g.block page) = true := by
      by_contra good
      rw [if_neg good] at met
      cases met
    obtain ⟨looks, ends, delivers⟩ := ih read.sound (by rw [block_add]; omega)
    simp only [Ends, if_neg more, readPages_congr read.skips, index_congr read.skips,
      index_skip low skipped] at ends delivers ⊢
    refine ⟨read.trans looks, ends, fun done => ⟨(delivers done).1, fun j below => ?_⟩⟩
    obtain ⟨p, content, found, delivered, bytes⟩ := (delivers done).2 j below
    exact ⟨p, content, found, read.delivers delivered, bytes⟩
  | case5 page count buffer start s room more content s' result buffer' buffer'' ih =>
    obtain ⟨content', met, good, read⟩ := readPage_looks (g := g) sound page
    rw [result] at met
    have read : Looks s s' := by rwa [result] at read
    cases skipped : skips s (g.block page) with
    | true => exact absurd met (by simp [skipped])
    | false =>
      rw [skipped] at met
      obtain rfl : content = content' := PageRead.good.inj met
      have here := readPages_index low (by omega) skipped
      obtain ⟨looks, ends, delivers⟩ := ih read.sound
        (Nat.le_trans low (Nat.div_le_div_right (Nat.le_succ page)))
      simp only [Ends, readPages_congr read.skips, index_congr read.skips,
        index_next low skipped] at ends delivers
      refine ⟨read.trans looks, ends.trans ?_, fun done => ?_⟩
      · rw [Ends, if_neg more]
        split_ifs with last
        · simp [show count - 1 = 0 from last, here]
        · rw [show index g ptn s page + 1 + (count - 1 - 1) =
            index g ptn s page + (count - 1) by omega]
      · obtain ⟨front, later⟩ := delivers done
        refine ⟨fun i below => ?_, fun j below => ?_⟩
        · rw [front i (by omega)]
          simp only [buffer'', buffer']
          rw [splice_apart _ _ (.inl (by omega)), splice_apart _ _ (.inl below)]
        · cases j with
          | zero =>
            refine ⟨page, content, here, good skipped, fun x within => ?_⟩
            rw [Nat.zero_mul, Nat.add_zero start, front _ (by omega)]
            simp only [buffer'', buffer']
            rw [splice_apart _ _ (.inl (by omega)), splice, if_pos (by omega),
              Nat.add_sub_cancel_left]
          | succ j =>
            obtain ⟨p, content, found, delivered, bytes⟩ := later j (by omega)
            rw [Nat.add_assoc, Nat.add_comm 1 j] at found
            refine ⟨p, content, found, read.delivers delivered, fun x within => ?_⟩
            have place : start + g.pageSize + extra + j * (g.pageSize + extra) + x =
                start + (j + 1) * (g.pageSize + extra) + x := by
              rw [Nat.succ_mul]
              omega
            rw [← place]
            exact bytes x within

end Reader

def requested (g : Geometry) (extra n : Nat) : Nat :=
  (n + g.pageSize - 1 + extra) / (g.pageSize + extra)

def counted (g : Geometry) (extra n : Nat) : Nat :=
  (n + g.pageSize - 1 + extra) % 2 ^ 32 / (g.pageSize + extra)

theorem counted_eq {extra n : Nat} (fits : n + g.pageSize + extra ≤ 2 ^ 32) :
    counted g extra n = requested g extra n := by
  have pos := g.pageSize_pos
  rw [counted, requested, Nat.mod_eq_of_lt (by omega)]

theorem counted_wrapped {extra n : Nat} (unsigned : n < 2 ^ 32)
    (wide : g.pageSize + extra ≤ 2 ^ 32) (wraps : ¬ n + g.pageSize + extra ≤ 2 ^ 32) :
    counted g extra n = 0 := by
  have pos := g.pageSize_pos
  have left : (n + g.pageSize - 1 + extra) % 2 ^ 32 = n + g.pageSize - 1 + extra - 2 ^ 32 := by
    rw [Nat.mod_eq_sub_mod (by omega), Nat.mod_eq_of_lt (by omega)]
  rw [counted, left]
  exact Nat.div_eq_of_lt (by omega)

theorem flashReadExt_zero (extra bytes : Nat) (buffer : Nat → UInt8) :
    flashReadExt g ptn s extra 0 buffer bytes =
      readLoop g ptn extra (ptn.start * g.pagesPerBlk) (counted g extra bytes) buffer 0 s := by
  have here : g.block (ptn.start * g.pagesPerBlk) - ptn.start = 0 := by
    rw [Geometry.block, Nat.mul_div_cancel _ g.pagesPerBlk_pos, Nat.sub_self]
  unfold flashReadExt
  rw [Nat.zero_mod, if_neg (by simp), Nat.zero_div, Nat.add_zero, here, correctPage,
    if_pos (.inl rfl)]
  rfl

theorem pages_cover (extra : Nat) {i n : Nat} (below : i < n) :
    i / (g.pageSize + extra) < requested g extra n := by
  have pos := g.pageSize_pos
  have whole := Nat.div_mul_le_self i (g.pageSize + extra)
  refine (Nat.le_div_iff_mul_le (by omega)).mpr ?_
  rw [Nat.succ_mul]
  omega

section Runs

def smallGeometry : Geometry := ⟨2, 2, by decide, by decide⟩

def smallPartition : Ptentry := ⟨0, 4, false⟩

def succeeding : Answer := ⟨false, fun _ => Page.blank, false⟩

def failing : Answer := ⟨true, fun _ => Page.blank, false⟩

def markedFlash : Nand :=
  ⟨fun block => block == 0, fun _ => none, fun _ => Page.blank, fun _ => succeeding, []⟩

def wornFlash : Nand :=
  ⟨fun _ => false, fun _ => none, fun _ => Page.blank,
    fun n => if n = 1 then failing else succeeding, []⟩

def counting (i : Nat) : UInt8 := UInt8.ofNat (i + 1)

end Runs

section Slice

variable {page : Nat}

def goodPages (g : Geometry) (ptn : Ptentry) (s : Nand) : List Nat :=
  kept (fun p => !s.marked (g.block p)) (ptn.start * g.pagesPerBlk) (g.lastPage ptn)

def Cached (ptn : Ptentry) (s : Nand) : Prop :=
  ∀ b, ptn.start ≤ b → b < ptn.start + ptn.length → skips s b = s.marked b

theorem Cached.goodPages_eq (cached : Cached ptn s) : goodPages g ptn s = readPages g ptn s := by
  refine kept_congr fun p low high => ?_
  rw [reads, cached (g.block p) (le_block.mpr low) (block_lt.mpr high)]

theorem correctPage_spec {startBlock count : Nat} (sound : Sound s) (cached : Cached ptn s)
    (low : ptn.start ≤ startBlock) (ahead : g.block page = startBlock + count) :
    ∃ left page' t stop, correctPage g ptn startBlock count page s = (left, page', t) ∧
      Looks s t ∧ startBlock ≤ stop ∧ g.block page' = stop + left ∧
      page' % g.pagesPerBlk = page % g.pagesPerBlk ∧
      (kept (fun b => !skips s b) startBlock stop).length + left = count ∧
      (left = 0 ∨ ptn.start + ptn.length ≤ stop) ∧
      ∀ n, startBlock ≤ n → count ≤ (kept (fun b => !skips s b) startBlock n).length →
        stop ≤ n := by
  have asked {s : Nand} (sound : Sound s) {b : Nat} :
      (blockIsbad g s (b * g.pagesPerBlk)).1 = s.marked b := by
    have fine : s.ask.1.fails = false := sound 0
    simp [blockIsbad, fine, Geometry.block, g.pagesPerBlk_pos]
  fun_induction correctPage g ptn startBlock count page s with
  | case1 startBlock count page s ends =>
    exact ⟨count, page, s, startBlock, rfl, Looks.refl sound, Nat.le_refl _, ahead, rfl,
      by simp, ends, fun n from_ _ => from_⟩
  | case2 startBlock count page s more bad failed ih =>
    have skipped : skips s startBlock = true := by
      rw [cached startBlock low (by omega), ← asked sound]
      exact failed
    have drop {n : Nat} (past : startBlock + 1 ≤ n) : kept (fun b => !skips s b) startBlock n =
        kept (fun b => !skips s b) (startBlock + 1) n := by
      rw [kept_cons past, if_neg (by simp [skipped])]
    obtain ⟨left, page', t, stop, run, looks, past, block, place, found, ends, least⟩ :=
      ih (fun k => sound (k + 1)) cached (Nat.le_succ_of_le low) (by rw [block_add]; omega)
    refine ⟨left, page', t, stop, run, (Looks.ask sound).trans looks, by omega, block,
      place.trans (Nat.add_mod_right _ _), drop past ▸ found, ends, fun n _ enough => ?_⟩
    have later := lt_of_kept_pos (Nat.lt_of_lt_of_le (by omega) enough)
    exact least n later (drop later ▸ enough)
  | case3 startBlock count page s more bad passed ih =>
    have good : skips s startBlock = false := by
      rw [cached startBlock low (by omega), ← asked sound]
      exact Bool.eq_false_iff.mpr passed
    have cons {n : Nat} (past : startBlock + 1 ≤ n) :
        (kept (fun b => !skips s b) startBlock n).length =
          (kept (fun b => !skips s b) (startBlock + 1) n).length + 1 := by
      rw [kept_cons past, if_pos (by simp [good]), List.length_cons]
    obtain ⟨left, page', t, stop, run, looks, past, block, place, found, ends, least⟩ :=
      ih (fun k => sound (k + 1)) cached (Nat.le_succ_of_le low) (by omega)
    have found : (kept (fun b => !skips s b) (startBlock + 1) stop).length + left = count - 1 :=
      found
    refine ⟨left, page', t, stop, run, (Looks.ask sound).trans looks, by omega, block,
      place, by rw [cons past]; omega, ends, fun n _ enough => ?_⟩
    have later := lt_of_kept_pos (Nat.lt_of_lt_of_le (by omega) enough)
    rw [cons later] at enough
    exact least n later (Nat.sub_le_of_le_add enough)

/-- An offset in pages lies in the partition, as `flash_read_ext` counts: the good blocks in front
of it are not all up to the last block. -/
def StartsInside (g : Geometry) (ptn : Ptentry) (s : Nand) (k : Nat) : Prop :=
  0 < ptn.length ∧ k / g.pagesPerBlk ≤
    (kept (fun b => !s.marked b) ptn.start (ptn.start + ptn.length - 1)).length

theorem flashReadExt_spec (extra k n : Nat) (buffer : Nat → UInt8) (sound : Sound s)
    (cached : Cached ptn s) :
    (∃ page t, Looks s t ∧ ptn.start ≤ g.block page ∧ index g ptn s page = k ∧
      (page < g.lastPage ptn ↔ StartsInside g ptn s k) ∧
      flashReadExt g ptn s extra (k * g.pageSize) buffer n =
        readLoop g ptn extra page (counted g extra n) buffer 0 t) ∨
    ((goodPages g ptn s).length ≤ k ∧ ¬ StartsInside g ptn s k ∧
      (flashReadExt g ptn s extra (k * g.pageSize) buffer n).1 = true) := by
  have first : g.block (ptn.start * g.pagesPerBlk + k) = ptn.start + k / g.pagesPerBlk := by
    rw [Geometry.block, Nat.mul_comm, Nat.mul_add_div g.pagesPerBlk_pos]
  obtain ⟨left, page, t, stop, run, reads, from_, block, place, found, ends, least⟩ :=
    correctPage_spec sound cached (Nat.le_refl _) first
  have marks : kept (fun b => !s.marked b) ptn.start (ptn.start + ptn.length - 1) =
      kept (fun b => !skips s b) ptn.start (ptn.start + ptn.length - 1) :=
    kept_congr fun b low high => by rw [cached b low (by omega)]
  have total := @readPages_length g ptn s
  simp only [StartsInside, marks, cached.goodPages_eq, flashReadExt, Nat.mul_mod_left, first,
    Nat.mul_div_cancel k g.pageSize_pos, ne_eq, not_true, if_false, Nat.add_sub_cancel_left, run]
  cases left with
  | zero =>
    have parts := Nat.div_add_mod' k g.pagesPerBlk
    refine .inl ⟨page, t, reads, by omega, ?_, ?_, rfl⟩
    · rw [index, block, Nat.add_zero, place, Nat.mul_add_mod_self_right,
        show (kept _ ptn.start stop).length = k / g.pagesPerBlk from found, parts]
    · have within : page < g.lastPage ptn ↔ g.block page < ptn.start + ptn.length := block_lt.symm
      rw [within, block]
      constructor
      · intro inside
        refine ⟨by omega, ?_⟩
        rw [kept_append from_ (Nat.le_sub_one_of_lt inside), List.length_append]
        omega
      · rintro ⟨some_, enough⟩
        have := least _ (by omega) enough
        omega
  | succ left =>
    have past : ptn.start + ptn.length ≤ stop := ends.resolve_left (Nat.succ_ne_zero left)
    refine .inr ⟨?_, ?_, rfl⟩
    · rw [total]
      by_contra more
      have enough : k / g.pagesPerBlk ≤ _ := Nat.le_of_lt (block_lt.mpr (Nat.not_le.mp more))
      have := Nat.le_antisymm (least _ (Nat.le_add_right _ _) enough) past
      rw [this] at found
      omega
    · rintro ⟨some_, enough⟩
      have := least _ (by omega) enough
      omega

theorem startsInside_of_lt (sound : Sound s) (cached : Cached ptn s) {k : Nat}
    (below : k < (goodPages g ptn s).length) : StartsInside g ptn s k := by
  rcases flashReadExt_spec 0 k 0 (fun _ => 0) sound cached with
    ⟨page, t, read, low, place, starts, -⟩ | ⟨few, -, -⟩
  · refine starts.mp (Nat.not_le.mp fun past => ?_)
    have := readPages_past (s := s) past
    rw [place, ← cached.goodPages_eq] at this
    omega
  · omega

theorem flashReadExt_succeeds (extra k n : Nat) (buffer : Nat → UInt8) (sound : Sound s)
    (cached : Cached ptn s) :
    (flashReadExt g ptn s extra (k * g.pageSize) buffer n).1 = false ↔
      if counted g extra n = 0 then StartsInside g ptn s k
      else ∃ p, (goodPages g ptn s)[k + (counted g extra n - 1)]? = some p ∧
        p + 1 < g.lastPage ptn := by
  rcases flashReadExt_spec extra k n buffer sound cached with
    ⟨page, t, read, low, place, starts, run⟩ | ⟨few, outside, failed⟩
  · rw [run, (readLoop_spec read.sound low).2.1, Ends, readPages_congr read.skips,
      index_congr read.skips, place, ← cached.goodPages_eq, starts]
  · rw [failed]
    split_ifs with nothing
    · simp [outside]
    · rw [List.getElem?_eq_none_iff.mpr (Nat.le_trans few (Nat.le_add_right k _))]
      simp

/-- Reading from the `k`th page on delivers the pages of the good blocks from the `k`th on,
wherever the bad blocks are, just when the number of bytes can be rounded up in 32 bits or the
offset lies behind the partition. -/
theorem flash_read_slice_iff (g : Geometry) (ptn : Ptentry) (s : Nand) (k n : Nat)
    (unsigned : n < 2 ^ 32) (sound : Sound s) (cached : Cached ptn s)
    (readable : ∀ p ∈ goodPages g ptn s, (s.page p).layout = .apps) :
    (∀ buffer, (flashReadExt g ptn s 0 (k * g.pageSize) buffer n).1 = false →
      ∀ i, i < n → ∃ p, (goodPages g ptn s)[k + i / g.pageSize]? = some p ∧
        (flashReadExt g ptn s 0 (k * g.pageSize) buffer n).2.1 i =
          (s.page p).data (i % g.pageSize)) ↔
      n + g.pageSize ≤ 2 ^ 32 ∨ ¬ StartsInside g ptn s k := by
  have pos := g.pageSize_pos
  have page32 := Nat.le_of_dvd (by decide) g.pageSize_dvd
  constructor
  · intro delivers
    by_contra outside
    obtain ⟨wraps, inside⟩ := not_or.mp outside
    have nothing : counted g 0 n = 0 := counted_wrapped unsigned (by omega) wraps
    -- nothing is read, and the buffer keeps what it had
    have untouched (buffer : Nat → UInt8) :
        (flashReadExt g ptn s 0 (k * g.pageSize) buffer n).1 = false ∧
          (flashReadExt g ptn s 0 (k * g.pageSize) buffer n).2.1 = buffer := by
      rcases flashReadExt_spec 0 k n buffer sound cached with
        ⟨page, t, -, -, -, starts, run⟩ | ⟨-, past, -⟩
      · have room := starts.mpr (not_not.mp inside)
        rw [run, nothing, readLoop, if_neg (by omega), if_pos rfl]
        exact ⟨rfl, rfl⟩
      · exact absurd past inside
    have some_ : 0 < n := by omega
    obtain ⟨p, found, first⟩ := delivers (fun _ => 0) (untouched _).1 0 some_
    obtain ⟨q, found', second⟩ := delivers (fun _ => 1) (untouched _).1 0 some_
    rw [(untouched _).2] at first second
    rw [Option.some.inj (found.symm.trans found')] at first
    exact absurd (first.trans second.symm) (by decide)
  · intro holds buffer done i below
    have parts := Nat.div_add_mod' i g.pageSize
    have inside : StartsInside g ptn s k := by
      have succeeds := (flashReadExt_succeeds 0 k n buffer sound cached).mp done
      split_ifs at succeeds
      · exact succeeds
      · obtain ⟨p, found, -⟩ := succeeds
        have := (List.getElem?_eq_some_iff.mp found).1
        exact startsInside_of_lt sound cached (by omega)
    have fits : n + g.pageSize ≤ 2 ^ 32 := holds.resolve_right (not_not.mpr inside)
    rcases flashReadExt_spec 0 k n buffer sound cached with
      ⟨page, t, read, low, place, starts, run⟩ | ⟨-, -, failed⟩
    · rw [run] at done ⊢
      have count : i / g.pageSize < counted g 0 n := by
        rw [counted_eq fits]
        exact pages_cover 0 below
      obtain ⟨p, content, found, delivers, bytes⟩ :=
        ((readLoop_spec read.sound low).2.2 done).2 (i / g.pageSize) count
      rw [index_congr read.skips, place, readPages_congr read.skips, ← cached.goodPages_eq] at found
      have same := (read.delivers delivers).1 (readable p (List.mem_of_getElem? found))
      have byte := bytes (i % g.pageSize) (Nat.mod_lt i pos)
      rw [Nat.zero_add, Nat.add_zero g.pageSize, parts, same] at byte
      exact ⟨p, found, byte⟩
    · exact absurd done (by rw [failed]; simp)

/-- The flash of the round trip with its pages numbered; its first block is marked. -/
def numbered : Nand := { markedFlash with
  page := fun p => ⟨.apps, fun _ => UInt8.ofNat p, fun _ => 0xff⟩ }

theorem flash_read_slice_marked :
    goodPages smallGeometry smallPartition numbered = [2, 3, 4, 5, 6, 7] ∧
      ((flashReadExt smallGeometry smallPartition numbered 0 (1 * 2) (fun _ => 0) 4).1 = false →
        ∀ i, i < 4 → ∃ p, (goodPages smallGeometry smallPartition numbered)[1 + i / 2]? = some p ∧
          (flashReadExt smallGeometry smallPartition numbered 0 (1 * 2) (fun _ => 0) 4).2.1 i =
            UInt8.ofNat p) :=
  ⟨by decide +kernel, (flash_read_slice_iff smallGeometry smallPartition numbered 1 4 (by decide)
    (fun _ => rfl) (fun _ _ _ => rfl) (fun _ _ => rfl)).mpr (.inl (by decide)) _⟩

/-- A request for `2 ^ 32 - 1` bytes is a success that reads nothing. -/
theorem unread_buffer_delivered :
    let result := flashReadExt smallGeometry smallPartition numbered 0 0 (fun _ => 0) (2 ^ 32 - 1)
    result.1 = false ∧ result.2.1 0 = 0 ∧
      (goodPages smallGeometry smallPartition numbered)[0]? = some 2 ∧
      (numbered.page 2).data 0 = 2 := by
  decide +kernel

/-- `flash_read_ext` succeeds just where the good blocks hold the pages asked for, unless the last
of these is the last page of the partition, or nothing is asked for behind the partition, or the
bytes asked for are counted as none while the partition does not have them. -/
theorem flash_read_succeeds_iff (g : Geometry) (ptn : Ptentry) (s : Nand) (buffer : Nat → UInt8)
    (extra k n : Nat) (unsigned : n < 2 ^ 32) (wide : g.pageSize + extra ≤ 2 ^ 32)
    (sound : Sound s) (cached : Cached ptn s) :
    ((flashReadExt g ptn s extra (k * g.pageSize) buffer n).1 = false ↔
        requested g extra n ≤ (goodPages g ptn s).length - k) ↔
      if n = 0 then StartsInside g ptn s k
      else if n + g.pageSize + extra ≤ 2 ^ 32 then
        (goodPages g ptn s)[k + (requested g extra n - 1)]? ≠ some (g.lastPage ptn - 1)
      else StartsInside g ptn s k → requested g extra n ≤ (goodPages g ptn s).length - k := by
  have pos := g.pageSize_pos
  rw [flashReadExt_succeeds extra k n buffer sound cached]
  rcases Nat.eq_zero_or_pos n with nothing | some_
  · have zero : requested g extra n = 0 := Nat.div_eq_of_lt (by omega)
    have uncounted : counted g extra n = 0 := (counted_eq (by omega)).trans zero
    rw [if_pos uncounted, if_pos nothing, zero]
    simp
  · have pages : 0 < requested g extra n :=
      Nat.lt_of_le_of_lt (Nat.zero_le _) (pages_cover extra some_)
    rw [if_neg (Nat.ne_of_gt some_)]
    split_ifs with wrapped fits fits
    · rw [counted_eq fits] at wrapped
      omega
    · constructor
      · exact Iff.mp
      · intro enough
        refine ⟨enough, fun there => startsInside_of_lt sound cached (by omega)⟩
    · rw [counted_eq fits]
      cases found : (goodPages g ptn s)[k + (requested g extra n - 1)]? with
      | none =>
        have past := List.getElem?_eq_none_iff.mp found
        simp only [reduceCtorEq, false_and, exists_false, false_iff, ne_eq, not_false_eq_true,
          iff_true]
        omega
      | some p =>
        have inside := (List.getElem?_eq_some_iff.mp found).1
        have below := (mem_kept.mp (List.mem_of_getElem? found)).2.1
        simp only [Option.some.injEq, exists_eq_left', ne_eq]
        omega
    · exact absurd (counted_wrapped unsigned wide fits) wrapped

theorem flash_read_succeeds_iff_marked :
    (flashReadExt smallGeometry smallPartition numbered 0 (0 * 2) (fun _ => 0) 8).1 = false ↔
      requested smallGeometry 0 8 ≤ (goodPages smallGeometry smallPartition numbered).length - 0 :=
  (flash_read_succeeds_iff smallGeometry smallPartition numbered (fun _ => 0) 0 0 8 (by decide)
    (by decide) (fun _ => rfl) fun _ _ _ => rfl).mpr
    (by rw [if_neg (by decide), if_pos (by decide)]; decide +kernel)

theorem last_page_fails :
    requested smallGeometry 0 12 ≤ (goodPages smallGeometry smallPartition numbered).length - 0 ∧
      (flashReadExt smallGeometry smallPartition numbered 0 (0 * 2) (fun _ => 0) 12).1 = true := by
  decide +kernel

end Slice

end AndroidBoot.Platform.NandRoundTrip
