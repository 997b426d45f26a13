/- source: bootable/lk/platform/msm_shared/nand.c
   digest: Which blocks `flash_write` gives up and marks, and what reads then make of them. -/

import AndroidBoot.Platform.NandRoundTrip
import Mathlib.Data.List.Nodup

set_option autoImplicit false

namespace AndroidBoot.Platform.NandBadBlocks

open Function Foundation.Memory Foundation.Selection NandDriver NandRoundTrip

variable {g : Geometry} {ptn : Ptentry} {s t u : Nand} {data : Nat → UInt8}

section Visits

def behind (answers : Nat → Answer) (n : Nat) : Nat → Answer := fun k => answers (k + n)

/-- What commands make of a block: whether the image can use it, its marker, and their number. -/
structure Fate where
  kept : Bool
  marked : Bool
  commands : Nat

def erasing (marked : Bool) (answers : Nat → Answer) : Fate :=
  if (answers 0).fails || marked then ⟨false, marked, 1⟩
  else if (answers 1).fails then ⟨false, (answers 1).marks, 2⟩
  else ⟨true, false, 2⟩

def givingUp (modem first : Bool) (answers : Nat → Answer) : Fate :=
  let again := erasing (first && (answers 0).marks) (behind answers 1)
  if modem then ⟨false, again.marked, again.commands + 1⟩
  else
    let mark := answers (again.commands + 1)
    ⟨false, !mark.fails || mark.marks, again.commands + 2⟩

def programming (modem : Bool) : Bool → Nat → (Nat → Answer) → Fate
  | _, 0, _ => ⟨true, false, 0⟩
  | first, pages + 1, answers =>
    if (answers 0).fails then givingUp modem first answers
    else
      let rest := programming modem false pages (behind answers 1)
      { rest with commands := rest.commands + 1 }

def visit (modem marked : Bool) (pages : Nat) (answers : Nat → Answer) : Fate :=
  let erased := erasing marked answers
  if erased.kept then
    let rest := programming modem true pages (behind answers erased.commands)
    { rest with commands := rest.commands + erased.commands }
  else erased

/-- A block that `flash_write` comes to: the pages of the image that are left, whether the block is
kept for them, and its marker afterwards. -/
structure Visit where
  block : Nat
  pages : Nat
  kept : Bool
  marked : Bool

/-- The blocks that `flash_write` comes to, those that it erases behind the image included. An image
that ends in the middle of a page ends the call there. -/
def visits (g : Geometry) (modem : Bool) (marked : Nat → Bool) (odd : Bool) :
    Nat → Nat → Nat → (Nat → Answer) → List Visit
  | 0, _, _, _ => []
  | blocks + 1, block, pages, answers =>
    if odd && pages == 0 then []
    else
      let fate := visit modem (marked block) (min pages g.pagesPerBlk) answers
      ⟨block, pages, fate.kept, fate.marked⟩ :: visits g modem marked odd blocks (block + 1)
        (if fate.kept then pages - g.pagesPerBlk else pages) (behind answers fate.commands)

def settle (list : List Visit) (marked : Nat → Bool) : Nat → Bool :=
  list.foldl (fun marked v => update marked v.block v.marked) marked

/-- The visits have led from a flash to another. -/
structure Follows (list : List Visit) (s t : Nand) : Prop where
  marked : t.marked = settle list s.marked
  abandoned : ∀ b, b ∈ t.abandoned ↔
    b ∈ s.abandoned ∨ ∃ v ∈ list, v.block = b ∧ 0 < v.pages ∧ v.kept = false

/-- The commands on a block have led from a flash to another. -/
structure After (block : Nat) (fate : Fate) (s t : Nand) : Prop where
  marked : t.marked = update s.marked block fate.marked
  answers : t.answers = behind s.answers fate.commands

theorem behind_behind (answers : Nat → Answer) (m n : Nat) :
    behind (behind answers m) n = behind answers (n + m) := by
  funext k
  simp only [behind, Nat.add_assoc]

theorem visit_zero (modem marked : Bool) (answers : Nat → Answer) :
    visit modem marked 0 answers = erasing marked answers := by
  unfold visit erasing
  dsimp only
  split_ifs <;> simp_all [programming]

theorem visits_congr {modem odd : Bool} {marked marked' : Nat → Bool} {blocks block pages : Nat}
    {answers : Nat → Answer} (same : ∀ b, block ≤ b → marked b = marked' b) :
    visits g modem marked odd blocks block pages answers =
      visits g modem marked' odd blocks block pages answers := by
  induction blocks generalizing block pages answers with
  | zero => rfl
  | succ blocks ih =>
    simp only [visits, same block (Nat.le_refl block)]
    rw [ih fun b past => same b (by omega)]

theorem Follows.refl (s : Nand) : Follows [] s s := ⟨rfl, fun b => by simp⟩

theorem Follows.cons {v : Visit} {list : List Visit}
    (marked : t.marked = update s.marked v.block v.marked)
    (abandoned : t.abandoned =
      if 0 < v.pages ∧ v.kept = false then v.block :: s.abandoned else s.abandoned)
    (rest : Follows list t u) : Follows (v :: list) s u := by
  refine ⟨rest.marked.trans (by rw [settle, settle, List.foldl_cons, marked]), fun b => ?_⟩
  rw [rest.abandoned b, abandoned]
  split_ifs with given
  · simp only [List.mem_cons, exists_eq_or_imp]
    constructor
    · rintro ((rfl | before) | later)
      · exact .inr (.inl ⟨rfl, given⟩)
      · exact .inl before
      · exact .inr (.inr later)
    · rintro (before | ⟨rfl, -⟩ | later)
      · exact .inl (.inr before)
      · exact .inl (.inl rfl)
      · exact .inr later
  · simp only [List.mem_cons, exists_eq_or_imp, given, and_false, false_or]

end Visits

section Commands

variable {page : Nat}

theorem eraseBlock_after (aligned : page % g.pagesPerBlk = 0) :
    (eraseBlock g s page).1 = !(erasing (s.marked (g.block page)) s.answers).kept ∧
      After (g.block page) (erasing (s.marked (g.block page)) s.answers) s
        (eraseBlock g s page).2 := by
  have first : s.ask.1 = s.answers 0 := rfl
  have second : s.ask.2.ask.1 = s.answers 1 := rfl
  unfold eraseBlock erasing
  rw [if_neg (by simp [aligned])]
  dsimp only [blockIsbad]
  rw [first, second]
  split_ifs with bad failed
  · exact ⟨rfl, (update_eq_self _ _).symm, rfl⟩
  · exact ⟨rfl, rfl, rfl⟩
  · simp only [Bool.or_eq_true, not_or, Bool.not_eq_true] at bad
    exact ⟨rfl, (update_eq_self_iff.mpr bad.2.symm).symm, rfl⟩

theorem writePage_after {layout : Layout} {bytes spare : Nat → UInt8} :
    (writePage g layout s page bytes spare).1 = (s.answers 0).fails ∧
      (writePage g layout s page bytes spare).2.answers = behind s.answers 1 ∧
      (writePage g layout s page bytes spare).2.marked =
        if (s.answers 0).fails ∧ page % g.pagesPerBlk = 0 then
          update s.marked (g.block page) (s.answers 0).marks
        else s.marked := by
  have first : s.ask.1 = s.answers 0 := rfl
  unfold writePage
  dsimp only
  rw [first]
  cases failed : (s.answers 0).fails with
  | false => exact ⟨rfl, rfl, rfl⟩
  | true =>
    simp only [if_true, true_and]
    split
    · exact ⟨rfl, rfl⟩
    · exact ⟨rfl, rfl⟩

theorem markBadblock_after (g : Geometry) (s : Nand) (page : Nat) :
    After (g.block page) ⟨false, !(s.answers 0).fails || (s.answers 0).marks, 1⟩ s
      (markBadblock g s page).2 := by
  refine ⟨?_, rfl⟩
  have first : s.ask.1 = s.answers 0 := rfl
  dsimp only [markBadblock, Nand.mark, Nand.putPage]
  rw [first]
  cases (s.answers 0).fails <;> rfl

theorem givingUp_after {layout : Layout} {bytes spare : Nat → UInt8}
    (clear : s.marked (g.block page) = false) (failed : (s.answers 0).fails = true) :
    let wrote := (writePage g layout s page bytes spare).2
    let again := (eraseBlock g wrote (page - page % g.pagesPerBlk)).2
    After (g.block page) (givingUp ptn.modem (page % g.pagesPerBlk == 0) s.answers) s
      (if ptn.modem then again else (markBadblock g again (page - page % g.pagesPerBlk)).2) := by
  intro wrote again
  have aligned : (page - page % g.pagesPerBlk) % g.pagesPerBlk = 0 :=
    Nat.mod_eq_zero_of_dvd (Nat.dvd_sub_mod page)
  obtain ⟨-, heard, marks⟩ : _ ∧ wrote.answers = _ ∧ wrote.marked = _ := writePage_after
  obtain ⟨-, erased⟩ := eraseBlock_after (s := wrote) aligned
  rw [block_first, heard] at erased
  have here : wrote.marked (g.block page) =
      ((page % g.pagesPerBlk == 0) && (s.answers 0).marks) := by
    rw [marks, failed]
    by_cases first : page % g.pagesPerBlk = 0 <;> simp [first, clear]
  have others (bad : Bool) : update wrote.marked (g.block page) bad =
      update s.marked (g.block page) bad := by
    rw [marks]
    split_ifs
    · exact update_idem _ _ _
    · rfl
  rw [here] at erased
  have left := erased.answers
  rw [heard, behind_behind] at left
  unfold givingUp
  dsimp only
  split
  · exact ⟨erased.marked.trans (others _), left⟩
  · have marked := markBadblock_after g again (page - page % g.pagesPerBlk)
    rw [block_first] at marked
    have answer : again.answers 0 =
        s.answers ((erasing ((page % g.pagesPerBlk == 0) && (s.answers 0).marks)
          (behind s.answers 1)).commands + 1) := by
      rw [left, behind, Nat.zero_add]
    refine ⟨?_, ?_⟩
    · rw [marked.marked, erased.marked, update_idem, others, answer]
    · rw [marked.answers, left, behind_behind, Nat.add_comm 1]

end Commands

section Ahead

variable {page pages : Nat} {odd : Bool}

/-- The visits from the first page of a block on. -/
def onward (g : Geometry) (ptn : Ptentry) (odd : Bool) (block pages : Nat) (s : Nand) :
    List Visit :=
  visits g ptn.modem s.marked odd (ptn.start + ptn.length - block) block pages s.answers

def resumed (g : Geometry) (ptn : Ptentry) (odd first : Bool) (page pages : Nat) (s : Nand) :
    List Visit :=
  let inBlock := page % g.pagesPerBlk
  let fate := programming ptn.modem first (min pages (g.pagesPerBlk - inBlock)) s.answers
  ⟨g.block page, pages + inBlock, fate.kept, fate.marked⟩ ::
    visits g ptn.modem s.marked odd (ptn.start + ptn.length - (g.block page + 1)) (g.block page + 1)
      (if fate.kept then pages - (g.pagesPerBlk - inBlock) else pages + inBlock)
      (behind s.answers fate.commands)

def ahead (g : Geometry) (ptn : Ptentry) (odd : Bool) (page pages : Nat) (s : Nand) : List Visit :=
  if page % g.pagesPerBlk = 0 then onward g ptn odd (g.block page) pages s
  else resumed g ptn odd false page pages s

theorem ahead_aligned (aligned : page % g.pagesPerBlk = 0) :
    ahead g ptn odd page pages s = onward g ptn odd (g.block page) pages s := if_pos aligned

theorem onward_end (block : Nat) (past : ptn.start + ptn.length ≤ block) :
    onward g ptn odd block pages s = [] := by
  rw [onward, Nat.sub_eq_zero_of_le past, visits]

theorem onward_odd (block : Nat) : onward g ptn true block 0 s = [] := by
  rw [onward]
  cases ptn.start + ptn.length - block <;> rfl

theorem onward_cons {block : Nat} (room : block < ptn.start + ptn.length)
    (more : (odd && pages == 0) = false) :
    onward g ptn odd block pages s =
      let fate := visit ptn.modem (s.marked block) (min pages g.pagesPerBlk) s.answers
      ⟨block, pages, fate.kept, fate.marked⟩ ::
        visits g ptn.modem s.marked odd (ptn.start + ptn.length - (block + 1)) (block + 1)
          (if fate.kept then pages - g.pagesPerBlk else pages) (behind s.answers fate.commands) := by
  have size : ptn.start + ptn.length - block = ptn.start + ptn.length - (block + 1) + 1 := by omega
  rw [onward, size, visits, if_neg (by simp [more])]

theorem onward_after {block n : Nat} {bad : Bool} (marked : t.marked = update s.marked block bad)
    (answers : t.answers = behind s.answers n) :
    visits g ptn.modem s.marked odd (ptn.start + ptn.length - (block + 1)) (block + 1) pages
      (behind s.answers n) = onward g ptn odd (block + 1) pages t := by
  rw [onward, answers]
  refine visits_congr fun b past => ?_
  rw [marked, update_of_ne (by omega)]

theorem more_of_pos (odd : Bool) (pos : 0 < pages) : (odd && pages == 0) = false := by
  rw [beq_false_of_ne (Nat.ne_of_gt pos), Bool.and_false]

theorem visit_lost {modem marked : Bool} {answers : Nat → Answer}
    (lost : (erasing marked answers).kept = false) :
    visit modem marked pages answers = erasing marked answers := by
  rw [visit, if_neg (by simp [lost])]

theorem ahead_lost (aligned : page % g.pagesPerBlk = 0)
    (room : g.block page < ptn.start + ptn.length) (pos : 0 < pages)
    (lost : (erasing (s.marked (g.block page)) s.answers).kept = false)
    (after : After (g.block page) (erasing (s.marked (g.block page)) s.answers) s t) :
    ahead g ptn odd page pages s =
      ⟨g.block page, pages, false, (erasing (s.marked (g.block page)) s.answers).marked⟩ ::
        ahead g ptn odd (page + g.pagesPerBlk) pages t := by
  have next : (page + g.pagesPerBlk) % g.pagesPerBlk = 0 := by rw [Nat.add_mod_right, aligned]
  rw [ahead_aligned aligned, ahead_aligned next, block_add, onward_cons room (more_of_pos odd pos)]
  dsimp only
  rw [visit_lost lost, lost, if_neg (by simp), onward_after after.marked after.answers]

theorem ahead_entered (room : g.block page < ptn.start + ptn.length) (pos : 0 < pages)
    (clear : page % g.pagesPerBlk ≠ 0 → s.marked (g.block page) = false)
    (fine : (if page % g.pagesPerBlk = 0 then eraseBlock g s page else (false, s)).1 = false)
    (t : Nand) (erased : t = (if page % g.pagesPerBlk = 0 then eraseBlock g s page else (false, s)).2) :
    t.marked (g.block page) = false ∧ t.marked = s.marked ∧
      ahead g ptn odd page pages s =
        resumed g ptn odd (page % g.pagesPerBlk == 0) page pages t := by
  split_ifs at fine erased with aligned
  · obtain ⟨result, after⟩ := eraseBlock_after (g := g) (s := s) aligned
    rw [fine] at result
    rw [← erased] at after
    have kept : (erasing (s.marked (g.block page)) s.answers).kept = true := by
      simpa using result.symm
    obtain ⟨unmarked, was⟩ : (erasing (s.marked (g.block page)) s.answers).marked = false ∧
        s.marked (g.block page) = false := by
      unfold erasing at kept ⊢
      split_ifs at kept ⊢ with bad
      simp only [Bool.or_eq_true, not_or, Bool.not_eq_true] at bad
      exact ⟨rfl, bad.2⟩
    have same : t.marked = s.marked := by
      rw [after.marked, unmarked]
      exact update_eq_self_iff.mpr was.symm
    refine ⟨by rw [same, was], same, ?_⟩
    rw [ahead_aligned aligned, onward_cons room (more_of_pos odd pos), resumed, aligned, same,
      after.answers, visit]
    simp only [kept, if_true, beq_self_eq_true, Nat.sub_zero, Nat.add_zero, behind_behind]
  · subst erased
    refine ⟨clear aligned, rfl, ?_⟩
    rw [beq_false_of_ne aligned, ahead, if_neg aligned]

theorem givingUp_kept (modem first : Bool) (answers : Nat → Answer) :
    (givingUp modem first answers).kept = false := by
  unfold givingUp
  dsimp only
  split <;> rfl

theorem programming_step (pos : 0 < pages) :
    min pages (g.pagesPerBlk - page % g.pagesPerBlk) =
      min (pages - 1) (g.pagesPerBlk - (page % g.pagesPerBlk + 1)) + 1 := by
  have := Nat.mod_lt page g.pagesPerBlk_pos
  omega

theorem resumed_failed {first : Bool} (pos : 0 < pages) (failed : (s.answers 0).fails = true)
    (after : After (g.block page) (givingUp ptn.modem first s.answers) s t) :
    resumed g ptn odd first page pages s =
      ⟨g.block page, pages + page % g.pagesPerBlk, false,
          (givingUp ptn.modem first s.answers).marked⟩ ::
        ahead g ptn odd (page - page % g.pagesPerBlk + g.pagesPerBlk)
          (pages + page % g.pagesPerBlk) t := by
  have aligned : (page - page % g.pagesPerBlk + g.pagesPerBlk) % g.pagesPerBlk = 0 := by
    rw [Nat.add_mod_right]
    exact Nat.mod_eq_zero_of_dvd (Nat.dvd_sub_mod page)
  rw [resumed, programming_step pos, ahead_aligned aligned, block_add, block_first]
  simp only [programming, failed, if_true, givingUp_kept, Bool.false_eq_true, if_false]
  rw [onward_after after.marked after.answers]

theorem page_succ (g : Geometry) (page : Nat) :
    (page % g.pagesPerBlk + 1 = g.pagesPerBlk ∧ (page + 1) % g.pagesPerBlk = 0 ∧
      g.block (page + 1) = g.block page + 1) ∨
    (page % g.pagesPerBlk + 1 < g.pagesPerBlk ∧
      (page + 1) % g.pagesPerBlk = page % g.pagesPerBlk + 1 ∧
      g.block (page + 1) = g.block page) := by
  have small := Nat.mod_lt page g.pagesPerBlk_pos
  have parts := Nat.div_add_mod' page g.pagesPerBlk
  rcases Nat.lt_or_eq_of_le (Nat.succ_le_of_lt small) with inside | last
  · have next : page + 1 = page / g.pagesPerBlk * g.pagesPerBlk + (page % g.pagesPerBlk + 1) := by
      omega
    refine .inr ⟨inside, ?_, ?_⟩
    · rw [next, Nat.mul_add_mod_self_right, Nat.mod_eq_of_lt inside]
    · rw [Geometry.block, Geometry.block, next, Nat.mul_comm, Nat.mul_add_div g.pagesPerBlk_pos,
        Nat.div_eq_of_lt inside, Nat.add_zero]
  · have next : page + 1 = (page / g.pagesPerBlk + 1) * g.pagesPerBlk := by
      rw [Nat.add_mul, Nat.one_mul]
      omega
    refine .inl ⟨last, ?_, ?_⟩
    · rw [next, Nat.mul_mod_left]
    · rw [Geometry.block, Geometry.block, next, Nat.mul_div_cancel _ g.pagesPerBlk_pos]

theorem resumed_passed {first : Bool} (pos : 0 < pages) (fine : (s.answers 0).fails = false)
    (marked : t.marked = s.marked) (answers : t.answers = behind s.answers 1) :
    resumed g ptn odd first page pages s =
      if (page + 1) % g.pagesPerBlk = 0 then
        ⟨g.block page, pages + page % g.pagesPerBlk, true, false⟩ ::
          ahead g ptn odd (page + 1) (pages - 1) t
      else ahead g ptn odd (page + 1) (pages - 1) t := by
  rw [resumed, programming_step pos]
  simp only [programming, fine, Bool.false_eq_true, if_false]
  rcases page_succ g page with ⟨last, aligned, block⟩ | ⟨inside, inBlock, block⟩
  · have none_ : min (pages - 1) (g.pagesPerBlk - (page % g.pagesPerBlk + 1)) = 0 := by omega
    have one : g.pagesPerBlk - page % g.pagesPerBlk = 1 := by omega
    rw [if_pos aligned, ahead_aligned aligned, block, none_, programming, one, onward, marked,
      answers]
    simp only [Nat.zero_add, if_true]
  · have left : pages - 1 + (page % g.pagesPerBlk + 1) = pages + page % g.pagesPerBlk := by omega
    have kept : pages - 1 - (g.pagesPerBlk - (page % g.pagesPerBlk + 1)) =
        pages - (g.pagesPerBlk - page % g.pagesPerBlk) := by omega
    have within : ¬ (page + 1) % g.pagesPerBlk = 0 := by omega
    rw [if_neg within, ahead, if_neg within, resumed, inBlock, block, marked, answers, left, kept]
    simp only [behind_behind]

theorem ahead_halfway (inside : page % g.pagesPerBlk ≠ 0) :
    ahead g ptn odd page 0 s = ⟨g.block page, page % g.pagesPerBlk, true, false⟩ ::
      onward g ptn odd (g.block page + 1) 0 s := by
  rw [ahead, if_neg inside, resumed, Nat.zero_min, programming]
  simp only [if_true, Nat.zero_sub, Nat.zero_add]
  rfl

end Ahead

section Loop

variable {extra page offset bytes : Nat}

/-- The part of `flash_write` after its loop. -/
def finish (g : Geometry) (ptn : Ptentry) : Bool × Nat × Nand → Nand
  | (true, _, s) => s
  | (false, page, s) =>
    eraseFrom g ptn ((page + g.pagesPerBlk - 1) / g.pagesPerBlk * g.pagesPerBlk) s

theorem flashWrite_finish : (flashWrite g ptn s extra data bytes).2 = finish g ptn
    (writeLoop g ptn extra data (ptn.start * g.pagesPerBlk) 0 bytes { s with abandoned := [] }) := by
  unfold flashWrite
  dsimp only
  generalize writeLoop g ptn extra data _ 0 bytes _ = result
  obtain ⟨failed | failed, page, s'⟩ := result <;> rfl

theorem eraseFrom_follows (aligned : page % g.pagesPerBlk = 0) :
    Follows (onward g ptn false (g.block page) 0 s) s (eraseFrom g ptn page s) := by
  fun_induction eraseFrom g ptn page s with
  | case1 page s done =>
    rw [onward_end _ (le_block.mpr done)]
    exact Follows.refl s
  | case2 page s more ih =>
    have room : g.block page < ptn.start + ptn.length := block_lt.mpr (Nat.not_le.mp more)
    obtain ⟨-, erased⟩ := eraseBlock_after (s := s) aligned
    have none_ (kept : Bool) : (if kept then 0 - g.pagesPerBlk else 0) = 0 := by split <;> omega
    rw [onward_cons room rfl, Nat.zero_min, visit_zero]
    dsimp only
    rw [none_, onward_after erased.marked erased.answers]
    refine Follows.cons erased.marked ?_ (block_add g page ▸ ih (by rw [Nat.add_mod_right, aligned]))
    rw [if_neg (by simp)]
    exact (eraseBlock_touches page).abandoned

theorem next_le (room : g.block page < ptn.start + ptn.length) :
    page - page % g.pagesPerBlk + g.pagesPerBlk ≤ g.lastPage ptn := by
  have parts := Nat.div_add_mod' page g.pagesPerBlk
  have := Nat.mul_le_mul_right g.pagesPerBlk (Nat.succ_le_of_lt room)
  rw [Nat.succ_mul, Geometry.block] at this
  rw [Geometry.lastPage]
  omega

theorem roundUp (g : Geometry) (page : Nat) :
    (page + g.pagesPerBlk - 1) / g.pagesPerBlk =
      if page % g.pagesPerBlk = 0 then g.block page else g.block page + 1 := by
  have small := Nat.mod_lt page g.pagesPerBlk_pos
  have parts := Nat.div_add_mod' page g.pagesPerBlk
  rw [Geometry.block]
  split_ifs with aligned
  · refine Nat.div_eq_of_lt_le (by omega) ?_
    rw [Nat.add_mul, Nat.one_mul]
    omega
  · refine Nat.div_eq_of_lt_le ?_ ?_
    · rw [Nat.add_mul, Nat.one_mul]
      omega
    · rw [Nat.add_mul, Nat.add_mul, Nat.one_mul]
      omega

theorem Follows.halfway {odd : Bool} (inside : page % g.pagesPerBlk ≠ 0)
    (clear : s.marked (g.block page) = false)
    (rest : Follows (onward g ptn odd (g.block page + 1) 0 s) s u) :
    Follows (ahead g ptn odd page 0 s) s u := by
  rw [ahead_halfway inside]
  exact Follows.cons (update_eq_self_iff.mpr clear.symm).symm (by rw [if_neg (by simp)]) rest

def Reaches (g : Geometry) (list : List Visit) (page last : Nat) : Prop :=
  ∀ b, g.block page ≤ b → b * g.pagesPerBlk < last → ∃ v ∈ list, v.block = b ∧ 0 < v.pages

theorem Reaches.cons {v : Visit} {list : List Visit} {next last : Nat} (block : v.block = g.block page)
    (pages : 0 < v.pages) (follows : g.block next = g.block page + 1)
    (rest : Reaches g list next last) : Reaches g (v :: list) page last := by
  intro b low high
  rcases Nat.eq_or_lt_of_le low with same | more
  · exact ⟨v, List.mem_cons_self, block.trans same, pages⟩
  · obtain ⟨w, member, visited⟩ := rest b (follows ▸ more) high
    exact ⟨w, List.mem_cons_of_mem v member, visited⟩

theorem Reaches.ahead_zero (odd : Bool) : Reaches g (ahead g ptn odd page 0 s) page page := by
  intro b low high
  by_cases aligned : page % g.pagesPerBlk = 0
  · have := Nat.mul_le_mul_right g.pagesPerBlk low
    rw [Geometry.block, Nat.div_mul_cancel (Nat.dvd_of_mod_eq_zero aligned)] at this
    omega
  · have same : b < g.block page + 1 :=
      Nat.lt_of_mul_lt_mul_right (Nat.lt_trans high (lt_block_succ_mul g page))
    rw [ahead_halfway aligned]
    exact ⟨_, List.mem_cons_self, Nat.le_antisymm low (Nat.lt_succ_iff.mp same),
      Nat.pos_of_ne_zero aligned⟩

theorem writeLoop_follows (high : page ≤ g.lastPage ptn)
    (clear : page % g.pagesPerBlk ≠ 0 → s.marked (g.block page) = false) :
    Follows (ahead g ptn (bytes % (g.pageSize + extra) != 0) page (bytes / (g.pageSize + extra)) s) s
        (finish g ptn (writeLoop g ptn extra data page offset bytes s)) ∧
      ((writeLoop g ptn extra data page offset bytes s).1 = false →
        Reaches g
          (ahead g ptn (bytes % (g.pageSize + extra) != 0) page (bytes / (g.pageSize + extra)) s) page
          (writeLoop g ptn extra data page offset bytes s).2.1) := by
  have size := g.pageSize_pos
  fun_induction writeLoop g ptn extra data page offset bytes s with
  | case1 page offset s =>
    rw [Nat.zero_mod, Nat.zero_div, finish, roundUp]
    refine ⟨?_, fun _ => Reaches.ahead_zero _⟩
    split_ifs with aligned
    · rw [ahead_aligned aligned, Geometry.block, Nat.div_mul_cancel (Nat.dvd_of_mod_eq_zero aligned)]
      exact eraseFrom_follows aligned
    · refine Follows.halfway aligned (clear aligned) ?_
      have next : g.block ((g.block page + 1) * g.pagesPerBlk) = g.block page + 1 :=
        Nat.mul_div_cancel _ g.pagesPerBlk_pos
      have erased : Follows _ s (eraseFrom g ptn ((g.block page + 1) * g.pagesPerBlk) s) :=
        eraseFrom_follows (Nat.mul_mod_left (g.block page + 1) g.pagesPerBlk)
      rwa [next] at erased
  | case2 page offset bytes s wsize some_ less =>
    have none_ : bytes / (g.pageSize + extra) = 0 := Nat.div_eq_of_lt less
    have odd : (bytes % (g.pageSize + extra) != 0) = true := by
      rw [Nat.mod_eq_of_lt less]
      simpa using some_
    rw [none_, odd, finish]
    refine ⟨?_, fun done => absurd done (by simp)⟩
    by_cases aligned : page % g.pagesPerBlk = 0
    · rw [ahead_aligned aligned, onward_odd]
      exact Follows.refl s
    · refine Follows.halfway aligned (clear aligned) ?_
      rw [onward_odd]
      exact Follows.refl s
  | case3 page offset bytes s wsize some_ enough past =>
    have last : page = g.lastPage ptn := Nat.le_antisymm high past
    have aligned : page % g.pagesPerBlk = 0 := by rw [last, Geometry.lastPage, Nat.mul_mod_left]
    rw [ahead_aligned aligned, onward_end _ (le_block.mpr past), finish]
    exact ⟨Follows.refl s, fun done => absurd done (by simp)⟩
  | case4 page offset bytes s wsize some_ enough room erased failed ih =>
    have aligned : page % g.pagesPerBlk = 0 := by
      by_contra inside
      simp [erased, inside] at failed
    have inside : g.block page < ptn.start + ptn.length := block_lt.mpr (Nat.not_le.mp room)
    have pages : 0 < bytes / (g.pageSize + extra) := Nat.div_pos (Nat.not_lt.mp enough) (by omega)
    obtain ⟨result, after⟩ := eraseBlock_after (g := g) (s := s) aligned
    have same : eraseBlock g s page = erased := (if_pos aligned).symm
    rw [same] at result after
    have lost : (erasing (s.marked (g.block page)) s.answers).kept = false := by
      simpa [failed] using result.symm
    have next : (page + g.pagesPerBlk) % g.pagesPerBlk = 0 := by rw [Nat.add_mod_right, aligned]
    have high' := next_le inside
    rw [aligned, Nat.sub_zero] at high'
    have given : erased.2.abandoned = s.abandoned := (erased_touches page).abandoned
    rw [ahead_lost (t := erased.2.abandon (g.block page)) aligned inside pages lost
      ⟨after.marked, after.answers⟩]
    obtain ⟨rest, reaches⟩ := ih high' (absurd next)
    have skip := g.pagesPerBlk_pos
    refine ⟨Follows.cons (t := erased.2.abandon (g.block page)) after.marked ?_ rest,
      fun done => Reaches.cons rfl pages (block_add g page) (reaches done)⟩
    rw [if_pos ⟨pages, rfl⟩, Nand.abandon, given]
  | case5 page offset bytes s wsize some_ enough room erased fine spare wrote failed
      inBlock again again' ih =>
    have inside : g.block page < ptn.start + ptn.length := block_lt.mpr (Nat.not_le.mp room)
    have pages : 0 < bytes / (g.pageSize + extra) := Nat.div_pos (Nat.not_lt.mp enough) (by omega)
    obtain ⟨free, marks, entered⟩ := ahead_entered inside pages clear
      (Bool.eq_false_iff.mpr fine) erased.2 rfl
    have fails : (erased.2.answers 0).fails = true := writePage_after.1.symm.trans failed
    have after : After (g.block page) (givingUp ptn.modem (page % g.pagesPerBlk == 0)
        erased.2.answers) erased.2 again' := givingUp_after free fails
    have aligned : (page - inBlock + g.pagesPerBlk) % g.pagesPerBlk = 0 := by
      rw [Nat.add_mod_right]
      exact Nat.mod_eq_zero_of_dvd (Nat.dvd_sub_mod page)
    have given : again'.abandoned = s.abandoned :=
      (givenUp_touches (wrote_touches _ page _ spare)).abandoned
    have small : inBlock < g.pagesPerBlk := Nat.mod_lt page g.pagesPerBlk_pos
    have follows : g.block (page - inBlock + g.pagesPerBlk) = g.block page + 1 := by
      rw [block_add, block_first]
    obtain ⟨rest, reaches⟩ := ih (next_le inside) (absurd aligned)
    rw [Nat.add_mul_div_right _ _ (by omega), Nat.add_mul_mod_self_right] at rest reaches
    rw [entered, resumed_failed (t := again'.abandon (g.block page)) pages fails
      ⟨after.marked, after.answers⟩]
    refine ⟨Follows.cons (t := again'.abandon (g.block page)) (after.marked.trans (by rw [marks])) ?_
      rest, fun done => Reaches.cons rfl (Nat.add_pos_left pages _) follows (reaches done)⟩
    rw [if_pos ⟨Nat.add_pos_left pages _, rfl⟩, Nand.abandon, given]
  | case6 page offset bytes s wsize some_ enough room erased fine spare wrote done ih =>
    have inside : g.block page < ptn.start + ptn.length := block_lt.mpr (Nat.not_le.mp room)
    have pages : 0 < bytes / (g.pageSize + extra) := Nat.div_pos (Nat.not_lt.mp enough) (by omega)
    obtain ⟨free, marks, entered⟩ := ahead_entered inside pages clear
      (Bool.eq_false_iff.mpr fine) erased.2 rfl
    have passes : (erased.2.answers 0).fails = false :=
      writePage_after.1.symm.trans (Bool.eq_false_iff.mpr done)
    obtain ⟨-, answers, unmarked⟩ : _ ∧ wrote.2.answers = _ ∧ wrote.2.marked = _ := writePage_after
    rw [if_neg (by simp [passes])] at unmarked
    have clear' : (page + 1) % g.pagesPerBlk ≠ 0 →
        wrote.2.marked (g.block (page + 1)) = false := by
      intro other
      rcases page_succ g page with ⟨-, aligned, -⟩ | ⟨-, -, block⟩
      · exact absurd aligned other
      · rw [unmarked, block, free]
    have given : wrote.2.abandoned = s.abandoned := (wrote_touches _ page _ spare).abandoned
    have less : (bytes - (g.pageSize + extra)) / (g.pageSize + extra) =
        bytes / (g.pageSize + extra) - 1 := by
      rw [Nat.div_eq_sub_div (by omega) (Nat.not_lt.mp enough), Nat.add_sub_cancel]
    have same : (bytes - (g.pageSize + extra)) % (g.pageSize + extra) =
        bytes % (g.pageSize + extra) := (Nat.mod_eq_sub_mod (Nat.not_lt.mp enough)).symm
    obtain ⟨rest, reaches⟩ := ih (Nat.not_le.mp room) clear'
    rw [less, same] at rest reaches
    rw [entered, resumed_passed pages passes unmarked answers]
    have clean : wrote.2.marked = update s.marked (g.block page) false := by
      rw [unmarked, marks, update_eq_self_iff.mpr (marks ▸ free).symm]
    split_ifs with last
    · refine ⟨Follows.cons clean (by rw [given, if_neg (by simp)]) rest, fun done =>
        Reaches.cons rfl (Nat.add_pos_left pages _) ?_ (reaches done)⟩
      rcases page_succ g page with ⟨-, -, block⟩ | ⟨-, other, -⟩
      · exact block
      · omega
    · refine ⟨⟨rest.marked.trans (by rw [unmarked, marks]), fun b => ?_⟩, fun done => ?_⟩
      · rw [rest.abandoned, given]
      · have reached := reaches done
        rcases page_succ g page with ⟨-, aligned, -⟩ | ⟨-, -, block⟩
        · exact absurd aligned last
        · rwa [Reaches, block] at reached

end Loop

section Markers

/-- The blocks that `flash_write` comes to. -/
def writeVisits (g : Geometry) (ptn : Ptentry) (s : Nand) (extra bytes : Nat) : List Visit :=
  visits g ptn.modem s.marked (bytes % (g.pageSize + extra) != 0) ptn.length ptn.start
    (bytes / (g.pageSize + extra)) s.answers

def eraseVisits (g : Geometry) (ptn : Ptentry) (s : Nand) : List Visit :=
  visits g ptn.modem s.marked false ptn.length ptn.start 0 s.answers

theorem block_start (g : Geometry) (ptn : Ptentry) :
    g.block (ptn.start * g.pagesPerBlk) = ptn.start := Nat.mul_div_cancel _ g.pagesPerBlk_pos

theorem ahead_start (g : Geometry) (ptn : Ptentry) (odd : Bool) (pages : Nat) (s : Nand) :
    ahead g ptn odd (ptn.start * g.pagesPerBlk) pages s =
      visits g ptn.modem s.marked odd ptn.length ptn.start pages s.answers := by
  rw [ahead_aligned (Nat.mul_mod_left _ _), block_start, onward, Nat.add_sub_cancel_left]

theorem flashWrite_follows (extra bytes : Nat) :
    Follows (writeVisits g ptn s extra bytes) { s with abandoned := [] }
      (flashWrite g ptn s extra data bytes).2 := by
  rw [flashWrite_finish, writeVisits, ← ahead_start]
  refine (writeLoop_follows (s := { s with abandoned := [] }) ?_ (absurd (Nat.mul_mod_left _ _))).1
  exact Nat.mul_le_mul_right _ (Nat.le_add_right _ _)

theorem flashWrite_reaches {extra bytes : Nat}
    (wrote : (flashWrite g ptn s extra data bytes).1 = false) :
    Reaches g (writeVisits g ptn s extra bytes) (ptn.start * g.pagesPerBlk)
      (writeLoop g ptn extra data (ptn.start * g.pagesPerBlk) 0 bytes
        { s with abandoned := [] }).2.1 := by
  rw [writeVisits, ← ahead_start]
  refine (writeLoop_follows (s := { s with abandoned := [] }) ?_
    (absurd (Nat.mul_mod_left _ _))).2 ?_
  · exact Nat.mul_le_mul_right _ (Nat.le_add_right _ _)
  · unfold flashWrite at wrote
    dsimp only at wrote
    split at wrote
    · exact absurd wrote (by simp)
    · rename_i same
      rw [same]

theorem flashErase_follows : Follows (eraseVisits g ptn s) s (flashErase g ptn s) := by
  have erased : Follows _ s (eraseFrom g ptn (ptn.start * g.pagesPerBlk) s) :=
    eraseFrom_follows (Nat.mul_mod_left _ _)
  rwa [block_start, onward, Nat.add_sub_cancel_left] at erased

theorem visits_sorted (modem odd : Bool) (marked : Nat → Bool) (blocks block pages : Nat)
    (answers : Nat → Answer) :
    (visits g modem marked odd blocks block pages answers).Pairwise (·.block < ·.block) ∧
      ∀ v ∈ visits g modem marked odd blocks block pages answers, block ≤ v.block := by
  induction blocks generalizing block pages answers with
  | zero => exact ⟨List.Pairwise.nil, by simp [visits]⟩
  | succ blocks ih =>
    rw [visits]
    split_ifs
    · exact ⟨List.Pairwise.nil, by simp⟩
    · obtain ⟨sorted, low⟩ := ih (block + 1) _ (behind answers _)
      refine ⟨List.pairwise_cons.mpr ⟨low, sorted⟩, ?_⟩
      rintro v (_ | ⟨_, later⟩)
      · exact Nat.le_refl block
      · exact Nat.le_of_succ_le (low v later)

variable {list : List Visit} {marked : Nat → Bool}

theorem settle_other {b : Nat} (other : ∀ v ∈ list, v.block ≠ b) :
    settle list marked b = marked b := by
  induction list generalizing marked with
  | nil => rfl
  | cons v list ih =>
    rw [settle, List.foldl_cons]
    refine (ih fun w later => other w (List.mem_cons_of_mem v later)).trans ?_
    exact update_of_ne (other v List.mem_cons_self).symm _ _

theorem settle_visited {v : Visit} (sorted : list.Pairwise (·.block < ·.block)) (member : v ∈ list) :
    settle list marked v.block = v.marked := by
  induction list generalizing marked with
  | nil => cases member
  | cons w list ih =>
    obtain ⟨first, rest⟩ := List.pairwise_cons.mp sorted
    rw [settle, List.foldl_cons]
    rcases List.mem_cons.mp member with rfl | later
    · exact (settle_other fun u past => Nat.ne_of_gt (first u past)).trans (update_self _ _ _)
    · exact ih rest later

theorem visit_unique {v w : Visit} (sorted : list.Pairwise (·.block < ·.block)) (first : v ∈ list)
    (second : w ∈ list) (same : v.block = w.block) : v = w := by
  have distinct : (list.map Visit.block).Nodup :=
    List.pairwise_map.mpr (sorted.imp fun less => Nat.ne_of_lt less)
  exact List.inj_on_of_nodup_map distinct first second same

theorem settle_keeps_iff (sorted : list.Pairwise (·.block < ·.block)) (known : Nat → Prop) :
    (∀ b, known b → settle list marked b = marked b) ↔
      ∀ v ∈ list, known v.block → v.marked = marked v.block := by
  constructor
  · intro stays v member there
    rw [← settle_visited sorted member, stays _ there]
  · intro each b there
    by_cases met : ∃ v ∈ list, v.block = b
    · obtain ⟨v, member, rfl⟩ := met
      rw [settle_visited sorted member, each v member there]
    · exact settle_other fun v member same => met ⟨v, member, same⟩

end Markers

section Coherence

inductive Access where
  | read (ptn : Ptentry) (extra offset : Nat) (buffer : Nat → UInt8) (bytes : Nat)
  | write (ptn : Ptentry) (extra : Nat) (data : Nat → UInt8) (bytes : Nat)
  | erase (ptn : Ptentry)

/-- The flash after a call. Any command of a write or an erase may fail, none of a read. -/
def Access.run (g : Geometry) (s : Nand) (answers : Nat → Answer) : Access → Nand
  | .read ptn extra offset buffer bytes =>
    let s := s.answering fun k => { answers k with fails := false }
    (flashReadExt g ptn s extra offset buffer bytes).2.2
  | .write ptn extra data bytes => (flashWrite g ptn (s.answering answers) extra data bytes).2
  | .erase ptn => flashErase g ptn (s.answering answers)

/-- The blocks whose marker a call may change, by what the controller answers. -/
def Access.visits (g : Geometry) (s : Nand) (answers : Nat → Answer) : Access → List Visit
  | .read _ _ _ _ _ => []
  | .write ptn extra _ bytes => writeVisits g ptn (s.answering answers) extra bytes
  | .erase ptn => eraseVisits g ptn (s.answering answers)

/-- The flash after a sequence of calls, from the empty table of `flash_init` on. -/
def after (g : Geometry) (s : Nand) (history : List (Access × (Nat → Answer))) : Nand :=
  history.foldl (fun s call => call.1.run g s call.2) { s with bbtbl := fun _ => none }

def Coherent (s : Nand) : Prop := ∀ b bad, s.bbtbl b = some bad → bad = s.marked b

theorem coherent_iff : Coherent s ↔ ∀ b, skips s b = s.marked b := by
  refine forall_congr' fun b => ?_
  cases entry : s.bbtbl b <;> simp [skips, entry]

theorem flashReadExt_looks (sound : Sound s) (cached : Cached ptn s) (extra offset : Nat)
    (buffer : Nat → UInt8) (bytes : Nat) :
    Looks s (flashReadExt g ptn s extra offset buffer bytes).2.2 := by
  unfold flashReadExt
  dsimp only
  split
  · exact Looks.refl sound
  · have from_ : ptn.start ≤ g.block (ptn.start * g.pagesPerBlk + offset / g.pageSize) :=
      le_block.mpr (Nat.le_add_right _ _)
    obtain ⟨left, page, t, stop, run, looks, past, block, -⟩ :=
      correctPage_spec sound cached (Nat.le_refl _) (Nat.add_sub_of_le from_).symm
    rw [run]
    cases left with
    | zero => exact looks.trans (readLoop_spec looks.sound (by omega)).1
    | succ left => exact looks

theorem run_coherent (coherent : Coherent s) (answers : Nat → Answer) (call : Access) :
    Coherent (call.run g s answers) ↔
      ∀ v ∈ call.visits g s answers, s.bbtbl v.block ≠ none → v.marked = s.marked v.block := by
  have untouched {t : Nand} {list : List Visit} (table : t.bbtbl = s.bbtbl)
      (sorted : list.Pairwise (·.block < ·.block)) (marked : t.marked = settle list s.marked) :
      Coherent t ↔ ∀ v ∈ list, s.bbtbl v.block ≠ none → v.marked = s.marked v.block := by
    rw [← settle_keeps_iff sorted fun b => s.bbtbl b ≠ none]
    refine forall_congr' fun b => ?_
    rw [table, marked]
    cases entry : s.bbtbl b with
    | none => simp
    | some bad => simp [coherent b bad entry, eq_comm]
  cases call with
  | read ptn extra offset buffer bytes =>
    have skipped := coherent_iff.mp coherent
    have looks := @flashReadExt_looks g ptn (s.answering fun k => { answers k with fails := false })
      (fun _ => rfl) (fun b _ _ => skipped b) extra offset buffer bytes
    refine iff_of_true (coherent_iff.mpr fun b => ?_) (by simp [Access.visits])
    exact (congrFun looks.skips b).trans ((skipped b).trans (congrFun looks.marked b).symm)
  | write ptn extra data bytes =>
    exact untouched (@flashWrite_written g ptn (s.answering answers) extra data bytes).1.bbtbl
      (visits_sorted _ _ _ _ _ _ _).1 (flashWrite_follows extra bytes).marked
  | erase ptn =>
    exact untouched (@eraseFrom_frame g ptn (s.answering answers) _ (Nat.le_refl _)).2.bbtbl
      (visits_sorted _ _ _ _ _ _ _).1 flashErase_follows.marked

/-- Along every sequence of calls the table is right, and page reads skip the blocks that the
correction of an offset skips, just when no call comes to a block that has an entry with answers that
change its marker. -/
theorem bad_block_table_coherent_iff (g : Geometry) (s : Nand)
    (history : List (Access × (Nat → Answer))) :
    (∀ n, Coherent (after g s (history.take n)) ∧
      ∀ b, skips (after g s (history.take n)) b = (after g s (history.take n)).marked b) ↔
    ∀ n call, history[n]? = some call →
      ∀ v ∈ call.1.visits g (after g s (history.take n)) call.2,
        (after g s (history.take n)).bbtbl v.block ≠ none →
          v.marked = (after g s (history.take n)).marked v.block := by
  simp only [← coherent_iff, and_self]
  have next {n : Nat} {call : Access × (Nat → Answer)} (there : history[n]? = some call) :
      after g s (history.take (n + 1)) = call.1.run g (after g s (history.take n)) call.2 := by
    simp [List.take_add_one, there, after]
  constructor
  · intro coherent n call there
    exact (run_coherent (coherent n) call.2 call.1).mp (next there ▸ coherent (n + 1))
  · intro kept n
    induction n with
    | zero => exact fun b bad entry => by cases entry
    | succ n ih =>
      cases there : history[n]? with
      | none => rwa [List.take_add_one, there, Option.toList_none, List.append_nil]
      | some call =>
        rw [next there]
        exact (run_coherent ih call.2 call.1).mpr (kept n call there)

/-- A page is read; then one cannot be programmed, and its block is marked. -/
def readThenFailed : List (Access × (Nat → Answer)) :=
  [(.read smallPartition 0 0 counting 2, fun _ => succeeding),
    (.write smallPartition 0 counting 2, fun k => if k = 2 then failing else succeeding)]

theorem marked_behind_the_table :
    let flash := after smallGeometry wornFlash readThenFailed
    flash.bbtbl 0 = some false ∧ flash.marked 0 = true := by
  decide +kernel

end Coherence

end AndroidBoot.Platform.NandBadBlocks
