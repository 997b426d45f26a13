/- source: bootable/lk/platform/msm_shared/nand.c, include/lib/ptable.h
   digest: The NAND driver on pages and blocks: bad blocks, erasing, programming and reading. -/

import AndroidBoot.Foundation.Memory
import Mathlib.Logic.Function.Basic

/-!
The driver for 8 and 16 bit NAND devices without interleaving. Every command to the controller
takes the next answer: whether its status reports a failure, and what a failure leaves behind.
A result is `true` where the source returns an error code. The number of pages in a block is a
power of two there, so that a mask with `num_pages_per_blk_mask` is the remainder. The pages of a
flash are fewer than `2 ^ 32`; the bytes asked for need not be, and are counted as the source does.
-/

set_option autoImplicit false

namespace AndroidBoot.Platform.NandDriver

open Foundation.Memory

structure Geometry where
  pageSize : Nat
  pagesPerBlk : Nat
  pageSize_dvd : pageSize ∣ 2 ^ 31
  pagesPerBlk_pos : 0 < pagesPerBlk

theorem Geometry.pageSize_pos (g : Geometry) : 0 < g.pageSize :=
  Nat.pos_of_dvd_of_pos g.pageSize_dvd (by decide)

inductive Layout where
  | apps | modem
  deriving DecidableEq, Repr

structure Page where
  layout : Layout
  data : Nat → UInt8
  spare : Nat → UInt8

def Page.blank : Page := ⟨.apps, fun _ => 0xff, fun _ => 0xff⟩

structure Answer where
  fails : Bool
  debris : Nat → Page
  marks : Bool

structure Nand where
  marked : Nat → Bool
  /-- `bbtbl`; `none` is `-1`. -/
  bbtbl : Nat → Option Bool
  page : Nat → Page
  answers : Nat → Answer
  abandoned : List Nat

def Nand.ask (s : Nand) : Answer × Nand :=
  (s.answers 0, { s with answers := fun n => s.answers (n + 1) })

def Nand.answering (s : Nand) (answers : Nat → Answer) : Nand := { s with answers := answers }

def Nand.abandon (s : Nand) (block : Nat) : Nand := { s with abandoned := block :: s.abandoned }

structure Ptentry where
  start : Nat
  length : Nat
  modem : Bool

def Ptentry.layout (ptn : Ptentry) : Layout := if ptn.modem then .modem else .apps

section Commands

variable (g : Geometry)

def Geometry.block (page : Nat) : Nat := page / g.pagesPerBlk

def Geometry.lastPage (ptn : Ptentry) : Nat := (ptn.start + ptn.length) * g.pagesPerBlk

/-- `flash_nand_block_isbad`; a failed read of the marker counts as one. -/
def blockIsbad (s : Nand) (page : Nat) : Bool × Nand :=
  (s.ask.1.fails || s.marked (g.block page), s.ask.2)

def Nand.putBlock (s : Nand) (block : Nat) (content : Nat → Page) : Nand :=
  { s with page := fun p => if g.block p = block then content p else s.page p }

def Nand.mark (s : Nand) (block : Nat) (bad : Bool) : Nand :=
  { s with marked := Function.update s.marked block bad }

def Nand.putPage (s : Nand) (page : Nat) (content : Page) : Nand :=
  { s with page := Function.update s.page page content }

def eraseBlock (s : Nand) (page : Nat) : Bool × Nand :=
  if page % g.pagesPerBlk ≠ 0 then (true, s)
  else
    let bad := blockIsbad g s page
    if bad.1 then (true, bad.2)
    else
      let (answer, s) := bad.2.ask
      if answer.fails then
        (true, (s.putBlock g (g.block page) answer.debris).mark (g.block page) answer.marks)
      else (false, s.putBlock g (g.block page) fun _ => Page.blank)

/-- `_flash_nand_write_page`; the spare bytes of a page in the layout of the modem are left. -/
def writePage (layout : Layout) (s : Nand) (page : Nat) (data spare : Nat → UInt8) : Bool × Nand :=
  let (answer, s) := s.ask
  if answer.fails then
    let s := s.putPage page (answer.debris page)
    -- the marker is in the first page of a block
    (true, if page % g.pagesPerBlk = 0 then s.mark (g.block page) answer.marks else s)
  else
    let spare := if layout = .modem then (s.page page).spare else spare
    (false, s.putPage page ⟨layout, data, spare⟩)

def markBadblock (s : Nand) (page : Nat) : Bool × Nand :=
  let first := page - page % g.pagesPerBlk
  let (answer, s) := s.ask
  let s := s.putPage first (answer.debris first)
  (answer.fails, s.mark (g.block page) (if answer.fails then answer.marks else true))

/-- The result of reading a page: it, what a failed read leaves, or `-2`. -/
inductive PageRead where
  | good (page : Page)
  | badPage (debris : Page)
  | badBlock

def fetchPage (s : Nand) (page : Nat) : PageRead × Nand :=
  let (answer, s) := s.ask
  if answer.fails then (.badPage (answer.debris page), s)
  else if (s.page page).layout = .apps then (.good (s.page page), s)
  else (.good (answer.debris page), s)

def readPage (s : Nand) (page : Nat) : PageRead × Nand :=
  match s.bbtbl (g.block page) with
  | none =>
    let bad := blockIsbad g s page
    let s := { bad.2 with bbtbl := Function.update bad.2.bbtbl (g.block page) (some bad.1) }
    if bad.1 then (.badBlock, s) else fetchPage s page
  | some true => (.badBlock, s)
  | some false => fetchPage s page

end Commands

section Calls

variable (g : Geometry) (ptn : Ptentry)

def eraseFrom (page : Nat) (s : Nand) : Nand :=
  if g.lastPage ptn ≤ page then s else eraseFrom (page + g.pagesPerBlk) (eraseBlock g s page).2
termination_by g.lastPage ptn - page
decreasing_by
  have := g.pagesPerBlk_pos
  omega

def flashErase (s : Nand) : Nand := eraseFrom g ptn (ptn.start * g.pagesPerBlk) s

/-- The loop of `flash_write`: the result, `page` at the end, and the flash. `offset` is that of
`image` in the data. -/
def writeLoop (extra : Nat) (data : Nat → UInt8) (page offset bytes : Nat) (s : Nand) :
    Bool × Nat × Nand :=
  let wsize := g.pageSize + extra
  if bytes = 0 then (false, page, s)
  else if bytes < wsize then (true, page, s)
  else if g.lastPage ptn ≤ page then (true, page, s)
  else
    let erased := if page % g.pagesPerBlk = 0 then eraseBlock g s page else (false, s)
    if erased.1 then
      writeLoop extra data (page + g.pagesPerBlk) offset bytes (erased.2.abandon (g.block page))
    else
      let spare := if extra = 0 then fun _ => 0xff else fun i => data (offset + g.pageSize + i)
      let wrote := writePage g ptn.layout erased.2 page (fun i => data (offset + i)) spare
      if wrote.1 then
        -- back to the first page of the block, which is given up whatever comes of its erasing
        let inBlock := page % g.pagesPerBlk
        let again := (eraseBlock g wrote.2 (page - inBlock)).2
        let again := if ptn.modem then again else (markBadblock g again (page - inBlock)).2
        writeLoop extra data (page - inBlock + g.pagesPerBlk) (offset - inBlock * wsize)
          (bytes + inBlock * wsize) (again.abandon (g.block page))
      else writeLoop extra data (page + 1) (offset + wsize) (bytes - wsize) wrote.2
termination_by g.lastPage ptn - page
decreasing_by
  · have := g.pagesPerBlk_pos
    omega
  · have := Nat.mod_lt page g.pagesPerBlk_pos
    omega
  · omega

def flashWrite (s : Nand) (extra : Nat) (data : Nat → UInt8) (bytes : Nat) : Bool × Nand :=
  let s := { s with abandoned := [] }
  match writeLoop g ptn extra data (ptn.start * g.pagesPerBlk) 0 bytes s with
  | (true, _, s) => (true, s)
  | (false, page, s) =>
    let next := (page + g.pagesPerBlk - 1) / g.pagesPerBlk * g.pagesPerBlk
    (false, eraseFrom g ptn next s)

def readLoop (extra page count : Nat) (buffer : Nat → UInt8) (start : Nat) (s : Nand) :
    Bool × (Nat → UInt8) × Nand :=
  if g.lastPage ptn ≤ page then (true, buffer, s)
  else if count = 0 then (false, buffer, s)
  else
    match readPage g s page with
    | (.badPage debris, s) =>
      readLoop extra (page + 1) count (splice buffer start g.pageSize debris.data) start s
    | (.badBlock, s) => readLoop extra (page + g.pagesPerBlk) count buffer start s
    | (.good content, s) =>
      let buffer := splice buffer start g.pageSize content.data
      let buffer := splice buffer (start + g.pageSize) extra content.spare
      readLoop extra (page + 1) (count - 1) buffer (start + g.pageSize + extra) s
termination_by g.lastPage ptn - page
decreasing_by
  · omega
  · have := g.pagesPerBlk_pos
    omega
  · omega

def correctPage (startBlock count page : Nat) (s : Nand) : Nat × Nat × Nand :=
  if count = 0 ∨ ptn.start + ptn.length ≤ startBlock then (count, page, s)
  else
    let bad := blockIsbad g s (startBlock * g.pagesPerBlk)
    if bad.1 then correctPage (startBlock + 1) count (page + g.pagesPerBlk) bad.2
    else correctPage (startBlock + 1) (count - 1) page bad.2
termination_by ptn.start + ptn.length - startBlock

def flashReadExt (s : Nand) (extra offset : Nat) (buffer : Nat → UInt8) (bytes : Nat) :
    Bool × (Nat → UInt8) × Nand :=
  let page := ptn.start * g.pagesPerBlk + offset / g.pageSize
  let count := (bytes + g.pageSize - 1 + extra) % 2 ^ 32 / (g.pageSize + extra)
  if offset % g.pageSize ≠ 0 then (true, buffer, s)
  else
    match correctPage g ptn ptn.start (g.block page - ptn.start) page s with
    | (0, page, s) => readLoop g ptn extra page count buffer 0 s
    | (_, _, s) => (true, buffer, s)

end Calls

end AndroidBoot.Platform.NandDriver
