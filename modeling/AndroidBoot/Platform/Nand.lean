/- source: bootable/lk/platform/msm_shared/nand.c, include/lib/ptable.h
   digest: NAND flash as the bootloader sees it: partitions read and written from their start. -/

import AndroidBoot.Platform.Mmc
import Mathlib.Logic.Function.Basic

/-!
The driver skips bad pages on reading and bad blocks on writing, so a partition is the
sequence of its good pages. Spare bytes are not read back by the bootloader.
-/

set_option autoImplicit false

namespace AndroidBoot.Platform.Nand

open Foundation.Memory
open Mmc (Fault Name)

structure Flash where
  ptable : Option (List Name)
  pageSize : Nat
  content : Nat → Nat → UInt8
  page_ge : 512 ≤ pageSize

def ptableFind (ptable : List Name) (name : Name) : Option Nat :=
  ptable.findIdx? fun part => part = name

def Flash.find (flash : Flash) (name : Name) : Option Nat :=
  flash.ptable.bind fun ptable => ptableFind ptable name

/-- `flash_read`, into a buffer from `start` on; whole pages are read. -/
def flashRead (flash : Flash) (ptn offset : Nat) (buffer : Nat → UInt8) (start bytes : Nat)
    (fault : Fault) : Bool × (Nat → UInt8) :=
  let len := (bytes + flash.pageSize - 1) / flash.pageSize * flash.pageSize
  if offset % flash.pageSize ≠ 0 then (true, buffer)
  else
    match fault with
    | some debris => (true, splice buffer start len debris)
    | none => (false, splice buffer start len fun i => flash.content ptn (offset + i))

def written (flash : Flash) (extra : Nat) (source : Nat → UInt8) (bytes : Nat) : Nat → UInt8 :=
  fun i =>
    if i / flash.pageSize < bytes / (flash.pageSize + extra) then
      source (i / flash.pageSize * (flash.pageSize + extra) + i % flash.pageSize)
    else 0xff

def Flash.replace (flash : Flash) (ptn : Nat) (bytes : Nat → UInt8) : Flash :=
  { flash with content := Function.update flash.content ptn bytes }

/-- `flash_write`; an image that does not fill its last page is an error, after which the
partition holds what it may. -/
def flashWrite (flash : Flash) (ptn extra : Nat) (source : Nat → UInt8) (bytes : Nat)
    (fault : Fault) : Bool × Flash :=
  match fault with
  | some debris => (true, flash.replace ptn debris)
  | none =>
    (decide (bytes % (flash.pageSize + extra) ≠ 0),
      flash.replace ptn (written flash extra source bytes))

def flashErase (flash : Flash) (ptn : Nat) : Flash := flash.replace ptn fun _ => 0xff

theorem Flash.find_ne {flash : Flash} {one other : Name} {i j : Nat} (distinct : one ≠ other)
    (first : flash.find one = some i) (second : flash.find other = some j) : i ≠ j := by
  rintro rfl
  obtain ⟨ptable, known, here⟩ := Option.bind_eq_some_iff.mp first
  obtain ⟨ptable', known', there⟩ := Option.bind_eq_some_iff.mp second
  rw [known] at known'
  cases known'
  obtain ⟨bound, this, _⟩ := List.findIdx?_eq_some_iff_getElem.mp here
  obtain ⟨_, that, _⟩ := List.findIdx?_eq_some_iff_getElem.mp there
  exact distinct ((of_decide_eq_true this).symm.trans (of_decide_eq_true that))

@[simp] theorem Flash.replace_find (flash : Flash) (ptn : Nat) (bytes : Nat → UInt8) (name : Name) :
    (flash.replace ptn bytes).find name = flash.find name := rfl

@[simp] theorem Flash.replace_content_self (flash : Flash) (ptn : Nat) (bytes : Nat → UInt8) :
    (flash.replace ptn bytes).content ptn = bytes := by
  simp [Flash.replace]

theorem Flash.replace_content_other (flash : Flash) {ptn other : Nat} (bytes : Nat → UInt8)
    (apart : other ≠ ptn) : (flash.replace ptn bytes).content other = flash.content other := by
  simp [Flash.replace, apart]

end AndroidBoot.Platform.Nand
