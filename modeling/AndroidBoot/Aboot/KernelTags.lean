/- source: bootable/lk/app/aboot/aboot.c, include/lib/ptable.h,
     platform/msm_shared/include/baseband.h
   digest: The parameter list that `boot_linux` builds for the kernel, as the kernel walks it. -/

import AndroidBoot.Aboot.DeviceInfo

/-!
The list is written word by word and byte by byte; a kernel walks it by the size words. Memory is a
function of the address.
-/

set_option autoImplicit false

namespace AndroidBoot.Aboot.KernelTags

open Foundation.Memory
open DeviceInfo (ascii)

abbrev CString := { text : List UInt8 // 0 ∉ text }

/-- The values of `target_baseband` that have a fragment; `other` stands for the rest. -/
inductive Baseband
  | msm | apq | csfb | svlte2a | mdm | sglte | other
  deriving DecidableEq, Repr

/-- The fields of `struct ptentry` that go into the list. -/
structure PtEntry where
  name : Fin 16 → UInt8
  start : UInt32
  length : UInt32
  flags : UInt32

/-- The entries of a `struct ptable` up to its count, at most `MAX_PTABLE_PARTS`. -/
structure Ptable where
  parts : List PtEntry
  bound : parts.length ≤ 32

/-- The arguments of `boot_linux`, and what it asks. -/
structure Boot where
  cmdline : Option CString
  serialno : CString
  ramdisk : UInt32
  ramdiskSize : UInt32
  emmc : Bool
  recovery : Bool
  pause : Bool
  signed : Bool
  authKernelImg : Bool
  baseband : Baseband
  ptable : Option Ptable

section Writing

structure Out where
  mem : Nat → UInt8
  ptr : Nat

def Out.append (o : Out) (bytes : List UInt8) : Out :=
  ⟨splice o.mem o.ptr bytes.length fun i => bytes.getD i 0, o.ptr + bytes.length⟩

def Out.putWord (o : Out) (word : Nat) : Out := o.append (toLe32 word)

/-- `struct atag_ptbl_entry`, with the last byte of the name cleared. -/
def PtEntry.bytes (ptn : PtEntry) : List UInt8 :=
  List.ofFn (Function.update ptn.name 15 0) ++
    (toLe32 ptn.start.toNat ++ (toLe32 ptn.length.toNat ++ toLe32 ptn.flags.toNat))

def ptentryToTag (o : Out) (ptn : PtEntry) : Out := o.append ptn.bytes

/-- What has been appended between two states, with everything before it as it was. -/
structure Appended (o o' : Out) (bytes : List UInt8) : Prop where
  ptr : o'.ptr = o.ptr + bytes.length
  there : Agrees o'.mem o.ptr bytes
  before : ∀ a, a < o.ptr → o'.mem a = o.mem a

variable {o o' o'' : Out} {bytes more : List UInt8}

theorem Appended.trans (first : Appended o o' bytes) (second : Appended o' o'' more) :
    Appended o o'' (bytes ++ more) := by
  refine ⟨?_, agrees_append.mpr ⟨fun i bound => ?_, ?_⟩, fun a below => ?_⟩
  · rw [second.ptr, first.ptr, List.length_append, Nat.add_assoc]
  · rw [second.before _ (by rw [first.ptr]; omega)]
    exact first.there i bound
  · rw [← first.ptr]
    exact second.there
  · rw [second.before a (by rw [first.ptr]; omega), first.before a below]

theorem Appended.refl (o : Out) : Appended o o [] :=
  ⟨rfl, fun _ bound => absurd bound (Nat.not_lt_zero _), fun _ _ => rfl⟩

theorem append_mem (o : Out) (bytes : List UInt8) :
    (o.append bytes).mem = splice o.mem o.ptr bytes.length (fun i => bytes.getD i 0) := rfl

theorem appended_append (o : Out) (bytes : List UInt8) : Appended o (o.append bytes) bytes := by
  refine ⟨rfl, fun i bound => ?_, fun a below => ?_⟩
  · rw [append_mem, splice, if_pos (by omega), Nat.add_sub_cancel_left,
      List.getD_eq_getElem bytes 0 bound]
  · rw [append_mem]
    exact splice_apart _ _ (Or.inl below)

theorem appended_putWord (o : Out) (word : Nat) : Appended o (o.putWord word) (toLe32 word) :=
  appended_append o _

theorem appended_ptentries (o : Out) (parts : List PtEntry) :
    Appended o (parts.foldl ptentryToTag o) (parts.flatMap PtEntry.bytes) := by
  induction parts generalizing o with
  | nil => exact Appended.refl o
  | cons ptn parts ih => exact (appended_append o ptn.bytes).trans (ih _)

end Writing

section Walking

structure Tag where
  id : Nat
  payload : List UInt8

def Tag.size (tag : Tag) : Nat := 2 + tag.payload.length / 4

def Tag.bytes (tag : Tag) : List UInt8 := toLe32 tag.size ++ (toLe32 tag.id ++ tag.payload)

structure Tag.WellFormed (tag : Tag) : Prop where
  words : 4 ∣ tag.payload.length
  size : tag.size < 2 ^ 32
  id : tag.id < 2 ^ 32

def walk (mem : Nat → UInt8) : Nat → Nat → Option (List Tag × Nat)
  | 0, _ => none
  | fuel + 1, p =>
    if le32 mem p = 0 then some ([], p)
    else
      (walk mem fuel (p + 4 * le32 mem p)).map fun rest =>
        (⟨le32 mem (p + 4), window mem (p + 8) (4 * le32 mem p - 8)⟩ :: rest.1, rest.2)

theorem window_of_agrees {mem : Nat → UInt8} {start : Nat} {cells : List UInt8}
    (same : Agrees mem start cells) : window mem start cells.length = cells := by
  refine List.ext_getElem (by simp [window]) fun i bound bound' => ?_
  simp only [window, List.getElem_map, List.getElem_range]
  exact same i bound'

theorem Tag.length_bytes {tag : Tag} (wellFormed : tag.WellFormed) :
    tag.bytes.length = 4 * tag.size := by
  have words := Nat.mul_div_cancel' wellFormed.words
  simp only [Tag.bytes, Tag.size, List.length_append, length_toLe32]
  omega

theorem walk_tags {mem : Nat → UInt8} {tags : List Tag} (wellFormed : ∀ tag ∈ tags, tag.WellFormed)
    (p fuel : Nat) (enough : tags.length < fuel)
    (there : Agrees mem p (tags.flatMap Tag.bytes ++ toLe32 0)) :
    walk mem fuel p = some (tags, p + (tags.flatMap Tag.bytes).length) := by
  induction tags generalizing p fuel with
  | nil =>
    obtain ⟨fuel, rfl⟩ : ∃ n, fuel = n + 1 := ⟨fuel - 1, by omega⟩
    have zero : le32 mem p = 0 := le32_of_agrees there (by decide)
    rw [walk, if_pos zero]
    rfl
  | cons tag tags ih =>
    obtain ⟨fuel, rfl⟩ : ∃ n, fuel = n + 1 := ⟨fuel - 1, by omega⟩
    have here := wellFormed tag List.mem_cons_self
    rw [List.flatMap_cons, List.append_assoc] at there
    obtain ⟨first, rest⟩ := agrees_append.mp there
    rw [tag.length_bytes here] at rest
    obtain ⟨sized, first⟩ := agrees_append.mp first
    obtain ⟨named, payload⟩ := agrees_append.mp first
    have size : le32 mem p = tag.size := le32_of_agrees sized here.size
    have id : le32 mem (p + 4) = tag.id := le32_of_agrees named here.id
    have held : window mem (p + 8) (4 * tag.size - 8) = tag.payload := by
      have words := Nat.mul_div_cancel' here.words
      have same : 4 * tag.size - 8 = tag.payload.length := by
        rw [Tag.size]
        omega
      rw [same]
      exact window_of_agrees payload
    have nonzero : ¬tag.size = 0 := by
      rw [Tag.size]
      omega
    have more := ih (List.forall_mem_cons.mp wellFormed).2
      (p + 4 * tag.size) fuel (Nat.lt_of_succ_lt_succ enough) rest
    rw [walk, size, if_neg nonzero, more, id, held, Option.map_some, List.flatMap_cons,
      List.length_append, tag.length_bytes here, Nat.add_assoc]

end Walking

section CommandLine

def emmcCmdline : List UInt8 := ascii " androidboot.emmc=true"

def usbSnCmdline : List UInt8 := ascii " androidboot.serialno="

def battchgPause : List UInt8 := ascii " androidboot.mode=charger"

def authKernel : List UInt8 := ascii " androidboot.authorized_kernel=true"

def bootUpModeNormal : List UInt8 := ascii " androidboot.bootupmode=normal"

def bootUpModeRecovery : List UInt8 := ascii " androidboot.bootupmode=recovery"

def rebootModeNormal : List UInt8 := ascii " reboot=h"

def rebootModeRecovery : List UInt8 := ascii " reboot=i"

/-- The fragment that the two `switch` statements choose. -/
def Baseband.cmdline : Baseband → Option (List UInt8)
  | .apq => some (ascii " androidboot.baseband=apq")
  | .msm => some (ascii " androidboot.baseband=msm")
  | .csfb => some (ascii " androidboot.baseband=csfb")
  | .svlte2a => some (ascii " androidboot.baseband=svlte2a")
  | .mdm => some (ascii " androidboot.baseband=mdm")
  | .sglte => some (ascii " androidboot.baseband=sglte")
  | .other => none

def Boot.given (b : Boot) : Option (List UInt8) :=
  match b.cmdline with
  | some text => if text.1 = [] then none else some text.1
  | none => none

/-- `cmdline_len`, before it is looked at as an `int`. -/
def Boot.cmdlineLen (b : Boot) : Nat :=
  let len := match b.given with
    | some text => text.length
    | none => 0
  let len := if b.emmc then len + emmcCmdline.length else len
  let len := len + usbSnCmdline.length
  let len := len + b.serialno.1.length
  let len :=
    if !b.recovery then len + bootUpModeNormal.length + rebootModeNormal.length
    else len + bootUpModeRecovery.length + rebootModeRecovery.length
  let len := if b.pause then len + battchgPause.length else len
  let len := if b.signed && b.authKernelImg then len + authKernel.length else len
  match b.baseband.cmdline with
  | some text => len + text.length
  | none => len

/-- `dst` and `have_cmdline`, and memory. -/
structure Dst where
  mem : Nat → UInt8
  dst : Nat
  haveCmdline : Bool

def Dst.copy (d : Dst) (src : List UInt8) : Dst :=
  { d with
    mem := splice d.mem d.dst (src.length + 1) fun i => src.getD i 0
    dst := d.dst + (src.length + 1) }

def Dst.back (d : Dst) : Dst := if d.haveCmdline then { d with dst := d.dst - 1 } else d

def Dst.add (d : Dst) (src : List UInt8) : Dst := d.back.copy src

/-- The fragments that also set `have_cmdline`. -/
def Dst.addFirst (d : Dst) (src : List UInt8) : Dst :=
  ({ d.back with haveCmdline := true }).copy src

def Dst.addSome (d : Dst) : Option (List UInt8) → Dst
  | some src => d.add src
  | none => d

def Boot.writeCmdline (b : Boot) (mem : Nat → UInt8) (start : Nat) : Dst :=
  let d : Dst := ⟨mem, start, b.given.isSome⟩
  let d := match b.given with
    | some text => d.copy text
    | none => d
  let d := if b.emmc then d.addFirst emmcCmdline else d
  let d := d.addFirst usbSnCmdline
  let d := d.addFirst b.serialno.1
  let d := if b.pause then d.add battchgPause else d
  let d := if b.signed && b.authKernelImg then d.add authKernel else d
  let d := d.addSome b.baseband.cmdline
  let d := if !b.recovery then d.add bootUpModeNormal else d.add bootUpModeRecovery
  if !b.recovery then d.add rebootModeNormal else d.add rebootModeRecovery

def Boot.text (b : Boot) : List UInt8 :=
  b.given.getD [] ++ (if b.emmc then emmcCmdline else []) ++ usbSnCmdline ++ b.serialno.1 ++
    (if b.pause then battchgPause else []) ++
    (if b.signed && b.authKernelImg then authKernel else []) ++ b.baseband.cmdline.getD [] ++
    (if !b.recovery then bootUpModeNormal else bootUpModeRecovery) ++
    (if !b.recovery then rebootModeNormal else rebootModeRecovery)

theorem length_chosen (c : Bool) (len : Nat) (src : List UInt8) :
    (if c then len + src.length else len) = len + (if c then src else []).length := by
  cases c <;> rfl

theorem Boot.length_text (b : Boot) : b.text.length = b.cmdlineLen := by
  have given : (match b.given with
      | some text => text.length
      | none => 0) = (b.given.getD []).length := by
    cases b.given <;> rfl
  have baseband : ∀ len, (match b.baseband.cmdline with
      | some text => len + text.length
      | none => len) = len + (b.baseband.cmdline.getD []).length := by
    intro len
    cases b.baseband.cmdline <;> rfl
  have modes : ∀ len, (if !b.recovery then len + bootUpModeNormal.length + rebootModeNormal.length
      else len + bootUpModeRecovery.length + rebootModeRecovery.length) =
      len + (if !b.recovery then bootUpModeNormal else bootUpModeRecovery).length +
        (if !b.recovery then rebootModeNormal else rebootModeRecovery).length := by
    intro len
    cases b.recovery <;> rfl
  simp only [Boot.text, Boot.cmdlineLen, List.length_append, given, baseband, modes, length_chosen]
  omega

variable {mem : Nat → UInt8} {start : Nat} {d : Dst} {text : List UInt8}

/-- The text stands at the start with its terminator, and `dst` is behind that. -/
structure Dst.Holds (mem : Nat → UInt8) (start : Nat) (d : Dst) (text : List UInt8) : Prop where
  started : d.haveCmdline = true
  dst : d.dst = start + (text.length + 1)
  there : Agrees d.mem start (text ++ [0])
  before : ∀ a, a < start → d.mem a = mem a

def Dst.Ready (mem : Nat → UInt8) (start : Nat) (d : Dst) (text : List UInt8) : Prop :=
  (d = ⟨mem, start, false⟩ ∧ text = []) ∨ d.Holds mem start text

theorem Dst.copy_mem (d : Dst) (src : List UInt8) :
    (d.copy src).mem = splice d.mem d.dst (src.length + 1) (fun i => src.getD i 0) := rfl

theorem Dst.copy_holds {src : List UInt8} (started : d.haveCmdline = true)
    (dst : d.dst = start + text.length) (there : Agrees d.mem start text)
    (before : ∀ a, a < start → d.mem a = mem a) : (d.copy src).Holds mem start (text ++ src) := by
  refine ⟨started, ?_, ?_, fun a below => ?_⟩
  · show d.dst + (src.length + 1) = _
    rw [dst, List.length_append]
    omega
  · rw [List.append_assoc]
    refine agrees_append.mpr ⟨fun i bound => ?_, fun i bound => ?_⟩
    · rw [copy_mem, splice_apart _ _ (Or.inl (by omega))]
      exact there i bound
    · rw [List.length_append, List.length_singleton] at bound
      rw [copy_mem, ← dst, splice, if_pos (by omega), Nat.add_sub_cancel_left]
      by_cases inside : i < src.length
      · rw [List.getElem_append_left inside, List.getD_eq_getElem src 0 inside]
      · obtain rfl : i = src.length := by omega
        rw [List.getD_eq_default src 0 (Nat.le_refl _), List.getElem_concat_length rfl]
  · rw [copy_mem, splice_apart _ _ (Or.inl (by omega))]
    exact before a below

theorem Dst.Holds.add (holds : d.Holds mem start text) (src : List UInt8) :
    (d.add src).Holds mem start (text ++ src) := by
  rw [Dst.add, Dst.back, if_pos holds.started]
  refine copy_holds holds.started ?_ (agrees_append.mp holds.there).1 holds.before
  show d.dst - 1 = _
  rw [holds.dst]
  omega

theorem Dst.Ready.addFirst (ready : d.Ready mem start text) (src : List UInt8) :
    (d.addFirst src).Holds mem start (text ++ src) := by
  rcases ready with ⟨rfl, rfl⟩ | holds
  · exact copy_holds rfl rfl (fun _ bound => absurd bound (Nat.not_lt_zero _)) fun _ _ => rfl
  · rw [Dst.addFirst, Dst.back, if_pos holds.started]
    refine copy_holds rfl ?_ (agrees_append.mp holds.there).1 holds.before
    show d.dst - 1 = _
    rw [holds.dst]
    omega

section

variable (holds : d.Holds mem start text)
include holds

theorem Dst.Holds.addIf (c : Bool) (src : List UInt8) :
    (if c then d.add src else d).Holds mem start (text ++ if c then src else []) := by
  cases c with
  | false => rwa [if_neg Bool.false_ne_true, if_neg Bool.false_ne_true, List.append_nil]
  | true => exact holds.add src

theorem Dst.Holds.addEither (c : Bool) (one two : List UInt8) :
    (if c then d.add one else d.add two).Holds mem start (text ++ if c then one else two) := by
  cases c with
  | false => exact holds.add two
  | true => exact holds.add one

theorem Dst.Holds.addSome (src : Option (List UInt8)) :
    (d.addSome src).Holds mem start (text ++ src.getD []) := by
  cases src with
  | none => rwa [Option.getD_none, List.append_nil]
  | some src => exact holds.add src

end

theorem Dst.Ready.addFirstIf (ready : d.Ready mem start text) (c : Bool) (src : List UInt8) :
    (if c then d.addFirst src else d).Ready mem start (text ++ if c then src else []) := by
  cases c with
  | false => rwa [if_neg Bool.false_ne_true, if_neg Bool.false_ne_true, List.append_nil]
  | true => exact Or.inr (ready.addFirst src)

theorem Dst.ready_given (given : Option (List UInt8)) (mem : Nat → UInt8) (start : Nat) :
    Dst.Ready mem start (match given with
      | some text => Dst.copy ⟨mem, start, given.isSome⟩ text
      | none => ⟨mem, start, given.isSome⟩) (given.getD []) := by
  cases given with
  | none => exact Or.inl ⟨rfl, rfl⟩
  | some text =>
    have empty : Agrees mem start ([] : List UInt8) := fun _ bound => absurd bound (Nat.not_lt_zero _)
    have whole : (Dst.copy ⟨mem, start, true⟩ text).Holds mem start ([] ++ text) :=
      copy_holds rfl rfl empty fun _ _ => rfl
    exact Or.inr whole

theorem Boot.writeCmdline_holds (b : Boot) (mem : Nat → UInt8) (start : Nat) :
    (b.writeCmdline mem start).Holds mem start b.text := by
  have emmc := (Dst.ready_given b.given mem start).addFirstIf b.emmc emmcCmdline
  have serial := Dst.Ready.addFirst (Or.inr (emmc.addFirst usbSnCmdline)) b.serialno.1
  have pause := serial.addIf b.pause battchgPause
  have auth := pause.addIf (b.signed && b.authKernelImg) authKernel
  have baseband := auth.addSome b.baseband.cmdline
  have mode := baseband.addEither (!b.recovery) bootUpModeNormal bootUpModeRecovery
  exact mode.addEither (!b.recovery) rebootModeNormal rebootModeRecovery

end CommandLine

section Building

def tagsCore (o : Out) : Out := (o.putWord 2).putWord 0x54410001

def tagsRamdisk (b : Boot) (o : Out) : Out :=
  if b.ramdiskSize ≠ 0 then
    (((o.putWord 4).putWord 0x54420005).putWord b.ramdisk.toNat).putWord b.ramdiskSize.toNat
  else o

def tagsPartitions (b : Boot) (o : Out) : Out :=
  if !b.emmc then
    match b.ptable with
    | some ptable =>
      if ptable.parts.length ≠ 0 then
        ptable.parts.foldl ptentryToTag
          ((o.putWord (2 + ptable.parts.length * 7)).putWord 0x4d534d70)
      else o
    | none => o
  else o

/-- `n`, the length with its terminator rounded up to words. -/
def Boot.cmdlineSize (b : Boot) : Nat := (b.cmdlineLen + 4) % 2 ^ 32 / 4 * 4

def tagsCmdline (b : Boot) (o : Out) : Out :=
  if 0 < Int.bmod b.cmdlineLen (2 ^ 32) then
    let o := (o.putWord (b.cmdlineSize / 4 + 2)).putWord 0x54410009
    ⟨(b.writeCmdline o.mem o.ptr).mem, o.ptr + b.cmdlineSize / 4 * 4⟩
  else o

def tagsEnd (o : Out) : Out := (o.putWord 0).putWord 0

/-- A `target_atag_mem`: it appends tags that are well formed. -/
structure AtagMem where
  run : Out → Out
  tags : Out → List Tag
  wellFormed : ∀ o, ∀ tag ∈ tags o, tag.WellFormed
  appended : ∀ o, Appended o (run o) ((tags o).flatMap Tag.bytes)

def bootLinux (b : Boot) (target : AtagMem) (o : Out) : Out :=
  tagsEnd (tagsCmdline b (tagsPartitions b (target.run (tagsRamdisk b (tagsCore o)))))

def Boot.ramdiskTags (b : Boot) : List Tag :=
  if b.ramdiskSize ≠ 0 then
    [⟨0x54420005, toLe32 b.ramdisk.toNat ++ toLe32 b.ramdiskSize.toNat⟩]
  else []

def Boot.partitionTags (b : Boot) : List Tag :=
  match b.ptable with
  | some ptable =>
    if b.emmc = false ∧ ptable.parts ≠ [] then
      [⟨0x4d534d70, ptable.parts.flatMap PtEntry.bytes⟩]
    else []
  | none => []

def Boot.tags (b : Boot) (target : AtagMem) (o : Out) : List Tag :=
  ⟨0x54410001, []⟩ ::
    (b.ramdiskTags ++ (target.tags (tagsRamdisk b (tagsCore o)) ++ b.partitionTags))

/-- The tag of the command line; behind the terminator is what fills the last word. -/
def Boot.cmdlineTag (b : Boot) (padding : List UInt8) : Tag := ⟨0x54410009, b.text ++ 0 :: padding⟩

theorem PtEntry.length_bytes (ptn : PtEntry) : ptn.bytes.length = 28 := by
  simp [PtEntry.bytes, length_toLe32]

theorem length_ptentries (parts : List PtEntry) :
    (parts.flatMap PtEntry.bytes).length = 28 * parts.length := by
  induction parts with
  | nil => rfl
  | cons ptn parts ih =>
    rw [List.flatMap_cons, List.length_append, ih, ptn.length_bytes, List.length_cons]
    omega

theorem appended_tag {o o' : Out} (tag : Tag) {size : Nat} (sized : size = tag.size)
    (payload : Appended ((o.putWord size).putWord tag.id) o' tag.payload) :
    Appended o o' tag.bytes := by
  rw [Tag.bytes, ← sized]
  exact (appended_putWord o size).trans ((appended_putWord _ tag.id).trans payload)

theorem appended_core (o : Out) : Appended o (tagsCore o) (Tag.bytes ⟨0x54410001, []⟩) :=
  appended_tag ⟨0x54410001, []⟩ rfl (Appended.refl _)

variable (b : Boot)

theorem appended_ramdisk (o : Out) :
    Appended o (tagsRamdisk b o) (b.ramdiskTags.flatMap Tag.bytes) := by
  unfold tagsRamdisk Boot.ramdiskTags
  by_cases some_ : b.ramdiskSize ≠ 0
  · rw [if_pos some_, if_pos some_, List.flatMap_singleton]
    have sized : 4 = Tag.size
        ⟨0x54420005, toLe32 b.ramdisk.toNat ++ toLe32 b.ramdiskSize.toNat⟩ := by
      rw [Tag.size, List.length_append, length_toLe32, length_toLe32]
    have words := (appended_putWord ((o.putWord 4).putWord 0x54420005) b.ramdisk.toNat).trans
      (appended_putWord _ b.ramdiskSize.toNat)
    exact appended_tag _ sized words
  · rw [if_neg some_, if_neg some_]
    exact Appended.refl o

theorem appended_partitions (o : Out) :
    Appended o (tagsPartitions b o) (b.partitionTags.flatMap Tag.bytes) := by
  unfold tagsPartitions Boot.partitionTags
  cases b.ptable with
  | none => split <;> exact Appended.refl o
  | some ptable =>
    dsimp only
    by_cases listed : b.emmc = false ∧ ptable.parts ≠ []
    · have nand : (!b.emmc) = true := by rw [listed.1]; rfl
      have some_ : ptable.parts.length ≠ 0 := fun none_ => listed.2 (List.length_eq_zero_iff.mp none_)
      rw [if_pos nand, if_pos some_, if_pos listed, List.flatMap_singleton]
      refine appended_tag ⟨0x4d534d70, _⟩ ?_ (appended_ptentries _ _)
      rw [Tag.size, length_ptentries]
      omega
    · split
      · rename_i nand
        rw [if_neg fun some_ => listed ⟨by simpa using nand, fun none_ => some_ (by rw [none_]; rfl)⟩]
        exact Appended.refl o
      · exact Appended.refl o

theorem agrees_window (mem : Nat → UInt8) (start len : Nat) :
    Agrees mem start (window mem start len) := by
  intro i bound
  simp [window]

theorem Boot.text_pos : 0 < b.text.length := by
  have own : usbSnCmdline.length = 22 := by decide
  simp only [Boot.text, List.length_append]
  omega

theorem Boot.cmdlineSize_eq (short : b.text.length < 2 ^ 31) :
    b.cmdlineSize = (b.text.length + 4) / 4 * 4 := by
  have wrapped : (b.text.length + 4) % 2 ^ 32 = b.text.length + 4 := Nat.mod_eq_of_lt (by omega)
  rw [Boot.cmdlineSize, ← b.length_text, wrapped]

theorem Boot.cmdlineLen_pos (short : b.text.length < 2 ^ 31) :
    0 < Int.bmod b.cmdlineLen (2 ^ 32) := by
  have some_ := b.text_pos
  rw [← b.length_text, Int.bmod_eq_of_le (by omega) (by omega)]
  omega

theorem appended_payload (o : Out) (size : Nat) (rounded : size = (b.text.length + 4) / 4 * 4) :
    ∃ padding, (b.text ++ 0 :: padding).length = size ∧ padding.length < 4 ∧
      Appended o ⟨(b.writeCmdline o.mem o.ptr).mem, o.ptr + size / 4 * 4⟩
        (b.text ++ 0 :: padding) := by
  have holds := b.writeCmdline_holds o.mem o.ptr
  generalize (b.writeCmdline o.mem o.ptr) = d at holds
  have padded : (window d.mem (o.ptr + (b.text.length + 1)) (size - (b.text.length + 1))).length =
      size - (b.text.length + 1) := by
    simp [window]
  have rest := agrees_window d.mem (o.ptr + (b.text.length + 1)) (size - (b.text.length + 1))
  generalize window d.mem (o.ptr + (b.text.length + 1)) (size - (b.text.length + 1)) = padding
    at padded rest
  have whole : (b.text ++ 0 :: padding).length = size := by
    rw [List.length_append, List.length_cons]
    omega
  refine ⟨padding, whole, by omega, ?_, ?_, holds.before⟩
  · show o.ptr + size / 4 * 4 = _
    omega
  · have regrouped : b.text ++ 0 :: padding = (b.text ++ [0]) ++ padding := by
      rw [List.append_assoc]
      rfl
    rw [regrouped]
    refine agrees_append.mpr ⟨holds.there, ?_⟩
    rw [List.length_append, List.length_singleton]
    exact rest

theorem tagsCmdline_eq (o : Out) (positive : 0 < Int.bmod b.cmdlineLen (2 ^ 32)) :
    tagsCmdline b o =
      let o := (o.putWord (b.cmdlineSize / 4 + 2)).putWord 0x54410009
      ⟨(b.writeCmdline o.mem o.ptr).mem, o.ptr + b.cmdlineSize / 4 * 4⟩ := by
  exact if_pos positive

theorem appended_cmdline (o : Out) (short : b.text.length < 2 ^ 31) :
    ∃ padding, (b.text ++ 0 :: padding).length = b.cmdlineSize ∧ padding.length < 4 ∧
      Appended o (tagsCmdline b o) (b.cmdlineTag padding).bytes := by
  rw [tagsCmdline_eq b o (b.cmdlineLen_pos short)]
  obtain ⟨padding, whole, less, payload⟩ := appended_payload b
    ((o.putWord (b.cmdlineSize / 4 + 2)).putWord 0x54410009) b.cmdlineSize (b.cmdlineSize_eq short)
  refine ⟨padding, whole, less, ?_⟩
  refine appended_tag (b.cmdlineTag padding) ?_ payload
  rw [Nat.add_comm, ← whole]
  rfl

theorem appended_end (o : Out) : Appended o (tagsEnd o) (toLe32 0 ++ toLe32 0) :=
  (appended_putWord o 0).trans (appended_putWord _ 0)

theorem appended_bootLinux (target : AtagMem) (o : Out) (short : b.text.length < 2 ^ 31) :
    ∃ padding, (b.text ++ 0 :: padding).length = b.cmdlineSize ∧ padding.length < 4 ∧
      Appended o (bootLinux b target o)
        ((b.tags target o ++ [b.cmdlineTag padding]).flatMap Tag.bytes ++
          (toLe32 0 ++ toLe32 0)) := by
  have core := appended_core o
  have ramdisk := core.trans (appended_ramdisk b _)
  have memory := ramdisk.trans (target.appended _)
  have partitions := memory.trans (appended_partitions b _)
  obtain ⟨padding, whole, less, cmdline⟩ := appended_cmdline b
    (tagsPartitions b (target.run (tagsRamdisk b (tagsCore o)))) short
  refine ⟨padding, whole, less, ?_⟩
  have all := (partitions.trans cmdline).trans (appended_end _)
  rw [List.flatMap_append, List.flatMap_singleton, Boot.tags, List.flatMap_cons, List.flatMap_append,
    List.flatMap_append]
  simpa only [bootLinux, List.append_assoc] using all

theorem wellFormed_pair {id : Nat} (one two : Nat) (small : id < 2 ^ 32) :
    Tag.WellFormed ⟨id, toLe32 one ++ toLe32 two⟩ := by
  have eight : (toLe32 one ++ toLe32 two).length = 8 := by
    rw [List.length_append, length_toLe32, length_toLe32]
  exact ⟨by rw [eight]; decide, by rw [Tag.size, eight]; decide, small⟩

theorem Boot.tags_wellFormed (target : AtagMem) (o : Out) :
    ∀ tag ∈ b.tags target o, tag.WellFormed := by
  intro tag member
  rcases List.mem_cons.mp member with rfl | member
  · exact ⟨by decide, by decide, by decide⟩
  · rcases List.mem_append.mp member with ramdisk | member
    · unfold Boot.ramdiskTags at ramdisk
      split at ramdisk
      · rw [List.mem_singleton.mp ramdisk]
        exact wellFormed_pair _ _ (by decide)
      · cases ramdisk
    · rcases List.mem_append.mp member with memory | partitions
      · exact target.wellFormed _ tag memory
      · unfold Boot.partitionTags at partitions
        cases found : b.ptable with
        | none =>
          rw [found] at partitions
          cases partitions
        | some ptable =>
          rw [found] at partitions
          dsimp only at partitions
          split at partitions
          · rw [List.mem_singleton.mp partitions]
            have length := length_ptentries ptable.parts
            have bound := ptable.bound
            refine ⟨?_, ?_, ?_⟩
            · rw [length]
              omega
            · rw [Tag.size, length]
              omega
            · show (0x4d534d70 : Nat) < 2 ^ 32
              decide
          · cases partitions

theorem Boot.text_free : 0 ∉ b.text := by
  have given : 0 ∉ b.given.getD [] := by
    unfold Boot.given
    cases b.cmdline with
    | none => exact List.not_mem_nil
    | some text =>
      dsimp only
      split
      · exact List.not_mem_nil
      · exact text.2
  have baseband : 0 ∉ b.baseband.cmdline.getD [] := by
    cases b.baseband <;> decide +kernel
  simp only [Boot.text, List.mem_append, not_or]
  refine ⟨⟨⟨⟨⟨⟨⟨⟨given, ?_⟩, ?_⟩, b.serialno.2⟩, ?_⟩, ?_⟩, baseband⟩, ?_⟩, ?_⟩
  · split <;> decide +kernel
  · decide +kernel
  · split <;> decide +kernel
  · split <;> decide +kernel
  · split <;> decide +kernel
  · split <;> decide +kernel

def cString (payload : List UInt8) : List UInt8 := payload.takeWhile (· ≠ 0)

theorem cString_text (padding : List UInt8) : cString (b.text ++ 0 :: padding) = b.text := by
  rw [cString, List.takeWhile_append_of_pos]
  · simp
  · intro byte member
    exact decide_eq_true fun zero => b.text_free (zero ▸ member)

/-- The kernel that walks the list sees the tags that were emitted, the command line with exactly
the selected fragments and their terminator last, and stops at the two zero words. The texts and
their copy are both in a memory of 2³² bytes. -/
theorem bootLinux_walk (b : Boot) (target : AtagMem) (o : Out) (room : 2 * b.text.length < 2 ^ 32)
    (fuel : Nat) (enough : (b.tags target o).length + 1 < fuel) :
    ∃ padding, padding.length < 4 ∧
      walk (bootLinux b target o).mem fuel o.ptr =
        some (b.tags target o ++ [b.cmdlineTag padding], (bootLinux b target o).ptr - 8) ∧
      cString (b.cmdlineTag padding).payload = b.text ∧
      le32 (bootLinux b target o).mem ((bootLinux b target o).ptr - 8) = 0 ∧
      le32 (bootLinux b target o).mem ((bootLinux b target o).ptr - 4) = 0 := by
  have short : b.text.length < 2 ^ 31 := by omega
  obtain ⟨padding, whole, less, appended⟩ := appended_bootLinux b target o short
  have size := b.cmdlineSize_eq short
  have wellFormed : ∀ tag ∈ b.tags target o ++ [b.cmdlineTag padding],
      tag.WellFormed := by
    intro tag member
    rcases List.mem_append.mp member with front | last
    · exact b.tags_wellFormed target o tag front
    · rw [List.mem_singleton.mp last]
      refine ⟨?_, ?_, ?_⟩
      · show 4 ∣ (b.text ++ 0 :: padding).length
        rw [whole, size]
        exact Nat.dvd_mul_left 4 _
      · show 2 + (b.text ++ 0 :: padding).length / 4 < 2 ^ 32
        omega
      · show (0x54410009 : Nat) < 2 ^ 32
        decide
  obtain ⟨ptr, there, -⟩ := appended
  rw [← List.append_assoc] at there
  obtain ⟨front, last⟩ := agrees_append.mp there
  rw [List.length_append, List.length_append, length_toLe32] at ptr
  rw [List.length_append, length_toLe32] at last
  have walked := walk_tags wellFormed o.ptr fuel (by
    rw [List.length_append, List.length_singleton]
    exact enough) front
  have zero := (agrees_append.mp front).2
  have place : (bootLinux b target o).ptr - 8 = o.ptr +
      ((b.tags target o ++ [b.cmdlineTag padding]).flatMap Tag.bytes).length := by
    omega
  have place' : (bootLinux b target o).ptr - 4 = o.ptr +
      (((b.tags target o ++ [b.cmdlineTag padding]).flatMap Tag.bytes).length + 4) := by
    omega
  refine ⟨padding, less, ?_, cString_text b padding, ?_, ?_⟩
  · rw [place]
    exact walked
  · rw [place]
    exact le32_of_agrees zero (by decide)
  · rw [place']
    exact le32_of_agrees last (by decide)

def AtagMem.fixed (tags : List Tag) (wellFormed : ∀ tag ∈ tags, tag.WellFormed) : AtagMem where
  run o := o.append (tags.flatMap Tag.bytes)
  tags _ := tags
  wellFormed _ := wellFormed
  appended o := appended_append o _

def memTag (size start : UInt32) : Tag := ⟨0x54410002, toLe32 size.toNat ++ toLe32 start.toNat⟩

def twoRegions : AtagMem :=
  .fixed [memTag 0xf00000 0x40800000, memTag 0x1700000 0x45800000] fun tag member => by
    rcases List.mem_cons.mp member with rfl | member
    · exact wellFormed_pair _ _ (by decide)
    · rw [List.mem_singleton.mp member]
      exact wellFormed_pair _ _ (by decide)

def nandBoot : Boot where
  cmdline := some ⟨ascii "console=ttyHSL0", by decide⟩
  serialno := ⟨ascii "1234", by decide⟩
  ramdisk := 0x41500000
  ramdiskSize := 0x2000
  emmc := false
  recovery := true
  pause := false
  signed := true
  authKernelImg := true
  baseband := .mdm
  ptable := some ⟨[⟨fun _ => 0x61, 0, 10, 0⟩, ⟨fun _ => 0x62, 10, 90, 1⟩], by decide⟩

def tagsPlace : Out := ⟨fun _ => 0xff, 0x40000100⟩

theorem bootLinux_walk_nand :
    2 * nandBoot.text.length < 2 ^ 32 ∧ (nandBoot.tags twoRegions tagsPlace).length + 1 < 7 ∧
      ∃ padding, padding.length < 4 ∧
        walk (bootLinux nandBoot twoRegions tagsPlace).mem 7 tagsPlace.ptr =
          some (nandBoot.tags twoRegions tagsPlace ++ [nandBoot.cmdlineTag padding],
            (bootLinux nandBoot twoRegions tagsPlace).ptr - 8) := by
  have room : 2 * nandBoot.text.length < 2 ^ 32 := by decide +kernel
  have five : (nandBoot.tags twoRegions tagsPlace).length + 1 < 7 := by decide
  obtain ⟨padding, less, walked, -⟩ := bootLinux_walk nandBoot twoRegions tagsPlace room 7 five
  exact ⟨room, five, padding, less, walked⟩

end Building

end AndroidBoot.Aboot.KernelTags
