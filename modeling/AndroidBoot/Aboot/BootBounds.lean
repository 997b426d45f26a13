/- source: bootable/lk/app/aboot/aboot.c
   digest: Bounds of what booting reads: the downloaded image, and the page of a stored header. -/

import AndroidBoot.Aboot.VerifiedBoot

set_option autoImplicit false

namespace AndroidBoot.Aboot.BootBounds

open Foundation.Memory Foundation.Run Platform.Mmc Platform.Nand DeviceInfo FlashCommands BootFlow
open VerifiedBoot (Kept attemptMeets bootFromStorage_rule fastbootStart loadImage_rule loadsClear
  openHeader_eq strictTarget)

section Download

/-- The device that `cmd_boot` goes on with: on eMMC it has the page size of the header. -/
def bootDevice (device : Device) : Device :=
  if device.storage.isMmc then adoptPageSize device (readHdr device.scratch) else device

/-- What `cmd_boot` copies, by offset and length in the download: kernel and ramdisk. -/
def bootCopies (device : Device) (hdr : BootImgHdr) : List (Nat × Nat) :=
  [(device.pageSize, hdr.kernelSize),
    (device.pageSize + device.kernelActual hdr, hdr.ramdiskSize)]

structure Unwrapped (device : Device) (hdr : BootImgHdr) : Prop where
  kernel : hdr.kernelSize + device.pageMask < 2 ^ 32
  ramdisk : hdr.ramdiskSize + device.pageMask < 2 ^ 32
  image : device.pageSize + device.kernelActual hdr + device.ramdiskActual hdr < 2 ^ 32

variable {device : Device} {hdr : BootImgHdr}

theorem cmdBoot_eq (device : Device) :
    cmdBoot device =
      if device.downloadSize < bootImgHdrSize then device
      else if (bootDevice device).downloadSize <
          (bootDevice device).imageSize (readHdr device.scratch) then bootDevice device
      else bootLinux (bootDevice device) (bytesAt (bootDevice device).scratch 0
        ((bootDevice device).extent (readHdr device.scratch))) := by
  rfl

theorem cmdBoot_phase (device : Device) (serving : device.phase = .fastboot) :
    (cmdBoot device).phase = .kernel ↔ bootImgHdrSize ≤ device.downloadSize ∧
      (bootDevice device).imageSize (readHdr device.scratch) ≤ device.downloadSize := by
  have kept : (bootDevice device).phase = .fastboot ∧
      (bootDevice device).downloadSize = device.downloadSize := by
    unfold bootDevice adoptPageSize
    split_ifs <;> exact ⟨serving, rfl⟩
  rw [cmdBoot_eq, kept.2]
  by_cases header : device.downloadSize < bootImgHdrSize
  · rw [if_pos header, serving]
    exact ⟨nofun, fun h => absurd h.1 (Nat.not_le.mpr header)⟩
  by_cases short : device.downloadSize < (bootDevice device).imageSize (readHdr device.scratch)
  · rw [if_neg header, if_pos short, kept.1]
    exact ⟨nofun, fun h => absurd h.2 (Nat.not_le.mpr short)⟩
  · rw [if_neg header, if_neg short]
    exact ⟨fun _ => ⟨Nat.le_of_not_lt header, Nat.le_of_not_lt short⟩, fun _ => rfl⟩

theorem pageMask_eq (positive : 0 < device.pageSize) (small : device.pageSize < 2 ^ 32) :
    device.pageMask = device.pageSize - 1 := by
  unfold Device.pageMask
  omega

theorem copies_of_unwrapped (whole : Unwrapped device hdr) {size : Nat}
    (enough : device.imageSize hdr ≤ size) :
    ∀ copy ∈ bootCopies device hdr, copy.1 + copy.2 ≤ size := by
  have kernel : hdr.kernelSize ≤ device.kernelActual hdr := le_roundToPage whole.kernel
  have ramdisk : hdr.ramdiskSize ≤ device.ramdiskActual hdr := le_roundToPage whole.ramdisk
  rw [Device.imageSize, Nat.mod_eq_of_lt whole.image] at enough
  intro copy member
  rcases List.mem_pair.mp member with rfl | rfl
  · omega
  · omega

theorem copies_beyond (positive : 0 < device.pageSize) (small : device.pageSize < 2 ^ 32)
    (wrapped : ¬ Unwrapped device hdr) :
    ∃ copy ∈ bootCopies device hdr,
      max bootImgHdrSize (device.imageSize hdr) < copy.1 + copy.2 := by
  have mask := pageMask_eq positive small
  have ramdiskUp : device.ramdiskActual hdr ≤ hdr.ramdiskSize + device.pageMask :=
    roundToPage_le _ _
  have size : device.imageSize hdr < 2 ^ 32 := Nat.mod_lt _ (by decide)
  have header : bootImgHdrSize = 608 := rfl
  have first : (device.pageSize, hdr.kernelSize) ∈ bootCopies device hdr := List.mem_cons_self
  have second : (device.pageSize + device.kernelActual hdr, hdr.ramdiskSize) ∈
      bootCopies device hdr := List.mem_cons_of_mem _ List.mem_cons_self
  by_cases kernel : hdr.kernelSize + device.pageMask < 2 ^ 32
  swap
  · refine ⟨_, first, ?_⟩
    omega
  by_cases ramdisk : hdr.ramdiskSize + device.pageMask < 2 ^ 32
  swap
  · refine ⟨_, second, ?_⟩
    omega
  have image : 2 ^ 32 ≤ device.pageSize + device.kernelActual hdr + device.ramdiskActual hdr :=
    Nat.le_of_not_lt fun fits => wrapped ⟨kernel, ramdisk, fits⟩
  have less : device.imageSize hdr + 2 ^ 32 ≤
      device.pageSize + device.kernelActual hdr + device.ramdiskActual hdr := by
    unfold Device.imageSize
    omega
  refine ⟨_, second, ?_⟩
  omega

/-- For a header, `cmd_boot` copies from the downloaded bytes only, whatever the size of the
download that it accepts, if and only if none of its sums wraps around. -/
theorem boot_copies_downloaded_iff (device : Device) (serving : device.phase = .fastboot)
    (positive : 0 < device.pageSize) (small : device.pageSize < 2 ^ 32) :
    (∀ size < 2 ^ 32, (cmdBoot { device with downloadSize := size }).phase = .kernel →
      ∀ copy ∈ bootCopies (bootDevice device) (readHdr device.scratch), copy.1 + copy.2 ≤ size) ↔
    Unwrapped (bootDevice device) (readHdr device.scratch) := by
  have page : 0 < (bootDevice device).pageSize ∧ (bootDevice device).pageSize < 2 ^ 32 := by
    unfold bootDevice adoptPageSize
    split_ifs with mmc nonzero
    · exact ⟨Nat.pos_of_ne_zero nonzero, le32_lt _ _⟩
    · exact ⟨positive, small⟩
    · exact ⟨positive, small⟩
  have accepts (size : Nat) : (cmdBoot { device with downloadSize := size }).phase = .kernel ↔
      bootImgHdrSize ≤ size ∧ (bootDevice device).imageSize (readHdr device.scratch) ≤ size := by
    have phase := cmdBoot_phase { device with downloadSize := size } serving
    have sized : (bootDevice { device with downloadSize := size }).imageSize
        (readHdr device.scratch) = (bootDevice device).imageSize (readHdr device.scratch) := by
      unfold bootDevice adoptPageSize
      split_ifs <;> rfl
    rwa [sized] at phase
  constructor
  · intro inside
    by_contra wrapped
    obtain ⟨copy, member, beyond⟩ := copies_beyond page.1 page.2 wrapped
    have bound : (bootDevice device).imageSize (readHdr device.scratch) < 2 ^ 32 :=
      Nat.mod_lt _ (by decide)
    have header : bootImgHdrSize < 2 ^ 32 := by decide
    have within := inside _ (Nat.max_lt.mpr ⟨header, bound⟩) ((accepts _).mpr
      ⟨Nat.le_max_left _ _, Nat.le_max_right _ _⟩) copy member
    omega
  · intro whole size _ accepted
    exact copies_of_unwrapped whole ((accepts size).mp accepted).2

def bootStorage : Storage := .mmc ⟨true, [⟨"boot".toList, 1, 64⟩], fun _ => 0⟩

def onlyHeader (kernelSize ramdiskSize pageSize : Nat) : Nat → UInt8 :=
  fun i => (bootMagic ++ toLe32 kernelSize ++ toLe32 0 ++ toLe32 ramdiskSize ++
    List.replicate 16 0 ++ toLe32 pageSize).getD i 0

def downloaded (image : Nat → UInt8) (size : Nat) : Device :=
  { shipped bootStorage with phase := .fastboot, scratch := image, downloadSize := size }

theorem wrapped_sizes_accepted :
    (cmdBoot (downloaded (onlyHeader 0xFFFFF000 0x800 2048) 608)).phase = .kernel ∧
      ∃ copy ∈ bootCopies (bootDevice (downloaded (onlyHeader 0xFFFFF000 0x800 2048) 608))
        (readHdr (onlyHeader 0xFFFFF000 0x800 2048)), 608 < copy.1 + copy.2 := by
  refine ⟨by decide +kernel, (2048, 0xFFFFF000), by decide +kernel, by decide⟩

theorem boot_copies_downloaded_two_pages :
    (cmdBoot (downloaded (onlyHeader 1000 500 2048) 6144)).phase = .kernel ∧
      ∀ copy ∈ bootCopies (bootDevice (downloaded (onlyHeader 1000 500 2048) 0))
        (readHdr (onlyHeader 1000 500 2048)), copy.1 + copy.2 ≤ 6144 := by
  have accepted : (cmdBoot (downloaded (onlyHeader 1000 500 2048) 6144)).phase = .kernel := by
    decide +kernel
  refine ⟨accepted, (boot_copies_downloaded_iff (downloaded (onlyHeader 1000 500 2048) 0)
    rfl (by decide) (by decide)).mpr ⟨by decide +kernel, by decide +kernel, by decide +kernel⟩
    6144 (by decide) accepted⟩

end Download

section HeaderPage

/-- An attempt to boot that takes over no page size that `buf` has no room for. Nor is its image
loaded over anything, or the page of a flash larger. -/
def attemptSmall (target : Target) (device : Device) (attempt : Attempt) : Bool :=
  (device.storage.isMmc || device.pageSize ≤ bufSize) &&
    attemptMeets device attempt fun opened hdr =>
      hdr.pageSize ≤ bufSize && loadsClear target opened hdr

def smallHeader (target : Target) (device : Device) : Label → Bool
  | .powerOn written start =>
    (bootCandidate target (if device.phase = .kernel then written else device.storage)
      device.transfers start).all fun prepared =>
        prepared.phase = .off || attemptSmall target prepared start.attempt
  | .boot _ =>
    (!device.storage.isMmc || device.downloadSize < bootImgHdrSize ||
      (readHdr device.scratch).pageSize ≤ bufSize) && bootClear target device
  | .continue attempt => attemptSmall target device attempt
  | _ => true

/-- A step that leaves the page size and the kind of the storage, and reads no header. -/
structure Framed (device next : Device) : Prop where
  page : next.pageSize = device.pageSize
  kind : next.storage.isMmc = device.storage.isMmc
  reads : next.bufReads = device.bufReads

theorem Framed.refl (device : Device) : Framed device device := ⟨rfl, rfl, rfl⟩

theorem Framed.trans {one two three : Device} (first : Framed one two)
    (second : Framed two three) : Framed one three :=
  ⟨second.page.trans first.page, second.kind.trans first.kind, second.reads.trans first.reads⟩

theorem Framed.after {one two three : Device} (second : Framed two three)
    (page : two.pageSize = one.pageSize) (kind : two.storage.isMmc = one.storage.isMmc)
    (reads : two.bufReads = one.bufReads) : Framed one three :=
  Framed.trans ⟨page, kind, reads⟩ second

variable (storage : Storage)

theorem putRecord_isMmc (pageSize : Nat) (source : Nat → UInt8)
    (fault : Fault) : (storage.putRecord pageSize source fault).isMmc = storage.isMmc := by
  cases storage <;> simp only [Storage.putRecord] <;> split <;> rfl

theorem writeDeviceInfo_isMmc (pageSize : Nat) (infoBuf : Nat → UInt8)
    (info : Info) (fault : Fault) :
    (writeDeviceInfo storage pageSize infoBuf info fault).1.isMmc = storage.isMmc := by
  rw [writeDeviceInfo]
  split
  · rfl
  · exact putRecord_isMmc _ _ _ _

theorem readDeviceInfo_isMmc (pageSize : Nat) (infoBuf : Nat → UInt8)
    (info : Info) (readFault writeFault : Fault) :
    (readDeviceInfo storage pageSize infoBuf info readFault writeFault).1.isMmc =
      storage.isMmc := by
  unfold readDeviceInfo
  split
  · rfl
  · dsimp only
    split_ifs
    · rfl
    · exact writeDeviceInfo_isMmc _ _ _ _ _
    · rfl

theorem saveInfo_framed (device : Device) (fault : Fault) : Framed device (saveInfo device fault) :=
  ⟨rfl, writeDeviceInfo_isMmc _ _ _ _ _, rfl⟩

theorem loadImage_framed {target : Target} {device : Device} {hdr : BootImgHdr}
    (clear : loadsClear target device hdr = true) (ptn : Nat) (attempt : Attempt) :
    Framed device (loadImage target device ptn hdr attempt) := by
  have judged (device : Device) (size : Nat) (unread : Bool) :
      Framed device (judge target device size unread) := by
    unfold judge
    dsimp only
    split_ifs <;> exact ⟨rfl, rfl, rfl⟩
  have ran (device : Device) (fault : Fault) : Framed device (runImage device hdr fault) := by
    unfold runImage
    dsimp only
    split_ifs
    · exact (saveInfo_framed _ fault).trans ⟨rfl, rfl, rfl⟩
    · exact ⟨rfl, rfl, rfl⟩
  refine loadImage_rule clear (Framed.refl device) (fun _ _ => ⟨rfl, rfl, rfl⟩)
    fun _ _ scratch => ⟨fun _ => ⟨rfl, rfl, rfl⟩, fun unread => ?_⟩
  exact (((judged _ _ unread).trans (ran _ attempt.io.tamper))).after rfl rfl rfl

theorem writePartition_framed (device : Device) (flash : Flash) (name : Fastboot.Text)
    (source : Nat → UInt8) (bytes : Nat) (fault : Fault)
    (kind : device.storage = .nand flash) :
    Framed device (writePartition device flash name source bytes fault).2 := by
  unfold writePartition
  split
  · exact Framed.refl device
  · exact ⟨rfl, by rw [kind]; rfl, rfl⟩

theorem emmcSetRecoveryMsg_framed (device : Device) (message : Nat → UInt8) (start : Start) :
    Framed device (emmcSetRecoveryMsg device message start) := by
  unfold emmcSetRecoveryMsg
  split
  · exact Framed.refl device
  · rename_i emmc kind
    split
    · exact Framed.refl device
    · exact ⟨rfl, by rw [kind]; rfl, rfl⟩

theorem kept_framed (device : Device) (start : Start) : Kept start (Framed device) where
  memory framed _ _ _ := { framed with }
  partition framed kind _ _ _ _ := framed.trans (writePartition_framed _ _ _ _ _ _ kind)
  info framed _ _ := framed.trans ((saveInfo_framed _ _).after rfl rfl rfl)
  message framed message := framed.trans (emmcSetRecoveryMsg_framed _ message start)

theorem prepareBoot_framed (target : Target) (device : Device) (start : Start) :
    Framed device (prepareBoot target device start) :=
  (kept_framed device start).prepareBoot (Framed.refl device) target

variable {start : Start}

theorem chooseBoot_framed {device chosen : Device}
    (taken : chooseBoot device start = some chosen) : Framed device chosen :=
  (kept_framed device start).chooseBoot (Framed.refl device) taken

/-- The headers read so far had room in `buf`, and the next one on eMMC has. -/
structure Fits (device : Device) : Prop where
  page : device.storage.isMmc = true → device.pageSize ≤ bufSize
  reads : ∀ n ∈ device.bufReads, n ≤ bufSize

theorem Framed.fits {device next : Device} (framed : Framed device next) (fits : Fits device) :
    Fits next := by
  refine ⟨fun mmc => ?_, by rw [framed.reads]; exact fits.reads⟩
  rw [framed.page]
  exact fits.page (framed.kind.symm.trans mmc)

theorem initDevice_fits (target : Target) (storage : Storage) (transfers : List Transfer)
    (start : Start) : Fits (initDevice target storage transfers start) := by
  have initial : Fits (powered storage transfers start) := by
    refine ⟨fun mmc => ?_, nofun⟩
    rcases storage with emmc | flash
    · exact show 2048 ≤ bufSize by decide
    · cases mmc
  rw [initDevice]
  split
  · have framed : Framed (powered storage transfers start)
        (loadInfo (powered storage transfers start) start.attempt.io) :=
      ⟨rfl, readDeviceInfo_isMmc _ _ _ _ _ _, rfl⟩
    exact framed.fits initial
  · exact initial

variable {device : Device} {target : Target} {attempt : Attempt}

theorem openHeader_fits (fits : Fits device) (ptn : Nat)
    (small : ∀ hdr, (openHeader device ptn attempt.io).2 = some hdr → hdr.pageSize ≤ bufSize) :
    Fits (openHeader device ptn attempt.io).1 := by
  obtain ⟨pageSize, same, page⟩ := openHeader_eq device ptn attempt.io
  rw [same]
  refine ⟨fun mmc => ?_, List.forall_mem_append.mpr ⟨fun n member => ?_, fits.reads⟩⟩
  · rcases page with kept | ⟨-, hdr, found, adopted⟩
    · exact kept.trans_le (fits.page mmc)
    · exact adopted.trans_le (small hdr found)
  · split at member
    · rename_i mmc
      rw [List.mem_singleton.mp member]
      exact fits.page mmc
    · cases member

theorem bootFromStorage_fits (fits : Fits device)
    (small : attemptSmall target device attempt = true) :
    Fits (bootFromStorage target device attempt) := by
  rw [attemptSmall, Bool.and_eq_true, Bool.or_eq_true, decide_eq_true_eq] at small
  refine bootFromStorage_rule (small.1.elim fits.page id) small.2 (fun _ _ => { fits with }) fits
    (fun ptn refused => openHeader_fits fits ptn ?_) fun ptn hdr found ok => ?_
  · rw [refused]
    exact nofun
  · rw [Bool.and_eq_true, decide_eq_true_eq] at ok
    refine (loadImage_framed ok.2 ptn attempt).fits (openHeader_fits fits ptn ?_)
    rw [found]
    rintro hdr ⟨⟩
    exact ok.1

theorem cmdBoot_fits (fits : Fits device)
    (small : device.storage.isMmc = true → bootImgHdrSize ≤ device.downloadSize →
      (readHdr device.scratch).pageSize ≤ bufSize) : Fits (cmdBoot device) := by
  rw [cmdBoot_eq]
  by_cases header : device.downloadSize < bootImgHdrSize
  · rw [if_pos header]
    exact fits
  have adopted : Fits (bootDevice device) := by
    unfold bootDevice adoptPageSize
    split_ifs with mmc
    · exact ⟨fun _ => small mmc (Nat.le_of_not_lt header), fits.reads⟩
    all_goals exact fits
  split_ifs
  · exact adopted
  · exact { adopted with }

variable {label : Label}

theorem powerOn_fits {written : Storage}
    (small : smallHeader target device (.powerOn written start) = true) :
    Fits (abootInit target (if device.phase = .kernel then written else device.storage)
      device.transfers start) := by
  have init := initDevice_fits target
    (if device.phase = .kernel then written else device.storage) device.transfers start
  rw [smallHeader] at small
  rw [abootInit]
  split
  · exact ((kept_framed _ start).enterFastboot (Framed.refl _)).fits init
  · rename_i prepared taken
    rw [taken, Option.all_some, Bool.or_eq_true, decide_eq_true_eq] at small
    obtain ⟨chosen, chose, rfl⟩ := Option.map_eq_some_iff.mp taken
    have fits : Fits (prepareBoot target chosen start) :=
      ((chooseBoot_framed chose).trans (prepareBoot_framed target chosen start)).fits init
    rw [normalBoot]
    dsimp only
    split
    · exact fits
    · rename_i on
      have booted := bootFromStorage_fits fits (small.resolve_left on)
      split
      · exact booted
      · exact ((kept_framed _ start).enterFastboot (Framed.refl _)).fits booted

theorem rewritten_isMmc (device : Device) (arg : Fastboot.Text) (env : FlashEnv) :
    (flashed device arg env).isMmc = device.storage.isMmc ∧
      (erased device arg env).isMmc = device.storage.isMmc := by
  unfold flashed erased
  cases device.storage with
  | mmc | nand => exact ⟨rfl, rfl⟩

theorem command_fits (fits : Fits device)
    (small : smallHeader target device label = true) : Fits (command target device label) := by
  cases label with
  | powerOn | download | oemDeviceInfo | reboot => exact { fits with }
  | boot overwritten =>
    simp only [smallHeader, Bool.and_eq_true, Bool.or_eq_true, Bool.not_eq_true',
      decide_eq_true_eq] at small
    simp only [command, small.2, Bool.true_eq_false, and_false, if_false]
    refine cmdBoot_fits fits fun mmc enough => (small.1.resolve_left ?_)
    rintro (nand | short)
    · rw [mmc] at nand
      cases nand
    · omega
  | flash arg env => exact ⟨fun mmc => fits.page ((rewritten_isMmc device arg env).1.symm.trans mmc),
      fits.reads⟩
  | erase arg env => exact ⟨fun mmc => fits.page ((rewritten_isMmc device arg env).2.symm.trans mmc),
      fits.reads⟩
  | «continue» attempt => exact bootFromStorage_fits fits small
  | oemUnlock fault =>
    show Fits (cmdOemUnlock device fault)
    unfold cmdOemUnlock
    split_ifs
    · refine (saveInfo_framed _ fault).fits ?_
      exact { fits with }
    · exact fits

theorem step_fits {device next : Device} (fits : Fits device)
    (small : smallHeader target device label = true)
    (taken : step target device label = some next) : Fits next := by
  cases label with
  | powerOn written start =>
    cases taken
    exact powerOn_fits small
  | _ =>
    simp only [step] at taken
    split_ifs at taken
    cases taken
    exact command_fits fits small

theorem shipped_fits : Fits (shipped storage) := by
  refine ⟨?_, nofun⟩
  rcases storage with emmc | flash
  · exact fun _ => show 2048 ≤ bufSize by decide
  · exact nofun

/-- In every run whose headers all have page sizes that `buf` has room for, every page that
`boot_linux_from_mmc` reads to `buf` has room there. -/
theorem header_page_fits {target : Target} {storage : Storage} {device : Device}
    (run : Reach (step target) (fun device label => smallHeader target device label = true)
      (shipped storage) device) : ∀ n ∈ device.bufReads, n ≤ bufSize :=
  (run.invariant Fits (shipped_fits storage)
    fun _ _ _ fits small taken => step_fits fits small taken).reads

theorem refused_header_page_too_large : ∃ device,
    Reach (step strictTarget) (fun _ _ => True) (shipped bootStorage) device ∧
      8192 ∈ device.bufReads :=
  exists_run_of_replay
    [.powerOn bootStorage fastbootStart, .download (onlyHeader 0 0 8192) 4096, .boot id,
      .continue fastbootStart.attempt] (fun device => 8192 ∈ device.bufReads)
    (by decide +kernel) fun _ _ => id

theorem header_page_fits_full : ∃ device,
    Reach (step strictTarget) (fun device label => smallHeader strictTarget device label = true)
      (shipped bootStorage) device ∧
      device.bufReads = [4096] ∧ ∀ n ∈ device.bufReads, n ≤ bufSize :=
  exists_reach_of_replay
    [.powerOn bootStorage fastbootStart, .download (onlyHeader 0 0 4096) 4095, .boot id,
      .continue fastbootStart.attempt]
    (fun device => device.bufReads = [4096])
    (by decide +kernel) fun _ reach ended => ⟨ended, header_page_fits reach⟩

end HeaderPage

end AndroidBoot.Aboot.BootBounds
