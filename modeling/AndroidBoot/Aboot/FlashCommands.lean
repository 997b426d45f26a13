/- source: bootable/lk/app/aboot/aboot.c
   digest: The fastboot commands that write and erase partitions. -/

import AndroidBoot.Aboot.DeviceInfo
import AndroidBoot.Aboot.SparseFlash

/-!
Each command gives the calls it makes into `fastboot.c` and the storage after it. What
lies outside of the bootloader or is not modelled comes in as a result: the secure
monitor, and `write_partition` with the table that is read again after it.
-/

set_option autoImplicit false

namespace AndroidBoot.Aboot.FlashCommands

open Foundation.Memory Platform.Mmc Platform.Nand
open Fastboot (Text Call)
open DeviceInfo SparseFlash

def bootMagic : List UInt8 := ascii "ANDROID!"

def bootMagicSize : Nat := 8

def bootImageOnly (name : Text) : Bool := name = "boot".toList || name = "recovery".toList

/-- `cmd_flash_mmc_img`; `partitioned` is the result of `write_partition`. -/
def cmdFlashMmcImg (emmc : Emmc) (ram : Nat → UInt8) (arg : Text) (sz : Nat)
    (faults : List Fault) (partitioned : Bool × Emmc) : List Call × Emmc :=
  if arg = "partition".toList then
    if partitioned.1 then ([.fail (some "failed to write partition".toList)], partitioned.2)
    else ([.okay (some [])], partitioned.2)
  else
    let index := partitionGetIndex emmc.entries arg
    let ptn := partitionGetOffset emmc.entries index
    if ptn = 0 then ([.fail (some "partition table doesn't exist".toList)], emmc)
    else if bootImageOnly arg ∧ bytesAt ram 0 bootMagicSize ≠ bootMagic then
      ([.fail (some "image is not a boot image".toList)], emmc)
    else if partitionGetSize emmc.entries index < roundToPage sz 511 then
      ([.fail (some "size too large".toList)], emmc)
    else
      let written := mmcWrite (emmc.card faults) ptn sz ram
      let emmc := { emmc with content := written.2.content }
      if written.1 then ([.fail (some "flash write failure".toList)], emmc)
      else ([.okay (some [])], emmc)

def isSecure (ram : Nat → UInt8) : Bool :=
  (le32 ram 0 = 0x73737A74 && le32 ram 4 = 0x676D6964) ||
    (le32 ram 0 = 0x6B647373 && le32 ram 4 = 0x676D6973)

/-- `cmd_flash_mmc`; `secured` is the image that the secure monitor gives back for a
secure one, if it does. Where it does not, there is no reply. -/
def cmdFlashMmc (emmc : Emmc) (ram : Nat → UInt8) (arg : Text) (sz : Nat) (faults : List Fault)
    (partitioned : Bool × Emmc) (secured : Option ((Nat → UInt8) × Nat)) : List Call × Emmc :=
  match if isSecure ram then secured else some (ram, sz) with
  | none => ([], emmc)
  | some (ram, sz) =>
    if le32 ram 0 ≠ sparseHeaderMagic then cmdFlashMmcImg emmc ram arg sz faults partitioned
    else
      let flashed := cmdFlashMmcSparseImg emmc.entries (emmc.card faults) ram arg sz
      (flashed.1, { emmc with content := flashed.2.content })

def eraseSize : Nat := 4096 * 4

def cmdEraseMmc (emmc : Emmc) (arg : Text) (faults : List Fault) : List Call × Emmc :=
  let index := partitionGetIndex emmc.entries arg
  let ptn := partitionGetOffset emmc.entries index
  if ptn = 0 then ([.fail (some "Partition table doesn't exist\n".toList)], emmc)
  else
    let written := mmcWrite (emmc.card faults) ptn eraseSize fun _ => 0
    let emmc := { emmc with content := written.2.content }
    if written.1 then ([.fail (some "failed to erase partition".toList)], emmc)
    else ([.okay (some [])], emmc)

def hasSpare (name : Text) : Bool :=
  name = "system".toList || name = "userdata".toList || name = "persist".toList ||
    name = "recoveryfs".toList

def cmdFlash (flash : Flash) (pageSize : Nat) (ram : Nat → UInt8) (arg : Text) (sz : Nat)
    (bch : Bool) (fault : Fault) : List Call × Flash :=
  if flash.ptable.isNone then ([.fail (some "partition table doesn't exist".toList)], flash)
  else
    match flash.find arg with
    | none => ([.fail (some "unknown partition name".toList)], flash)
    | some ptn =>
      if bootImageOnly arg ∧ bytesAt ram 0 bootMagicSize ≠ bootMagic then
        ([.fail (some "image is not a boot image".toList)], flash)
      else
        let extra := if hasSpare arg then pageSize / 512 * (if bch then 20 else 16) else 0
        let sz := if hasSpare arg then sz else roundToPage sz (pageSize - 1)
        let written := flashWrite flash ptn extra ram sz fault
        if written.1 then ([.fail (some "flash write failure".toList)], written.2)
        else ([.okay (some [])], written.2)

def cmdErase (flash : Flash) (arg : Text) : List Call × Flash :=
  if flash.ptable.isNone then ([.fail (some "partition table doesn't exist".toList)], flash)
  else
    match flash.find arg with
    | none => ([.fail (some "unknown partition name".toList)], flash)
    | some ptn => ([.okay (some [])], flashErase flash ptn)

end AndroidBoot.Aboot.FlashCommands
