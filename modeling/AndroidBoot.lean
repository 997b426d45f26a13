import AndroidBoot.LittleKernel.MutexSafety
import AndroidBoot.LittleKernel.CriticalSection
import AndroidBoot.LittleKernel.DpcSafety
import AndroidBoot.Platform.ImageVerify
import AndroidBoot.Aboot.UnlockSafety
import AndroidBoot.Init.Requests
import AndroidBoot.Init.Supervision
import AndroidBoot.Init.CriticalExits
import AndroidBoot.Init.Published
import AndroidBoot.Init.Persistence
import AndroidBoot.Platform.NandRoundTrip
import AndroidBoot.Platform.NandBadBlocks
import AndroidBoot.Platform.NandReadBack
import AndroidBoot.Platform.ImageBounds
import AndroidBoot.Aboot.Dispatch
import AndroidBoot.Aboot.RecoveryMessage
import AndroidBoot.Platform.MbrReadBack
import AndroidBoot.Init.TokenEscapes
import AndroidBoot.Init.ActionLinks
import AndroidBoot.Aboot.KernelTags
import AndroidBoot.Aboot.UsbCompletions
import AndroidBoot.Zygote.Alignment
import AndroidBoot.Zygote.ChildProcess
import AndroidBoot.Zygote.BufferedRequests
import AndroidBoot.LittleKernel.FailedAcquire
import AndroidBoot.LittleKernel.ResumeContract
import AndroidBoot.Init.NetChange
import AndroidBoot.Init.ImportGraph
import AndroidBoot.LittleKernel.UnblockContract
import AndroidBoot.Aboot.DownloadSafety
import AndroidBoot.Aboot.RawFlash
import AndroidBoot.Aboot.SparseHonesty
import AndroidBoot.Aboot.SparseReads
import AndroidBoot.Aboot.SparseCursor
import AndroidBoot.LittleKernel.TimerArming
import AndroidBoot.LittleKernel.TimerDelay
import AndroidBoot.Init.Devices
import AndroidBoot.Init.FileCopy
import AndroidBoot.Init.ExpandProps
import AndroidBoot.Init.Uevents
import AndroidBoot.Linux.MemoryBanks
