/- source: bootable/lk/platform/msm_shared/crypto_eng.c, crypto_eng.h, crypto_hash.h
   digest: The crypto engine behind its registers: sending data and getting a digest. -/

import AndroidBoot.Foundation.Memory

/-!
The driver polls the status register. The values that it is going to read are a list; a driver
that has read them all is still polling, and its result is `none`.
-/

set_option autoImplicit false

namespace AndroidBoot.Platform.CryptoEngine

open Foundation.Memory

inductive AuthAlg where
  | sha1 | sha256
  deriving DecidableEq, Repr

inductive Op where
  | reset
  | init
  | setup (alg : AuthAlg) (first last : Bool) (iv : List Nat) (bytecnt : Nat × Nat) (size : Nat)
  | dataIn (word : Nat)
  deriving DecidableEq, Repr

structure Hardware where
  authIv : List Op → Nat → Nat
  authBytecnt : List Op → Nat × Nat

structure Engine where
  polls : List Nat
  written : List Op

def Engine.write (engine : Engine) (op : Op) : Engine :=
  { engine with written := engine.written ++ [op] }

/-- The fields that `crypto_SHA1_ctx` and `crypto_SHA256_ctx` have in common; they differ in the
number of words of `auth_iv`. -/
structure ShaCtx where
  authBytecnt : Nat × Nat
  savedBuff : Nat → UInt8
  savedBuffIndx : Nat
  authIv : List Nat

def shaBlockSize : Nat := 64

def swErr (status : Nat) : Bool := status &&& 1 ≠ 0

def dinReady (status : Nat) : Bool := status &&& 4 ≠ 0 && 4 ≤ status &&& 0x00380000

def cryptoSetShaCtx (ctx : ShaCtx) (bytesToWrite : Nat) (alg : AuthAlg) (first last : Bool)
    (engine : Engine) : Engine :=
  let resumed := ctx.savedBuffIndx ≠ 0 && (ctx.authBytecnt.1 ≠ 0 || ctx.authBytecnt.2 ≠ 0)
  engine.write (.setup alg (first || resumed) last ctx.authIv ctx.authBytecnt bytesToWrite)

structure Sending where
  bytesLeft : Nat
  i : Nat
  buffPtr : Nat
  notAligned : Bool
  savedBuffIndx : Nat

def isAligned (ptr : Nat) : Bool := ptr % 4 = 0

def Sending.word (ram savedBuff : Nat → UInt8) (s : Sending) : Nat :=
  if s.savedBuffIndx ≠ 0 then be32 savedBuff (4 * s.i)
  else if s.notAligned then be32 ram (s.buffPtr + s.i)
  else be32 ram (s.buffPtr + 4 * s.i)

/-- The variables after a word. The index counts bytes if the buffer is not aligned, and the loop
goes over to the buffer at the end of the saved bytes. -/
def Sending.advance (dataPtr bytesToWrite : Nat) (s : Sending) : Sending :=
  let i := if s.savedBuffIndx = 0 && s.notAligned then s.i + 4 else s.i + 1
  let bytesLeft := s.bytesLeft - 4
  if s.savedBuffIndx ≠ 0 ∧ bytesLeft = 0 ∧ shaBlockSize < bytesToWrite then
    let buffPtr := dataPtr + shaBlockSize - s.savedBuffIndx
    { bytesLeft := bytesToWrite - shaBlockSize
      i := 0
      buffPtr := buffPtr
      notAligned := s.notAligned || !isAligned buffPtr
      savedBuffIndx := 0 }
  else { s with i := i, bytesLeft := bytesLeft }

def sendLoop (ram savedBuff : Nat → UInt8) (dataPtr bytesToWrite : Nat) :
    List Nat → List Op → Sending → Option (Bool × Sending × Engine)
  | [], written, s => if s.bytesLeft < 4 then some (false, s, ⟨[], written⟩) else none
  | status :: polls, written, s =>
    if s.bytesLeft < 4 then some (false, s, ⟨status :: polls, written⟩)
    else if swErr status then some (true, s, ⟨polls, written⟩)
    else if dinReady status then
      sendLoop ram savedBuff dataPtr bytesToWrite polls
        (written ++ [.dataIn (s.word ram savedBuff)]) (s.advance dataPtr bytesToWrite)
    else sendLoop ram savedBuff dataPtr bytesToWrite polls written s

def lastWord (ram savedBuff : Nat → UInt8) (dataPtr buffSize bytesToWrite : Nat) (s : Sending) :
    Nat :=
  be32 (fun k =>
    if s.bytesLeft ≤ k then 0
    else if s.savedBuffIndx ≠ 0 then savedBuff (bytesToWrite - s.bytesLeft + k)
    else ram (dataPtr + buffSize - s.bytesLeft + k)) 0

/-- `crypto_send_data`; a result of `true` is `CRYPTO_ERR_FAIL`. A last word that the engine is
not ready for is not sent, and that is no failure. -/
def cryptoSendData (ram : Nat → UInt8) (ctx : ShaCtx) (dataPtr buffSize bytesToWrite : Nat)
    (engine : Engine) : Option (Bool × ShaCtx × Engine) :=
  let savedBuff :=
    if ctx.savedBuffIndx ≠ 0 then
      splice ctx.savedBuff ctx.savedBuffIndx
        (if buffSize + ctx.savedBuffIndx ≤ shaBlockSize then buffSize
          else shaBlockSize - ctx.savedBuffIndx) fun k => ram (dataPtr + k)
    else ctx.savedBuff
  let bytesLeft :=
    if ctx.savedBuffIndx ≠ 0 then min bytesToWrite shaBlockSize else bytesToWrite
  match sendLoop ram savedBuff dataPtr bytesToWrite engine.polls engine.written
    ⟨bytesLeft, 0, dataPtr, !isAligned dataPtr, ctx.savedBuffIndx⟩ with
  | none => none
  | some (failed, s, engine) =>
    let ctx := { ctx with savedBuff := savedBuff, savedBuffIndx := s.savedBuffIndx }
    if failed then some (true, ctx, engine.write .reset)
    else if s.bytesLeft = 0 then some (false, ctx, engine)
    else
      match engine.polls with
      | [] => none
      | status :: polls =>
        let engine := { engine with polls := polls }
        if swErr status then some (true, ctx, engine.write .reset)
        else if dinReady status then
          let word := lastWord ram savedBuff dataPtr buffSize bytesToWrite s
          some (false, ctx, engine.write (.dataIn word))
        else some (false, ctx, engine)

def digestWords : AuthAlg → Nat
  | .sha1 => 5
  | .sha256 => 8

def htonl (word : Nat) : Nat := be32 (fun k => (toLe32 word).getD k 0) 0

def pollDigest : List Nat → Option (Nat × List Nat)
  | [] => none
  | status :: polls => if status &&& 3 = 0 then pollDigest polls else some (status, polls)

def cryptoGetDigest (hardware : Hardware) (alg : AuthAlg) (last : Bool) (engine : Engine) :
    Option (Option (List Nat) × Engine) :=
  match pollDigest engine.polls with
  | none => none
  | some (status, polls) =>
    let engine := { engine with polls := polls }
    if swErr status then some (none, engine.write .reset)
    else
      let words := (List.range (digestWords alg)).map (hardware.authIv engine.written)
      some (some (if last then words.map htonl else words), engine)

def cryptoGetCtx (hardware : Hardware) (ctx : ShaCtx) (engine : Engine) : ShaCtx :=
  { ctx with authBytecnt := hardware.authBytecnt engine.written }

end AndroidBoot.Platform.CryptoEngine
