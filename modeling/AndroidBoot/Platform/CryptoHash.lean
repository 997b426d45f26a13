/- source: bootable/lk/platform/msm_shared/crypto_hash.c, crypto_hash.h
   digest: Hashing with the crypto engine or in software. -/

import AndroidBoot.Platform.CryptoEngine

set_option autoImplicit false

namespace AndroidBoot.Platform.CryptoHash

open Foundation.Memory CryptoEngine

inductive CryptoResult where
  | errNone | errBusy | errFail | errInvalidParam
  deriving DecidableEq, Repr

inductive EngineType where
  | none | sw | hw
  deriving DecidableEq, Repr

def maxAuthBlockSize : Nat := 0xFA00

def sha1InitVector : List Nat := [0x67452301, 0xEFCDAB89, 0x98BADCFE, 0x10325476, 0xC3D2E1F0]

def sha256InitVector : List Nat :=
  [0x6A09E667, 0xBB67AE85, 0x3C6EF372, 0xA54FF53A, 0x510E527F, 0x9B05688C, 0x1F83D9AB, 0x5BE0CD19]

def cryptoShaInit (alg : AuthAlg) : ShaCtx where
  authBytecnt := (0, 0)
  savedBuff := fun _ => 0
  savedBuffIndx := 0
  authIv :=
    match alg with
    | .sha1 => sha1InitVector
    | .sha256 => sha256InitVector

def calcNumBytesToSend (ctx : ShaCtx) (buffSize : Nat) (last : Bool) : Nat :=
  let bytes := (buffSize + ctx.savedBuffIndx) % 2 ^ 32
  if last then bytes else bytes / shaBlockSize * shaBlockSize

def shaRound (hardware : Hardware) (ram : Nat → UInt8) (alg : AuthAlg) (ctx : ShaCtx)
    (buffPtr buffSize bytes : Nat) (first last : Bool) (engine : Engine) :
    Option (Bool × ShaCtx × Engine) :=
  match cryptoSendData ram ctx buffPtr buffSize bytes
    (cryptoSetShaCtx ctx bytes alg first last engine) with
  | none => none
  | some (true, ctx, engine) => some (true, ctx, engine)
  | some (false, ctx, engine) =>
    match cryptoGetDigest hardware alg last engine with
    | none => none
    | some (none, engine) => some (true, ctx, engine)
    | some (some words, engine) =>
      let ctx := { ctx with authIv := words }
      let ctx := if last then ctx else cryptoGetCtx hardware ctx engine
      some (false, { ctx with savedBuffIndx := 0 }, engine)

/-- The loop of `do_sha_update`; `savedAtStart` is `tmp_saved_buff_indx`. -/
def shaLoop (hardware : Hardware) (ram : Nat → UInt8) (alg : AuthAlg) (buffPtr savedAtStart : Nat)
    (last : Bool) (bytesToWrite bytesWritten : Nat) (first : Bool) (ctx : ShaCtx)
    (engine : Engine) : Option (Bool × ShaCtx × Engine) :=
  let tmpBuffPtr := if ctx.savedBuffIndx ≠ 0 then buffPtr else buffPtr + bytesWritten - savedAtStart
  if maxAuthBlockSize < bytesToWrite - bytesWritten then
    match shaRound hardware ram alg ctx tmpBuffPtr (maxAuthBlockSize - ctx.savedBuffIndx)
      maxAuthBlockSize first false engine with
    | none => none
    | some (true, ctx, engine) => some (true, ctx, engine)
    | some (false, ctx, engine) =>
      shaLoop hardware ram alg buffPtr savedAtStart last bytesToWrite
        (bytesWritten + maxAuthBlockSize) false ctx engine
  else
    let bytes := bytesToWrite - bytesWritten
    let size := if ctx.savedBuffIndx ≠ 0 then bytes - ctx.savedBuffIndx else bytes - savedAtStart
    shaRound hardware ram alg ctx tmpBuffPtr size bytes first last engine
termination_by bytesToWrite - bytesWritten
decreasing_by
  have : 0 < maxAuthBlockSize := by decide
  omega

/-- `do_sha_update`. What is left over of the buffer is saved. -/
def doShaUpdate (hardware : Hardware) (ram : Nat → UInt8) (ctx : ShaCtx) (buffPtr buffSize : Nat)
    (alg : AuthAlg) (first last : Bool) (engine : Engine) :
    Option (CryptoResult × ShaCtx × Engine) :=
  let bytesToWrite := calcNumBytesToSend ctx buffSize last
  let bytesRemaining := (buffSize + ctx.savedBuffIndx) % 2 ^ 32 - bytesToWrite
  match shaLoop hardware ram alg buffPtr ctx.savedBuffIndx last bytesToWrite 0 first ctx engine with
  | none => none
  | some (true, ctx, engine) => some (.errFail, ctx, engine)
  | some (false, ctx, engine) =>
    let saved := splice ctx.savedBuff 0 bytesRemaining fun k =>
      ram (buffPtr + buffSize - bytesRemaining + k)
    some (.errNone, { ctx with savedBuff := saved, savedBuffIndx := bytesRemaining }, engine)

def doSha (hardware : Hardware) (ram : Nat → UInt8) (buffPtr buffSize : Nat) (alg : AuthAlg)
    (engine : Engine) : Option (Except CryptoResult (List UInt8)) :=
  match doShaUpdate hardware ram (cryptoShaInit alg) buffPtr buffSize alg true true engine with
  | none => none
  | some (.errNone, ctx, _) => some (.ok (ctx.authIv.flatMap toLe32))
  | some (error, _, _) => some (.error error)

def cryptoSha (hardware : Hardware) (ram : Nat → UInt8) (buffPtr buffSize : Nat) (alg : AuthAlg)
    (initDone : Bool) (engine : Engine) : Option (Except CryptoResult (List UInt8)) :=
  if buffSize = 0 then some (.error .errInvalidParam)
  else
    let engine := if initDone then engine else engine.write .reset
    doSha hardware ram buffPtr buffSize alg (engine.write .init)

structure OpenSsl where
  sha : AuthAlg → List UInt8 → List UInt8
  length_sha : ∀ alg message, (sha alg message).length = 4 * digestWords alg

structure Board where
  ceType : EngineType
  openSsl : OpenSsl
  hardware : Hardware
  initDone : Bool
  engine : Engine

/-- The branches of `hash_find`: the digest, or `ret_val` without one. Of an algorithm that it
does not know there is neither a digest nor an error. -/
def Board.digest (board : Board) (ram : Nat → UInt8) (addr size authAlg : Nat) :
    Option (Except CryptoResult (List UInt8)) :=
  let branch (alg : AuthAlg) :=
    match board.ceType with
    | .sw => some (.ok (board.openSsl.sha alg (window ram addr size)))
    | .hw => cryptoSha board.hardware ram addr size alg board.initDone board.engine
    | .none => some (.error .errFail)
  if authAlg = 1 then branch .sha1
  else if authAlg = 2 then branch .sha256
  else some (.error .errNone)

def hashFind (board : Board) (ram : Nat → UInt8) (addr size : Nat) (digest : Nat → UInt8)
    (authAlg : Nat) : Option (Nat → UInt8) :=
  (board.digest ram addr size authAlg).map fun
    | .ok bytes => splice digest 0 bytes.length fun i => bytes.getD i 0
    | .error _ => digest

end AndroidBoot.Platform.CryptoHash
