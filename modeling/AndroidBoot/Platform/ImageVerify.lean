/- source: bootable/lk/platform/msm_shared/image_verify.c, image_verify.h
   digest: The verification of a signed image, and when its verdict can be trusted. -/

import AndroidBoot.Platform.CryptoTransfer

set_option autoImplicit false

namespace AndroidBoot.Platform.ImageVerify

open Foundation.Memory CryptoEngine CryptoHash CryptoTransfer

def signatureSize : Nat := 256

def sha1Size : Nat := 16

def sha256Size : Nat := 32

structure Signer where
  x509 : Bool
  rsaKey : Bool
  /-- `RSA_public_decrypt`; `none` is `-1`. -/
  rsaPublicDecrypt : List UInt8 → Option (List UInt8)
  fits : ∀ signature payload, rsaPublicDecrypt signature = some payload →
    payload.length ≤ signatureSize

def imageDecryptSignature (signer : Signer) (signature : List UInt8) : Option (List UInt8) :=
  if signer.x509 && signer.rsaKey then signer.rsaPublicDecrypt signature else none

/-- What `image_verify` finds: the board, the certificate, whether `calloc` has memory, and what
the stack holds in place of `digest`. -/
structure Context where
  board : Board
  signer : Signer
  calloc : Bool
  stack : Nat → UInt8

def hashSize (hashType : Nat) : Nat := if hashType = 2 then sha256Size else sha1Size

def plainText (payload : List UInt8) : Nat → UInt8 := fun i => payload.getD i 0

/-- `image_verify`; `hash_find` takes the type of the hash as a byte. -/
def imageVerify (context : Context) (ram : Nat → UInt8)
    (imagePtr signaturePtr imageSize hashType : Nat) : Option Bool :=
  if !context.calloc then some false
  else
    match imageDecryptSignature context.signer (window ram signaturePtr signatureSize) with
    | none => some false
    | some payload =>
      (hashFind context.board ram imagePtr imageSize context.stack (hashType % 2 ^ 8)).map
        fun digest => window (plainText payload) 0 (hashSize hashType) =
          window digest 0 (hashSize hashType)

section Digest

/-- Whether `hash_find` computes a digest, by the algorithm, the type of the engine and the values
of its status register. -/
def hashes (board : Board) (addr size authAlg : Nat) : Option Bool :=
  if authAlg = 1 ∨ authAlg = 2 then
    match board.ceType with
    | .sw => some true
    | .hw =>
      if size = 0 then some false
      else (polled ((operations addr (size % 2 ^ 32) true).map Operation.size)
        board.engine.polls).map Option.isSome
    | .none => some false
  else some false

variable {board : Board} {ram : Nat → UInt8} {addr size authAlg : Nat}

def algOf (authAlg : Nat) : AuthAlg := if authAlg = 1 then .sha1 else .sha256

theorem digest_eq (known : authAlg = 1 ∨ authAlg = 2) :
    board.digest ram addr size authAlg =
      match board.ceType with
      | .sw => some (.ok (board.openSsl.sha (algOf authAlg) (window ram addr size)))
      | .hw => cryptoSha board.hardware ram addr size (algOf authAlg) board.initDone board.engine
      | .none => some (.error .errFail) := by
  rcases known with rfl | rfl <;> rfl

theorem cryptoSha_polled (hardware : Hardware) (alg : AuthAlg) (initDone : Bool) (engine : Engine)
    (some_ : size ≠ 0) :
    (cryptoSha hardware ram addr size alg initDone engine).map (fun result => result.isOk) =
      (polled ((operations addr (size % 2 ^ 32) true).map Operation.size) engine.polls).map
        Option.isSome ∧
    ∀ digest, cryptoSha hardware ram addr size alg initDone engine = some (.ok digest) →
      ∃ written, digest = (authWords hardware alg true written).flatMap toLe32 := by
  rw [cryptoSha, if_neg some_]
  dsimp only
  have polls : ((if initDone then engine else engine.write .reset).write .init).polls =
      engine.polls := by cases initDone <;> rfl
  generalize (if initDone then engine else engine.write .reset).write .init = ready at polls
  have walked := perform_polled hardware ram alg (cryptoShaInit alg)
    (operations addr (size % 2 ^ 32) true) ready rfl
  rw [doSha, doShaUpdate_eq, ← polls, ← walked]
  rcases ran : perform hardware ram alg (operations addr (size % 2 ^ 32) true) (cryptoShaInit alg)
    ready with _ | ⟨failed | failed, ctx, after⟩
  · exact ⟨rfl, nofun⟩
  · refine ⟨rfl, ?_⟩
    rintro digest ⟨⟩
    obtain ⟨written, words⟩ := perform_success ran
    exact ⟨written, congrArg (List.flatMap toLe32) words⟩
  · exact ⟨rfl, nofun⟩

theorem digest_hashes :
    (board.digest ram addr size authAlg).map (fun result => result.isOk) =
      hashes board addr size authAlg := by
  unfold hashes
  by_cases known : authAlg = 1 ∨ authAlg = 2
  · rw [digest_eq known, if_pos known]
    cases board.ceType with
    | none => rfl
    | sw => rfl
    | hw =>
      by_cases none_ : size = 0
      · simp only [cryptoSha, if_pos none_]
        rfl
      · simp only [if_neg none_]
        exact (cryptoSha_polled _ _ _ _ none_).1
  · have unknown : authAlg ≠ 1 ∧ authAlg ≠ 2 := not_or.mp known
    simp only [Board.digest, if_neg known, if_neg unknown.1, if_neg unknown.2]
    rfl

theorem digest_value {digest : List UInt8}
    (hashed : board.digest ram addr size authAlg = some (.ok digest)) :
    (authAlg = 1 ∨ authAlg = 2) ∧
      (digest = board.openSsl.sha (algOf authAlg) (window ram addr size) ∨
        ∃ written, digest =
          (authWords board.hardware (algOf authAlg) true written).flatMap toLe32) := by
  have known : authAlg = 1 ∨ authAlg = 2 := by
    by_contra unknown
    have ok : some true = hashes board addr size authAlg := by rw [← digest_hashes, hashed]; rfl
    rw [hashes, if_neg unknown] at ok
    cases ok
  refine ⟨known, ?_⟩
  rw [digest_eq known] at hashed
  split at hashed
  · cases hashed
    exact .inl rfl
  · right
    by_cases none_ : size = 0
    · rw [cryptoSha, if_pos none_] at hashed
      cases hashed
    · exact (cryptoSha_polled _ _ _ _ none_).2 digest hashed
  · cases hashed

theorem length_flatMap_toLe32 (words : List Nat) :
    (words.flatMap toLe32).length = 4 * words.length := by
  induction words with
  | nil => rfl
  | cons word rest ih =>
    rw [List.flatMap_cons, List.length_append, length_toLe32, ih, List.length_cons]
    omega

theorem digest_length {digest : List UInt8}
    (hashed : board.digest ram addr size authAlg = some (.ok digest)) :
    digest.length = 4 * digestWords (algOf authAlg) := by
  rcases (digest_value hashed).2 with rfl | ⟨written, rfl⟩
  · exact board.openSsl.length_sha _ _
  · rw [length_flatMap_toLe32]
    simp [authWords]

def sslOf (bytes : Nat → UInt8) : OpenSsl where
  sha alg _ := window bytes 0 (4 * digestWords alg)
  length_sha alg _ := by simp [window]

def hardwareOf (bytes : Nat → UInt8) : Hardware where
  authIv _ k := be32 bytes (4 * k)
  authBytecnt _ := (0, 0)

theorem toLe32_be32 (memory : Nat → UInt8) (i : Nat) :
    toLe32 (be32 memory i) = [memory (i + 3), memory (i + 2), memory (i + 1), memory i] := by
  have first := (memory i).toNat_lt
  have second := (memory (i + 1)).toNat_lt
  have third := (memory (i + 2)).toNat_lt
  have fourth := (memory (i + 3)).toNat_lt
  simp only [toLe32, toLe16, be32, List.cons_append, List.nil_append, List.cons.injEq,
    ← UInt8.toNat_inj, UInt8.toNat_ofNat', and_true]
  omega

theorem toLe32_htonl (memory : Nat → UInt8) (i : Nat) :
    toLe32 (htonl (be32 memory i)) =
      [memory i, memory (i + 1), memory (i + 2), memory (i + 3)] := by
  rw [htonl, toLe32_be32, toLe32_be32]
  rfl

theorem flatMap_words (bytes : Nat → UInt8) (n : Nat) :
    (((List.range n).map fun k => be32 bytes (4 * k)).map htonl).flatMap toLe32 =
      window bytes 0 (4 * n) := by
  induction n with
  | zero => rfl
  | succ n ih =>
    rw [List.range_succ, List.map_append, List.map_append, List.flatMap_append, ih]
    simp [window, toLe32_htonl, Nat.mul_succ, List.range_succ]

theorem digest_given {bytes : Nat → UInt8} {digest : List UInt8}
    (ssl : board.openSsl = sslOf bytes) (hardware : board.hardware = hardwareOf bytes)
    (hashed : board.digest ram addr size authAlg = some (.ok digest)) :
    digest = window bytes 0 (4 * digestWords (algOf authAlg)) := by
  rcases (digest_value hashed).2 with rfl | ⟨written, rfl⟩
  · rw [ssl]
    rfl
  · rw [hardware]
    exact flatMap_words bytes _

end Digest

section Verdict

variable (context : Context) (ram : Nat → UInt8) (imagePtr signaturePtr imageSize hashType : Nat)

def Hashed (digest : List UInt8) : Prop :=
  context.board.digest ram imagePtr imageSize (hashType % 2 ^ 8) = some (.ok digest)

def Decrypted (payload : List UInt8) : Prop :=
  imageDecryptSignature context.signer (window ram signaturePtr signatureSize) = some payload

def Authentic : Prop :=
  ∃ digest payload, Hashed context ram imagePtr imageSize hashType digest ∧
    Decrypted context ram signaturePtr payload ∧ payload.length = digest.length ∧
    ∀ i < digest.length, payload.getD i 0 = digest.getD i 0

variable {context ram imagePtr signaturePtr imageSize hashType}

theorem accepted_iff :
    imageVerify context ram imagePtr signaturePtr imageSize hashType = some true ↔
      context.calloc = true ∧ ∃ payload, Decrypted context ram signaturePtr payload ∧ ∃ digest,
        hashFind context.board ram imagePtr imageSize context.stack (hashType % 2 ^ 8) =
            some digest ∧
          window (plainText payload) 0 (hashSize hashType) =
            window digest 0 (hashSize hashType) := by
  unfold imageVerify Decrypted
  cases context.calloc with
  | false => simp
  | true =>
    cases imageDecryptSignature context.signer (window ram signaturePtr signatureSize) <;> simp

theorem accepted_compared {digest payload : List UInt8}
    (accepted : imageVerify context ram imagePtr signaturePtr imageSize hashType = some true)
    (hashed : Hashed context ram imagePtr imageSize hashType digest)
    (decrypted : Decrypted context ram signaturePtr payload) :
    ∀ i < hashSize hashType, i < digest.length → payload.getD i 0 = digest.getD i 0 := by
  intro i compared inside
  obtain ⟨-, _, decrypted', _, found, same⟩ := accepted_iff.mp accepted
  obtain rfl := Option.some.inj (decrypted'.symm.trans decrypted)
  rw [hashFind, hashed] at found
  obtain rfl := Option.some.inj found
  have here := congrArg (fun list => list[i]?) same
  simp only [window, List.getElem?_map, List.getElem?_range compared, Option.map_some,
    Option.some.injEq, Nat.zero_add] at here
  rwa [plainText, splice, if_pos ⟨Nat.zero_le i, by omega⟩, Nat.sub_zero] at here

/-- The same with other digests, and with other bytes in place of `digest`. -/
def Context.replaced (context : Context) (openSsl : OpenSsl) (hardware : Hardware)
    (stack : Nat → UInt8) : Context :=
  { context with
    board := { context.board with openSsl := openSsl, hardware := hardware }
    stack := stack }

variable (context ram imagePtr signaturePtr imageSize hashType)

/-- If the signature is decrypted and the hash engine is not left polling, a digest is computed,
it is one of SHA-256, and the payload has its size. -/
def Trusted : Prop :=
  context.calloc = true → ∀ payload, Decrypted context ram signaturePtr payload →
    ∀ computed, hashes context.board imagePtr imageSize (hashType % 2 ^ 8) = some computed →
      computed = true ∧ hashType = 2 ∧ payload.length = sha256Size

theorem hashSize_cases {hashType : Nat} (known : hashType % 2 ^ 8 = 1 ∨ hashType % 2 ^ 8 = 2) :
    hashType = 2 ∧ 4 * digestWords (algOf (hashType % 2 ^ 8)) = sha256Size ∧
        hashSize hashType = sha256Size ∨
      hashSize hashType < 4 * digestWords (algOf (hashType % 2 ^ 8)) := by
  by_cases two : hashType = 2
  · subst two
    exact .inl ⟨rfl, rfl, rfl⟩
  · right
    rw [hashSize, if_neg two]
    rcases known with one | two <;> rw [‹hashType % 2 ^ 8 = _›] <;> decide

end Verdict

def board (ceType : EngineType) : Board where
  ceType := ceType
  openSsl := ⟨fun alg _ => List.replicate (4 * digestWords alg) 7, fun _ _ => List.length_replicate⟩
  hardware := ⟨fun _ _ => 0, fun _ => (0, 0)⟩
  initDone := false
  engine := ⟨[1], []⟩

def signer (byte : UInt8) : Signer where
  x509 := true
  rsaKey := true
  rsaPublicDecrypt := fun _ => some (List.replicate 32 byte)
  fits := by
    rintro signature payload ⟨⟩
    rw [List.length_replicate]
    decide

end AndroidBoot.Platform.ImageVerify
