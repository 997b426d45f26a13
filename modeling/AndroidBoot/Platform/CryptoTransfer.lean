/- source: bootable/lk/platform/msm_shared/crypto_hash.c, crypto_eng.c
   digest: The engine gets the whole buffer, in operations of a bounded size. -/

import AndroidBoot.Platform.CryptoHash

set_option autoImplicit false

namespace AndroidBoot.Platform.CryptoTransfer

open Foundation.Memory (splice_zero)
open CryptoEngine CryptoHash

section Rounds

variable {hardware : Hardware} {ram : Nat → UInt8} {alg : AuthAlg}

/-- The words of a digest as `crypto_get_digest` copies them. -/
def authWords (hardware : Hardware) (alg : AuthAlg) (last : Bool) (written : List Op) : List Nat :=
  let words := (List.range (digestWords alg)).map (hardware.authIv written)
  if last then words.map htonl else words

theorem shaRound_success {ctx next : ShaCtx} {buffPtr buffSize bytes : Nat} {first last : Bool}
    {engine after : Engine}
    (ran : shaRound hardware ram alg ctx buffPtr buffSize bytes first last engine =
      some (false, next, after)) :
    (∃ written, next.authIv = authWords hardware alg last written) ∧ next.savedBuffIndx = 0 := by
  unfold shaRound at ran
  split at ran
  · cases ran
  · cases ran
  · rename_i sentCtx sent _
    split at ran
    · cases ran
    · cases ran
    · rename_i words _ got
      cases ran
      refine ⟨⟨sent.written, ?_⟩, rfl⟩
      unfold cryptoGetDigest at got
      split at got
      · cases got
      · split at got
        · cases got
        · cases got
          cases last <;> rfl

end Rounds

section Operations

structure Operation where
  ptr : Nat
  size : Nat
  first : Bool
  last : Bool

def operations (ptr size : Nat) (first : Bool) : List Operation :=
  if maxAuthBlockSize < size then
    ⟨ptr, maxAuthBlockSize, first, false⟩ ::
      operations (ptr + maxAuthBlockSize) (size - maxAuthBlockSize) false
  else [⟨ptr, size, first, true⟩]
termination_by size
decreasing_by exact Nat.sub_lt (by omega) (by decide)

structure Splits (ops : List Operation) (ptr size : Nat) (first : Bool) : Prop where
  whole : ops.flatMap (fun op => List.range' op.ptr op.size) = List.range' ptr size
  begins : ∃ op rest, ops = op :: rest ∧ op.first = first ∧ ∀ other ∈ rest, other.first = false
  ends : ∃ rest op, ops = rest ++ [op] ∧ op.last = true ∧
    ∀ other ∈ rest, other.last = false ∧ other.size = maxAuthBlockSize

theorem operations_splits (ptr size : Nat) (first : Bool) :
    Splits (operations ptr size first) ptr size first := by
  fun_induction operations ptr size first with
  | case1 ptr size first more ih =>
    obtain ⟨whole, ⟨op, rest, same, unset, others⟩, before, last, same', set, full⟩ := ih
    refine ⟨?_, ⟨_, _, rfl, rfl, ?_⟩, _ :: before, last, congrArg _ same', set, ?_⟩
    · rw [List.flatMap_cons, whole, List.range'_append_1, Nat.add_sub_cancel' (Nat.le_of_lt more)]
    · rw [same]
      exact List.forall_mem_cons.mpr ⟨unset, others⟩
    · exact List.forall_mem_cons.mpr ⟨⟨rfl, rfl⟩, full⟩
  | case2 => exact ⟨List.append_nil _, ⟨_, [], rfl, rfl, List.forall_mem_nil _⟩, [], _, rfl, rfl,
      List.forall_mem_nil _⟩

variable (hardware : Hardware) (ram : Nat → UInt8) (alg : AuthAlg)

def perform : List Operation → ShaCtx → Engine → Option (Bool × ShaCtx × Engine)
  | [], ctx, engine => some (false, ctx, engine)
  | op :: ops, ctx, engine =>
    match shaRound hardware ram alg ctx op.ptr op.size op.size op.first op.last engine with
    | some (false, ctx, engine) => perform ops ctx engine
    | stopped => stopped

variable {hardware ram alg} {ptr size : Nat} {first : Bool} {ctx : ShaCtx}
  {engine : Engine}

theorem shaLoop_operations {written : Nat} (unsaved : ctx.savedBuffIndx = 0) :
    shaLoop hardware ram alg ptr 0 true size written first ctx engine =
      perform hardware ram alg (operations (ptr + written) (size - written) first) ctx engine := by
  induction left : size - written using Nat.strongRecOn generalizing written first ctx engine with
  | ind rest ih =>
    rw [shaLoop, operations]
    simp only [unsaved, ne_eq, not_true_eq_false, if_false, Nat.sub_zero, left]
    split_ifs with more
    · rw [perform]
      split
      case h_1 none => rw [none]
      case h_2 failed => rw [failed]
      case h_3 round =>
        rw [round, Nat.add_assoc]
        exact ih _ (Nat.sub_lt (by omega) (by decide)) (shaRound_success round).2 (by omega)
    · rw [perform]
      split
      case h_1 round => exact round
      case h_2 => rfl

theorem doShaUpdate_eq (ptr size : Nat) (engine : Engine) :
    doShaUpdate hardware ram (cryptoShaInit alg) ptr size alg true true engine =
      (perform hardware ram alg (operations ptr (size % 2 ^ 32) true) (cryptoShaInit alg)
        engine).map (fun result => if result.1 then (.errFail, result.2)
          else (.errNone, { result.2.1 with savedBuffIndx := 0 }, result.2.2)) := by
  have unsaved : (cryptoShaInit alg).savedBuffIndx = 0 := rfl
  simp only [doShaUpdate, calcNumBytesToSend, if_true, unsaved, Nat.add_zero, Nat.sub_self,
    splice_zero, shaLoop_operations unsaved, Nat.sub_zero]
  rcases perform hardware ram alg (operations ptr (size % 2 ^ 32) true) (cryptoShaInit alg) engine
    with _ | ⟨_ | _, ctx, after⟩ <;> rfl

theorem perform_success {next : ShaCtx} {after : Engine} (ran : perform hardware ram alg
      (operations ptr size first) ctx engine = some (false, next, after)) :
    ∃ written, next.authIv = authWords hardware alg true written := by
  fun_induction operations ptr size first generalizing ctx engine with
  | case1 ptr size first more ih =>
    rw [perform] at ran
    split at ran
    · exact ih ran
    · rename_i stopped
      exact absurd ran (stopped _ _)
  | case2 ptr size first few =>
    rw [perform] at ran
    split at ran
    · rename_i round
      cases ran
      exact (shaRound_success round).1
    · rename_i stopped
      exact absurd ran (stopped _ _)

end Operations

section Status

/-- What a driver that polls these status values finds: nothing while it goes on, an error, or the
values that are left. -/
abbrev Polled := Option (Option (List Nat))

def Polled.andThen (first : Polled) (next : List Nat → Polled) : Polled :=
  match first with
  | some (some polls) => next polls
  | stopped => stopped

def wordsTaken : Nat → List Nat → Polled
  | 0, polls => some (some polls)
  | _ + 1, [] => none
  | n + 1, status :: polls =>
    if swErr status then some none
    else if dinReady status then wordsTaken n polls else wordsTaken (n + 1) polls

def restTaken (bytes : Nat) (polls : List Nat) : Polled :=
  if bytes % 4 = 0 then some (some polls)
  else polls.head?.map fun status => if swErr status then none else some polls.tail

def digestReady (polls : List Nat) : Polled :=
  (pollDigest polls).map fun found => if swErr found.1 then none else some found.2

/-- The status values over operations of these sizes. -/
def polled : List Nat → List Nat → Polled
  | [], polls => some (some polls)
  | bytes :: rest, polls =>
    (((wordsTaken (bytes / 4) polls).andThen (restTaken bytes)).andThen digestReady).andThen
      (polled rest)

def left {β : Type} (result : Option (Bool × β × Engine)) : Polled :=
  result.map fun result => if result.1 then none else some result.2.2.polls

variable (hardware : Hardware) (ram : Nat → UInt8) (alg : AuthAlg) {ctx : ShaCtx}

theorem sendLoop_polled (savedBuff : Nat → UInt8) (dataPtr bytesToWrite : Nat) (polls : List Nat) (written : List Op)
    (s : Sending) (unsaved : s.savedBuffIndx = 0) :
    left (sendLoop ram savedBuff dataPtr bytesToWrite polls written s) =
        wordsTaken (s.bytesLeft / 4) polls ∧
      ∀ s' after, sendLoop ram savedBuff dataPtr bytesToWrite polls written s =
        some (false, s', after) → s'.bytesLeft = s.bytesLeft % 4 := by
  induction polls generalizing written s with
  | nil =>
    rw [sendLoop]
    split_ifs with few
    · rw [Nat.div_eq_of_lt few, Nat.mod_eq_of_lt few]
      exact ⟨rfl, by rintro s' after ⟨⟩; rfl⟩
    · obtain ⟨n, more⟩ : ∃ n, s.bytesLeft / 4 = n + 1 := ⟨s.bytesLeft / 4 - 1, by omega⟩
      rw [more]
      exact ⟨rfl, nofun⟩
  | cons status polls ih =>
    rw [sendLoop]
    by_cases few : s.bytesLeft < 4
    · rw [if_pos few, Nat.div_eq_of_lt few, Nat.mod_eq_of_lt few]
      exact ⟨rfl, by rintro s' after ⟨⟩; rfl⟩
    · obtain ⟨n, more⟩ : ∃ n, s.bytesLeft / 4 = n + 1 := ⟨s.bytesLeft / 4 - 1, by omega⟩
      rw [if_neg few, more, wordsTaken]
      split_ifs with error ready
      · exact ⟨rfl, nofun⟩
      · have advanced : (s.advance dataPtr bytesToWrite).bytesLeft = s.bytesLeft - 4 ∧
            (s.advance dataPtr bytesToWrite).savedBuffIndx = 0 := by
          simp [Sending.advance, unsaved]
        have later := ih (written ++ [.dataIn (s.word ram savedBuff)]) _ advanced.2
        rw [advanced.1, show (s.bytesLeft - 4) / 4 = n by omega,
          show (s.bytesLeft - 4) % 4 = s.bytesLeft % 4 by omega] at later
        exact later
      · have later := ih written s unsaved
        rw [more] at later
        exact later

theorem cryptoSendData_polled (ptr size bytes : Nat) (engine : Engine)
    (unsaved : ctx.savedBuffIndx = 0) :
    left (cryptoSendData ram ctx ptr size bytes engine) =
      (wordsTaken (bytes / 4) engine.polls).andThen (restTaken bytes) := by
  unfold cryptoSendData
  simp only [unsaved, ne_eq, not_true_eq_false, if_false]
  obtain ⟨taken, rest⟩ := sendLoop_polled ram ctx.savedBuff ptr bytes engine.polls
    engine.written ⟨bytes, 0, ptr, !isAligned ptr, 0⟩ rfl
  generalize sendLoop ram ctx.savedBuff ptr bytes engine.polls engine.written
    ⟨bytes, 0, ptr, !isAligned ptr, 0⟩ = result at taken rest
  rw [← taken]
  rcases result with _ | ⟨failed | failed, s, after⟩
  · rfl
  · have remaining := rest s after rfl
    dsimp only at remaining
    simp only [left, Option.map_some, Bool.false_eq_true, if_false, Polled.andThen, restTaken,
      remaining]
    split_ifs with none_
    · rfl
    · rcases after.polls with _ | ⟨status, polls⟩
      · rfl
      · dsimp only
        split_ifs <;> simp_all [Engine.write]
  · rfl

theorem shaRound_polled (ptr size bytes : Nat) (first last : Bool) (engine : Engine)
    (unsaved : ctx.savedBuffIndx = 0) :
    left (shaRound hardware ram alg ctx ptr size bytes first last engine) =
      ((wordsTaken (bytes / 4) engine.polls).andThen (restTaken bytes)).andThen digestReady := by
  have sent := cryptoSendData_polled ram ptr size bytes
    (cryptoSetShaCtx ctx bytes alg first last engine) unsaved
  have polls : (cryptoSetShaCtx ctx bytes alg first last engine).polls = engine.polls := rfl
  rw [polls] at sent
  unfold shaRound
  generalize cryptoSendData ram ctx ptr size bytes (cryptoSetShaCtx ctx bytes alg first last engine)
    = result at sent
  rw [← sent]
  rcases result with _ | ⟨failed | failed, ctx', after⟩
  · rfl
  · simp only [left, Option.map_some, Bool.false_eq_true, if_false, Polled.andThen, digestReady,
      cryptoGetDigest]
    rcases pollDigest after.polls with _ | ⟨status, polls⟩
    · rfl
    · by_cases error : swErr status = true <;> simp [error, Engine.write]
  · rfl

theorem perform_polled (ctx : ShaCtx) (ops : List Operation) (engine : Engine)
    (unsaved : ctx.savedBuffIndx = 0) :
    left (perform hardware ram alg ops ctx engine) =
      polled (ops.map Operation.size) engine.polls := by
  induction ops generalizing ctx engine with
  | nil => rfl
  | cons op ops ih =>
    have round := shaRound_polled hardware ram alg op.ptr op.size op.size op.first op.last engine
      unsaved
    rw [perform, List.map_cons, polled, ← round]
    rcases ran : shaRound hardware ram alg ctx op.ptr op.size op.size op.first op.last engine with
      _ | ⟨failed | failed, next, after⟩
    · rfl
    · exact ih _ after (shaRound_success ran).2
    · rfl

end Status

end AndroidBoot.Platform.CryptoTransfer
