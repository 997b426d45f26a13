/- source: bootable/lk/app/aboot/fastboot.c
   digest: What size and bytes handlers see, and which sizes a download can ask for. -/

import AndroidBoot.Aboot.Download

set_option autoImplicit false

namespace AndroidBoot.Aboot.DownloadSafety

open Fastboot (Session Text Code Call Command Handler hexDigit hexLoop hexChar hex2unsigned hex8
  xferLength argument lookup)
open Download Foundation.Memory

variable {d d' : Device} {received : List UInt8}

section LastDownload

structure Latest where
  asked : Option (BitVec 32)
  received : List UInt8
  completed : Bool
  handled : Bool
  deriving DecidableEq

def Latest.after (l : Latest) : Occurrence → Latest
  | .called _ _ => { l with handled := true }
  | .download => ⟨none, [], false, false⟩
  | .read len => { l with asked := some len }
  | .data bytes => { l with received := l.received ++ bytes }
  | .completed => { l with completed := true }

def latest (history : List Occurrence) : Latest := history.foldl Latest.after ⟨none, [], false, false⟩

def Sees (max : BitVec 32) (l : Latest) (size : BitVec 32) (memory : Nat → UInt8) : Prop :=
  (l.completed = false → size = 0) ∧
    (l.completed = true → size.toNat = l.received.length ∧ size ≤ max ∧
      (l.handled = false → Agrees memory 0 l.received))

def CallsSee (max : BitVec 32) (history : List Occurrence) : Prop :=
  ∀ before size memory after, history = before ++ .called size memory :: after →
    Sees max (latest before) size memory

variable {max : BitVec 32}

theorem latest_snoc (history : List Occurrence) (o : Occurrence) :
    latest (history ++ [o]) = (latest history).after o := by
  simp [latest]

theorem CallsSee.snoc {history : List Occurrence} {o : Occurrence}
    (calls : CallsSee max history)
    (here : ∀ size memory, o = .called size memory → Sees max (latest history) size memory) :
    CallsSee max (history ++ [o]) := by
  intro before size memory after split
  rcases List.eq_nil_or_concat after with rfl | ⟨front, last, rfl⟩
  · obtain ⟨rfl, same⟩ := List.append_inj' split rfl
    exact here size memory (List.cons.inj same).1
  · have longer : history ++ [o] = (before ++ .called size memory :: front) ++ [last] := by
      rw [split]
      simp
    obtain ⟨rfl, -⟩ := List.append_inj' longer rfl
    exact calls before size memory front rfl

/-- What the next handler would see is right, and all calls so far were. -/
structure Kept (max : BitVec 32) (d : Device) : Prop where
  limit : d.session.downloadMax = max
  sees : Sees max (latest d.history) d.session.downloadSize d.memory
  calls : CallsSee max d.history

/-- The parts of the device that the invariant reads are as before. -/
structure Same (d d' : Device) : Prop where
  max : d'.session.downloadMax = d.session.downloadMax
  size : d'.session.downloadSize = d.session.downloadSize
  memory : d'.memory = d.memory
  history : d'.history = d.history

theorem Same.refl (d : Device) : Same d d := ⟨rfl, rfl, rfl, rfl⟩

theorem Same.trans {a b c : Device} (first : Same a b) (second : Same b c) : Same a c :=
  ⟨second.max.trans first.max, second.size.trans first.size, second.memory.trans first.memory,
    second.history.trans first.history⟩

theorem Kept.of_same (kept : Kept max d) (same : Same d d') : Kept max d' := by
  refine ⟨same.max.trans kept.limit, ?_, ?_⟩
  · rw [same.size, same.memory, same.history]
    exact kept.sees
  · rw [same.history]
    exact kept.calls

theorem same_usbWrite (d : Device) (code : Code) (reason : Text) :
    Same d (usbWrite d code reason).1 := by
  have sent : Same d { d with session := Fastboot.usbWrite d.session code reason } := by
    unfold Fastboot.usbWrite
    split
    · exact Same.refl d
    · exact ⟨rfl, rfl, rfl, rfl⟩
  unfold usbWrite
  split
  · exact Same.refl d
  · split
    · exact ⟨rfl, rfl, rfl, rfl⟩
    · exact ⟨sent.max, sent.size, rfl, rfl⟩

theorem same_ack (d : Device) (code : Code) (reason : Option Text) :
    Same d (fastbootAck d code reason) := by
  unfold fastbootAck
  split
  · exact Same.refl d
  · have set : Same d (d.setState .complete) := ⟨rfl, rfl, rfl, rfl⟩
    exact set.trans (same_usbWrite _ _ _)

theorem same_info (d : Device) (reason : Option Text) : Same d (fastbootInfo d reason) := by
  unfold fastbootInfo
  split
  · exact Same.refl d
  · cases reason with
    | none => exact Same.refl d
    | some reason => exact same_usbWrite d .info _

theorem same_getvar (d : Device) (arg : Text) : Same d (cmdGetvar d arg) := by
  unfold cmdGetvar
  split
  · exact same_ack d .okay _
  · exact same_ack d .okay _

theorem same_perform (d : Device) (call : Call) : Same d (perform d call) := by
  cases call with
  | info reason => exact same_info d reason
  | okay info => exact same_ack d .okay info
  | fail reason => exact same_ack d .fail reason
  | register | publish => exact ⟨rfl, rfl, rfl, rfl⟩

theorem same_performAll (d : Device) (calls : List Call) : Same d (calls.foldl perform d) := by
  induction calls generalizing d with
  | nil => exact Same.refl d
  | cons call rest ih => exact (same_perform d call).trans (ih _)

/-- The history goes on, without a call of a handler. -/
structure Unheard (d d' : Device) : Prop where
  max : d'.session.downloadMax = d.session.downloadMax
  history : ∃ news, d'.history = d.history ++ news ∧
    ∀ o ∈ news, ∀ size memory, o ≠ .called size memory

theorem Same.unheard (same : Same d d') : Unheard d d' :=
  ⟨same.max, [], by rw [same.history, List.append_nil], fun _ never => by cases never⟩

theorem Unheard.trans {a b c : Device} (first : Unheard a b) (second : Unheard b c) :
    Unheard a c := by
  obtain ⟨front, split, quiet⟩ := first.history
  obtain ⟨back, split', quiet'⟩ := second.history
  refine ⟨second.max.trans first.max, front ++ back, ?_, ?_⟩
  · rw [split', split, List.append_assoc]
  · exact List.forall_mem_append.mpr ⟨quiet, quiet'⟩

theorem unheard_of_record {o : Occurrence} (other : ∀ size memory, o ≠ .called size memory)
    (same : d'.session.downloadMax = d.session.downloadMax)
    (grown : d'.history = d.history ++ [o]) : Unheard d d' := by
  refine ⟨same, [o], grown, ?_⟩
  intro o' member
  rw [List.mem_singleton.mp member]
  exact other

theorem CallsSee.append {history news : List Occurrence} (calls : CallsSee max history)
    (quiet : ∀ o ∈ news, ∀ size memory, o ≠ .called size memory) :
    CallsSee max (history ++ news) := by
  induction news generalizing history with
  | nil => rwa [List.append_nil]
  | cons o rest ih =>
    rw [List.append_cons]
    refine ih (calls.snoc ?_) (List.forall_mem_cons.mp quiet).2
    intro size memory same
    exact absurd same (quiet o List.mem_cons_self size memory)

/-- A download is under way: the length it asked for, if it did, and the bytes that arrived. -/
structure Receiving (d : Device) (asked : Option (BitVec 32)) (received : List UInt8) : Prop where
  latest : latest d.history = ⟨asked, received, false, false⟩
  bytes : Agrees d.memory 0 received
  size : d.session.downloadSize = 0

/-- How `cmd_download` of `len` bytes leaves the device. -/
structure Ended (max len : BitVec 32) (d : Device) : Prop where
  sees : Sees max (latest d.history) d.session.downloadSize d.memory
  asked : ∀ n, (latest d.history).asked = some n → n = len
  whole : (latest d.history).completed = true → (latest d.history).received.length = len.toNat

variable {len : BitVec 32}

theorem Ended.of_same (ended : Ended max len d) (same : Same d d') : Ended max len d' := by
  obtain ⟨-, size, memory, history⟩ := same
  refine ⟨?_, history ▸ ended.asked, history ▸ ended.whole⟩
  rw [size, memory, history]
  exact ended.sees

variable {asked : Option (BitVec 32)}

theorem Receiving.of_same (under : Receiving d asked received)
    (same : Same d d') : Receiving d' asked received :=
  ⟨same.history ▸ under.latest, same.memory ▸ under.bytes, same.size.trans under.size⟩

theorem ended_of_unfinished (unfinished : (latest d.history).completed = false)
    (asked : ∀ n, (latest d.history).asked = some n → n = len) (size : d.session.downloadSize = 0) :
    Ended max len d := by
  have never : (latest d.history).completed ≠ true := by simp [unfinished]
  exact ⟨⟨fun _ => size, fun completed => absurd completed never⟩, asked,
    fun completed => absurd completed never⟩

theorem Receiving.ended
    (under : Receiving d asked received) (right : ∀ n, asked = some n → n = len) :
    Ended max len d := by
  refine ended_of_unfinished ?_ ?_ under.size
  · rw [under.latest]
  · rw [under.latest]
    exact right

theorem Receiving.arrive (under : Receiving d asked received)
    (bytes : List UInt8) :
    Receiving ((d.store received.length bytes).record (.data bytes)) asked (received ++ bytes) := by
  refine ⟨?_, ?_, under.size⟩
  · exact (latest_snoc d.history _).trans (by rw [under.latest]; rfl)
  · refine agrees_append.mpr ⟨?_, ?_⟩
    · have front := under.bytes.overlay_behind (bytes.map some)
      rwa [Nat.zero_add] at front
    · rw [Nat.zero_add]
      exact agrees_overlay d.memory received.length bytes

theorem Receiving.readLoop {asked : BitVec 32} (under : Receiving d (some asked) received)
    (len : Nat) (transfers : List Transfer) :
    ∃ d' result, usbReadLoop d received.length len received.length transfers = (d', result) ∧
      Ended max asked d' ∧ Unheard d d' ∧ ∀ n, result = some n →
        ∃ all, Receiving d' (some asked) all ∧ all.length = n ∧ n ≤ received.length + len := by
  have right : ∀ n, some asked = some n → n = asked := fun n same => (Option.some.inj same).symm
  have here : Unheard d d := (Same.refl d).unheard
  induction transfers generalizing d received len with
  | nil =>
    rw [usbReadLoop]
    split
    case isTrue done =>
      refine ⟨d, _, rfl, under.ended right, here, fun n counted => ?_⟩
      exact ⟨received, under, Option.some.inj counted, by rw [← Option.some.inj counted]; omega⟩
    case isFalse owing =>
      exact ⟨d, _, rfl, under.ended right, here, fun n counted => by cases counted⟩
  | cons transfer rest ih =>
    by_cases done : len = 0
    · rw [done, usbReadLoop_zero]
      refine ⟨d, _, rfl, under.ended right, here, fun n counted => ?_⟩
      exact ⟨received, under, Option.some.inj counted, (Option.some.inj counted).ge⟩
    · cases transfer with
      | refused =>
        rw [usbReadLoop, if_neg done]
        exact ⟨d, _, rfl, under.ended right, here, fun n counted => by cases counted⟩
      | failed bytes =>
        rw [usbReadLoop, if_neg done]
        refine ⟨_, _, rfl, ?_, ⟨here.max, here.history⟩, fun n counted => by cases counted⟩
        refine ended_of_unfinished (congrArg Latest.completed under.latest) ?_ under.size
        have same : (DownloadSafety.latest d.history).asked = some asked := by rw [under.latest]
        exact fun n here => right n (same.symm.trans here)
      | done bytes =>
        rw [usbReadLoop, if_neg done]
        have arrived := under.arrive (bytes.take (xferLength len))
        have least : (bytes.take (xferLength len)).length ≤ len := by
          rw [List.length_take, xferLength]
          split <;> omega
        have stored : Unheard d ((d.store received.length (bytes.take (xferLength len))).record
            (.data (bytes.take (xferLength len)))) :=
          unheard_of_record (fun _ _ same => by cases same) rfl rfl
        dsimp only
        split
        case isTrue short =>
          refine ⟨_, _, rfl, arrived.ended right, stored, fun n counted => ?_⟩
          cases counted
          exact ⟨_, arrived, List.length_append, by omega⟩
        case isFalse full =>
          have goesOn := ih arrived (len - (bytes.take (xferLength len)).length)
            (Same.refl _).unheard
          rw [List.length_append] at goesOn
          obtain ⟨d', result, loop, ended, later, counts⟩ := goesOn
          refine ⟨d', result, loop, ended, stored.trans later, fun n counted => ?_⟩
          obtain ⟨all, whole, length, bound⟩ := counts n counted
          exact ⟨all, whole, length, by omega⟩

theorem ended_downloadEnd {all : List UInt8}
    (under : Receiving d (some len) all) (small : len ≤ max) (bound : all.length ≤ len.toNat) :
    Ended max len (downloadEnd d len (BitVec.ofNat 32 all.length)) := by
  have right : ∀ n, some len = some n → n = len := fun n same => (Option.some.inj same).symm
  unfold downloadEnd
  split
  case isTrue => exact (under.ended right).of_same ⟨rfl, rfl, rfl, rfl⟩
  case isFalse fine =>
    rw [not_or, not_not] at fine
    have length : len.toNat = all.length := by
      rw [← fine.2, BitVec.toNat_ofNat]
      exact Nat.mod_eq_of_lt (lt_of_le_of_lt bound len.isLt)
    refine Ended.of_same ?_ (same_ack _ .okay _)
    have now : latest ((d.setSize len).record .completed).history =
        ⟨some len, all, true, false⟩ := by
      refine (latest_snoc d.history .completed).trans ?_
      rw [under.latest]
      rfl
    refine ⟨?_, ?_, ?_⟩
    · rw [now]
      refine ⟨fun never => ?_, fun _ => ⟨length, small, fun _ => under.bytes⟩⟩
      cases never
    · rw [now]
      exact right
    · rw [now]
      exact fun _ => length.symm

theorem unheard_downloadEnd (d : Device) (len r : BitVec 32) : Unheard d (downloadEnd d len r) := by
  unfold downloadEnd
  split
  · exact Same.unheard ⟨rfl, rfl, rfl, rfl⟩
  · have recorded : Unheard d ((d.setSize len).record .completed) :=
      unheard_of_record (fun _ _ same => by cases same) rfl rfl
    exact recorded.trans (same_ack _ .okay _).unheard

theorem download_read (under : Receiving d none []) (small : len ≤ max)
    (transfers : List Transfer) :
    Ended max len (downloadEnd (usbRead d len transfers).1 len (usbRead d len transfers).2) ∧
      Unheard d (usbRead d len transfers).1 := by
  have failed {d' : Device} (ended : Ended max len d') : Ended max len (downloadEnd d' len (-1)) := by
    exact ended.of_same ⟨rfl, rfl, rfl, rfl⟩
  have asked : Receiving (d.record (.read len)) (some len) [] := by
    refine ⟨?_, under.bytes, under.size⟩
    exact (latest_snoc d.history _).trans (by rw [under.latest]; rfl)
  have recorded : Unheard d (d.record (.read len)) :=
    unheard_of_record (fun _ _ same => by cases same) rfl rfl
  have looped := @Receiving.readLoop _ _ max _ asked len.toNat transfers
  obtain ⟨d', result, loop, ended, later, counts⟩ := looped
  unfold usbRead
  dsimp only
  split
  case isTrue =>
    exact ⟨failed (asked.ended fun n same => (Option.some.inj same).symm), recorded⟩
  case isFalse =>
    rw [List.length_nil] at loop counts
    rw [loop]
    cases result with
    | none =>
      have stopped : Same d' (d'.setState .error) := ⟨rfl, rfl, rfl, rfl⟩
      exact ⟨failed (ended.of_same stopped), (recorded.trans later).trans stopped.unheard⟩
    | some n =>
      obtain ⟨all, received, rfl, bound⟩ := counts n rfl
      exact ⟨ended_downloadEnd received small (by omega), recorded.trans later⟩

theorem download_data (under : Receiving d none []) (small : len ≤ max)
    (transfers : List Transfer) :
    Ended max len (downloadData d len transfers) ∧ Unheard d (downloadData d len transfers) := by
  have same := same_usbWrite d .data (hex8 len)
  unfold downloadData
  split
  case h_1 d₁ written =>
    rw [written] at same
    exact ⟨(under.ended fun n never => by cases never).of_same same, same.unheard⟩
  case h_2 d₁ written =>
    rw [written] at same
    obtain ⟨ended, later⟩ := download_read (under.of_same same) small transfers
    exact ⟨ended, (same.unheard.trans later).trans (unheard_downloadEnd _ _ _)⟩

theorem download_ended (d : Device) (arg : Text) (transfers : List Transfer) :
    Ended d.session.downloadMax (hex2unsigned arg) (cmdDownload d arg transfers) ∧
      Unheard d (cmdDownload d arg transfers) := by
  have started : Receiving (downloadStart d) none [] := by
    refine ⟨latest_snoc d.history .download, ?_, rfl⟩
    intro i bound
    cases bound
  have entered : Unheard d (downloadStart d) :=
    unheard_of_record (fun _ _ same => by cases same) rfl rfl
  unfold cmdDownload
  dsimp only
  split
  case isTrue =>
    have same := same_ack (downloadStart d) .fail (some "data too large".toList)
    exact ⟨(started.ended fun n never => by cases never).of_same same, entered.trans same.unheard⟩
  case isFalse small =>
    obtain ⟨ended, later⟩ := download_data started (BitVec.not_lt.mp small) transfers
    exact ⟨ended, entered.trans later⟩

section

variable (kept : Kept max d)
include kept

theorem Kept.download (arg : Text) (transfers : List Transfer) :
    Kept max (cmdDownload d arg transfers) := by
  obtain ⟨ended, later⟩ := download_ended d arg transfers
  rw [kept.limit] at ended
  obtain ⟨same, news, split, quiet⟩ := later
  exact ⟨same.trans kept.limit, ended.sees, split ▸ kept.calls.append quiet⟩

theorem Kept.called : Kept max (d.record (.called d.session.downloadSize d.memory)) := by
  refine ⟨kept.limit, ?_, ?_⟩
  · show Sees max (latest (d.history ++ [_])) d.session.downloadSize d.memory
    rw [latest_snoc]
    obtain ⟨unfinished, finished⟩ := kept.sees
    refine ⟨unfinished, fun completed => ?_⟩
    obtain ⟨length, bound, -⟩ := finished completed
    exact ⟨length, bound, fun never => by cases never⟩
  · refine kept.calls.snoc ?_
    rintro size memory ⟨⟩
    exact kept.sees

theorem kept_stores (memory : Nat → UInt8) :
    Kept max { d.record (.called d.session.downloadSize d.memory) with memory := memory } := by
  refine ⟨kept.limit, ?_, kept.called.calls⟩
  obtain ⟨unfinished, finished⟩ := kept.called.sees
  refine ⟨unfinished, fun completed => ?_⟩
  obtain ⟨length, bound, -⟩ := finished completed
  refine ⟨length, bound, fun never => ?_⟩
  have handled : (latest (d.history ++ [.called d.session.downloadSize d.memory])).handled = true :=
    by rw [latest_snoc]; rfl
  exact absurd (handled.symm.trans never) (by decide)

theorem Kept.handle (cmd : Command) (packet : Text) (round : Round) :
    Kept max (handle d cmd packet round).device := by
  unfold Download.handle
  cases cmd.handle with
  | getvar => exact kept.called.of_same (same_getvar _ _)
  | download => exact kept.called.download _ _
  | other =>
    have performed := (kept_stores kept (round.stores d.memory)).of_same
      (same_performAll _ round.calls)
    by_cases returns : round.returns = true
    · simp only [if_pos returns]
      exact performed
    · simp only [if_neg returns]
      exact performed

end

theorem Kept.conclude {served : Served} (kept : Kept max served.device) :
    Kept max (conclude served).device := by
  cases served with
  | returned d =>
    rw [Download.conclude]
    split
    · exact kept.of_same (same_ack d .fail _)
    · exact kept
  | gone d => exact kept

theorem Kept.serve (kept : Kept max d) (round : Round) : Kept max (serve d round).device := by
  unfold Download.serve
  dsimp only
  split
  · exact kept.of_same ⟨rfl, rfl, rfl, rfl⟩
  · split
    · refine Kept.of_same ?_ (same_ack _ .fail _)
      exact kept.of_same ⟨rfl, rfl, rfl, rfl⟩
    · refine Kept.conclude (Kept.handle ?_ _ _ _)
      exact kept.of_same ⟨rfl, rfl, rfl, rfl⟩

theorem Kept.run (kept : Kept max d) (rounds : List Round) :
    Kept max (fastbootHandler d rounds) := by
  induction rounds generalizing d with
  | nil => exact kept
  | cons round rest ih =>
    have after := kept.serve round
    rw [fastbootHandler]
    cases served : Download.serve d round with
    | returned d' =>
      rw [served] at after
      refine ih (after.of_same ?_)
      unfold reconnect Fastboot.reenter
      split
      · exact ⟨rfl, rfl, rfl, rfl⟩
      · exact ⟨rfl, rfl, rfl, rfl⟩
    | gone d' =>
      rw [served] at after
      exact after

theorem kept_opened (commands : List Command) (vars : List (Text × Text)) (max : BitVec 32)
    (memory : Nat → UInt8) : Kept max (opened commands vars max memory) := by
  refine ⟨rfl, ⟨fun _ => rfl, fun never => by cases never⟩, ?_⟩
  intro before size memory' after split
  cases before <;> cases split

/-- In every run, whatever the host and the bus do, a handler is called with size 0 unless the
most recent download command completed, and then with what that download received. -/
theorem handlers_see_last_download (commands : List Command) (vars : List (Text × Text))
    (max : BitVec 32) (memory : Nat → UInt8) (rounds : List Round) :
    CallsSee max (fastbootHandler (opened commands vars max memory) rounds).history :=
  ((kept_opened commands vars max memory).run rounds).calls

/-- Three bytes are downloaded in one transfer, and the handler of `flash:` finds them. -/
example : (fastbootHandler (opened [⟨"download:".toList, .download⟩, ⟨"flash:".toList, .other⟩] []
      0x1000 fun _ => 0)
    [⟨some "download:3".toList, [], id, true, [], [.done [1, 2, 3]]⟩,
      ⟨some "flash:boot".toList, [.okay none], id, true, [], []⟩]).history.filterMap
      (fun | .called size memory => some (size, (List.range 3).map memory) | _ => none) =
    [(0, [0, 0, 0]), (3, [1, 2, 3])] := by
  decide

end LastDownload

section SizeAsked

def leadingDigits : Text → List Nat
  | [] => []
  | c :: rest =>
    match hexDigit c with
    | none => []
    | some digit => digit :: leadingDigits rest

def denoted (text : Text) : Nat := (leadingDigits text).foldl (fun n digit => 16 * n + digit) 0

variable {digit : Nat}

theorem hexDigit_lt {c : Char} (here : hexDigit c = some digit) : digit < 16 := by
  have reach {last : Char} (below : c ≤ last) : c.toNat ≤ last.toNat := below
  unfold hexDigit at here
  split_ifs at here with range range range
  all_goals
    cases here
    have top := reach range.2
    simp only [Char.reduceToNat] at top ⊢
    omega

theorem shift_or_digit (n : BitVec 32) (small : digit < 16) :
    ((n <<< 4) ||| BitVec.ofNat 32 digit).toNat = (16 * n.toNat + digit) % 2 ^ 32 := by
  have shifted : (n <<< 4).toNat = (n.toNat % 2 ^ 28) <<< 4 := by
    rw [BitVec.toNat_shiftLeft, Nat.shiftLeft_eq, Nat.shiftLeft_eq]
    omega
  have value : (BitVec.ofNat 32 digit).toNat = digit := by
    rw [BitVec.toNat_ofNat]
    omega
  rw [BitVec.toNat_or, shifted, value, ← Nat.shiftLeft_add_eq_or_of_lt small, Nat.shiftLeft_eq]
  omega

theorem hexLoop_toNat (n : BitVec 32) (total : Nat) (same : n.toNat = total % 2 ^ 32)
    (text : Text) :
    (hexLoop n text).toNat =
      (leadingDigits text).foldl (fun n digit => 16 * n + digit) total % 2 ^ 32 := by
  induction text generalizing n total with
  | nil => exact same
  | cons c rest ih =>
    rw [hexLoop, leadingDigits]
    cases here : hexDigit c with
    | none => exact same
    | some digit =>
      refine ih _ (16 * total + digit) ?_
      rw [shift_or_digit n (hexDigit_lt here), same]
      omega

theorem hex2unsigned_toNat (text : Text) : (hex2unsigned text).toNat = denoted text % 2 ^ 32 :=
  hexLoop_toNat 0 0 rfl text

theorem hexDigit_hexChar (small : digit < 16) : hexDigit (hexChar digit) = some digit := by
  have all : ∀ digit : Fin 16, hexDigit (hexChar digit) = some digit.val := by decide
  exact all ⟨digit, small⟩

theorem leadingDigits_map {digits : List Nat} (small : ∀ digit ∈ digits, digit < 16) :
    leadingDigits (digits.map hexChar) = digits := by
  induction digits with
  | nil => rfl
  | cons digit rest ih =>
    rw [List.map_cons, leadingDigits, hexDigit_hexChar (small digit List.mem_cons_self)]
    rw [ih (List.forall_mem_cons.mp small).2]

theorem foldl_digits (width n : Nat) :
    ((List.range width).map fun i => (n >>> (4 * (width - 1 - i))) % 16).foldl
      (fun m digit => 16 * m + digit) 0 = n % 16 ^ width := by
  induction width generalizing n with
  | zero => simp [Nat.mod_one]
  | succ width ih =>
    have front : (List.range width).map (fun i => (n >>> (4 * (width + 1 - 1 - i))) % 16) =
        (List.range width).map fun i => ((n / 16) >>> (4 * (width - 1 - i))) % 16 := by
      refine List.map_congr_left fun i member => ?_
      have below := List.mem_range.mp member
      have shift : 4 * (width + 1 - 1 - i) = 4 + 4 * (width - 1 - i) := by omega
      rw [shift, Nat.shiftRight_add, Nat.shiftRight_eq_div_pow n 4]
    have last : n >>> (4 * (width + 1 - 1 - width)) = n := by
      rw [Nat.add_sub_cancel, Nat.sub_self, Nat.mul_zero, Nat.shiftRight_zero]
    rw [List.range_succ, List.map_append, List.foldl_append, front, ih, List.map_singleton, last,
      List.foldl_cons, List.foldl_nil, pow_succ', Nat.mod_mul]
    omega

theorem denoted_hex8 (n : BitVec 32) : denoted (hex8 n) = n.toNat := by
  have digits : hex8 n =
      ((List.range 8).map fun i => (n.toNat >>> (4 * (7 - i))) % 16).map hexChar := by
    rfl
  have small : ∀ digit ∈ (List.range 8).map fun i => (n.toNat >>> (4 * (7 - i))) % 16,
      digit < 16 := by
    intro digit member
    obtain ⟨i, -, rfl⟩ := List.mem_map.mp member
    exact Nat.mod_lt _ (by decide)
  rw [denoted, digits, leadingDigits_map small, foldl_digits 8 n.toNat]
  exact Nat.mod_eq_of_lt n.isLt

theorem ack_log (d : Device) (code : Code) (reason : Option Text) :
    ∃ sent, (fastbootAck d code reason).session.log = d.session.log ++ sent ∧
      ∀ e ∈ sent, ∃ text, e = .sent code text := by
  unfold fastbootAck
  split
  · exact ⟨[], (List.append_nil _).symm, fun _ never => by cases never⟩
  · refine ⟨_, usbWrite_log _ _ _, ?_⟩
    intro e member
    split at member
    · exact ⟨_, List.mem_singleton.mp member⟩
    · cases member

theorem downloadEnd_log (d : Device) (len r : BitVec 32) :
    ∃ sent, (downloadEnd d len r).session.log = d.session.log ++ sent ∧
      ∀ e ∈ sent, ∃ text, e = .sent .okay text := by
  unfold downloadEnd
  split
  · exact ⟨[], (List.append_nil _).symm, fun _ never => by cases never⟩
  · exact ack_log _ .okay _

theorem download_log (d : Device) (arg : Text) (transfers : List Transfer) :
    ∃ sent, (cmdDownload d arg transfers).session.log = d.session.log ++ sent ∧
      (∀ reason, .sent .data reason ∈ sent →
        reason = hex8 (hex2unsigned arg) ∧ hex2unsigned arg ≤ d.session.downloadMax) ∧
      (d.session.state = .command → d.writes = [] → hex2unsigned arg ≤ d.session.downloadMax →
        .sent .data (hex8 (hex2unsigned arg)) ∈ sent) := by
  unfold cmdDownload
  dsimp only
  split
  case isTrue large =>
    obtain ⟨sent, log, fails⟩ := ack_log (downloadStart d) .fail (some "data too large".toList)
    refine ⟨sent, log, fun reason member => ?_, fun _ _ small => ?_⟩
    · obtain ⟨text, same⟩ := fails _ member
      cases same
    · exact absurd large (BitVec.not_lt.mpr small)
  case isFalse small =>
    have written := usbWrite_log (downloadStart d) .data (hex8 (hex2unsigned arg))
    have succeeds (command : d.session.state = .command) (quiet : d.writes = []) :
        (usbWrite (downloadStart d) .data (hex8 (hex2unsigned arg))).2 = true := by
      have fine : (downloadStart d).session.state ≠ .error := by
        show d.session.state ≠ .error
        rw [command]
        decide
      have none : (downloadStart d).writes = [] := quiet
      rw [usbWrite, if_neg fine, none]
    unfold downloadData
    split
    case h_1 d₁ refused =>
      rw [refused] at written succeeds
      refine ⟨[], written, fun reason never => ?_, fun command quiet _ => ?_⟩
      · cases never
      · cases succeeds command quiet
    case h_2 d₁ accepted =>
      rw [accepted] at written
      obtain ⟨sent, log, okays⟩ := downloadEnd_log (usbRead d₁ (hex2unsigned arg) transfers).1
        (hex2unsigned arg) (usbRead d₁ (hex2unsigned arg) transfers).2
      refine ⟨.sent .data (hex8 (hex2unsigned arg)) :: sent, ?_, fun reason member => ?_,
        fun _ _ _ => List.mem_cons_self⟩
      · rw [log, usbRead_log, written]
        simp [downloadStart, Device.setSize, Device.record]
      · rcases List.mem_cons.mp member with same | later
        · exact ⟨(Fastboot.Event.sent.inj same).2, BitVec.not_lt.mp small⟩
        · obtain ⟨text, same⟩ := okays _ later
          cases same

/-- A download as the host asked for it: the number that the digits denote is allowed, it is the
one in the answer, it is the one `usb_read` is asked for, and all of it is received. -/
structure AsAsked (max : BitVec 32) (arg reason : Text) (l : Latest) : Prop where
  allowed : denoted arg ≤ max.toNat
  announced : denoted reason = denoted arg
  asked : ∀ len, l.asked = some len → len.toNat = denoted arg
  received : l.completed = true → l.received.length = denoted arg

/-- Whatever the bus and the host do: if `cmd_download` answers `DATA`, it downloads what it was
asked for. -/
def DownloadsAsAsked (d : Device) (arg : Text) : Prop :=
  ∀ (writes : List Bool) (transfers : List Transfer) (reason : Text),
    .sent .data reason ∈
        (cmdDownload { d with writes := writes } arg transfers).session.log.drop
          d.session.log.length →
      AsAsked d.session.downloadMax arg reason
        (latest (cmdDownload { d with writes := writes } arg transfers).history)

/-- The digits denote a number of 32 bits, or the low 32 bits of it are too large. -/
theorem downloads_as_asked_iff {d : Device} (command : d.session.state = .command) (arg : Text) :
    DownloadsAsAsked d arg ↔
      denoted arg < 2 ^ 32 ∨ d.session.downloadMax.toNat < denoted arg % 2 ^ 32 := by
  have computed := hex2unsigned_toNat arg
  constructor
  · intro right
    by_contra wrong
    rw [not_or, Nat.not_lt, Nat.not_lt] at wrong
    have small : hex2unsigned arg ≤ d.session.downloadMax := by
      rw [BitVec.le_def, computed]
      exact wrong.2
    obtain ⟨sent, log, -, answers⟩ := download_log { d with writes := [] } arg []
    have answered := right [] [] (hex8 (hex2unsigned arg)) (by
      rw [log, List.drop_left]
      exact answers command rfl small)
    have announced := answered.announced
    rw [denoted_hex8, computed] at announced
    omega
  · intro condition writes transfers reason member
    obtain ⟨sent, log, data, -⟩ := download_log { d with writes := writes } arg transfers
    rw [log, List.drop_left] at member
    obtain ⟨rfl, small⟩ := data reason member
    have unwrapped : (hex2unsigned arg).toNat = denoted arg := by
      have bound : (hex2unsigned arg).toNat ≤ d.session.downloadMax.toNat := small
      omega
    obtain ⟨ended, -⟩ := download_ended { d with writes := writes } arg transfers
    refine ⟨unwrapped ▸ small, ?_, ?_, ?_⟩
    · rw [denoted_hex8, unwrapped]
    · intro len asked
      rw [ended.asked len asked, unwrapped]
    · intro completed
      rw [ended.whole completed, unwrapped]

def ready : Device := (opened [] [] 0x10000000 fun _ => 0).setState .command

theorem downloads_as_asked_iff_sixteen :
    ready.session.state = .command ∧ denoted "10".toList = 16 ∧
      DownloadsAsAsked ready "10".toList :=
  ⟨rfl, by decide, (downloads_as_asked_iff rfl _).mpr (Or.inl (by decide))⟩

theorem nine_digits_wrap :
    denoted "100000001".toList = 2 ^ 32 + 1 ∧
      (cmdDownload ready "100000001".toList [.done [7]]).session.log =
        [.sent .data "00000001".toList, .sent .okay []] ∧
      (latest (cmdDownload ready "100000001".toList [.done [7]]).history).received = [7] ∧
      ¬ DownloadsAsAsked ready "100000001".toList := by
  have log : (cmdDownload ready "100000001".toList [.done [7]]).session.log =
      [.sent .data "00000001".toList, .sent .okay []] := by
    decide
  refine ⟨by decide, log, by decide, fun right => ?_⟩
  have answered := right [] [.done [7]] "00000001".toList (by
    decide)
  exact absurd answered.allowed (by decide)

end SizeAsked

end AndroidBoot.Aboot.DownloadSafety
