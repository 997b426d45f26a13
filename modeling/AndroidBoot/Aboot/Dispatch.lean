/- source: bootable/lk/app/aboot/fastboot.c
   digest: The command buffer: which handler a packet reaches, and with which argument. -/

import AndroidBoot.Aboot.Fastboot
import Mathlib.Logic.Function.Basic

/-!
`buffer` is never cleared: behind the terminator of a packet it holds what longer packets
have left, and `memcmp` reads as far as the prefix is long. Here the loop works on the bytes
of the buffer; `Fastboot` has the same loop on the packets alone.
-/

set_option autoImplicit false

namespace AndroidBoot.Aboot.Dispatch

open Fastboot

/-- `buffer`, one character for each byte. -/
abbrev Buffer := Nat → Char

def bufferSize : Nat := 4096

/-- What `usb_read` leaves in the buffer when the host sends these bytes. -/
def fill (buffer : Buffer) (bytes : Text) : Buffer := fun i => bytes[i]?.getD (buffer i)

def receive (buffer : Buffer) (packet : Text) : Buffer :=
  Function.update (fill buffer packet) packet.length '\x00'

def matchesAt (buffer : Buffer) (i : Nat) : Text → Bool
  | [] => true
  | c :: rest => buffer i = c && matchesAt buffer (i + 1) rest

def stringAt (buffer : Buffer) (start : Nat) : Text :=
  ((List.range' start (bufferSize - start)).map buffer).takeWhile fun c => c.toNat ≠ 0

/-- The search through `cmdlist`: the command whose handler is called, and its `arg`. -/
def dispatch (commands : List Command) (buffer : Buffer) : Option (Command × Text) :=
  (commands.find? fun cmd => matchesAt buffer 0 cmd.word).map fun cmd =>
    (cmd, stringAt buffer cmd.word.length)

def CString (word : Text) : Prop := ∀ c ∈ word, c.toNat ≠ 0

instance (word : Text) : Decidable (CString word) :=
  List.decidableBAll (fun c : Char => c.toNat ≠ 0) word

private theorem takeWhile_append_stop {α : Type} {test : α → Bool} (front back : List α) (a : α)
    (fails : test a = false) :
    (front ++ a :: back).takeWhile test = front.takeWhile test := by
  induction front with
  | nil => simp [fails]
  | cons b front ih => simp [List.cons_append, List.takeWhile_cons, ih]

section Packet

variable (buffer : Buffer) (packet : Text)

theorem receive_packet {i : Nat} (inside : i < packet.length) :
    receive buffer packet i = packet[i] := by
  have apart : i ≠ packet.length := Nat.ne_of_lt inside
  rw [receive, Function.update_of_ne apart, fill, List.getElem?_eq_getElem inside, Option.getD_some]

theorem receive_terminator : receive buffer packet packet.length = '\x00' := by
  rw [receive, Function.update_self]

theorem matchesAt_receive (word : Text) (free : CString word) (i : Nat)
    (inside : i ≤ packet.length) :
    matchesAt (receive buffer packet) i word = word.isPrefixOf (packet.drop i) := by
  induction word generalizing i with
  | nil => rw [matchesAt, List.isPrefixOf]
  | cons c rest ih =>
    have rest_free : CString rest := (List.forall_mem_cons.mp free).2
    rw [matchesAt]
    obtain before | rfl := Nat.lt_or_eq_of_le inside
    · have same : decide (packet[i] = c) = (c == packet[i]) := by
        rw [beq_eq_decide, decide_eq_decide]
        exact eq_comm
      rw [receive_packet buffer packet before, ih rest_free (i + 1) before,
        List.drop_eq_getElem_cons before, List.isPrefixOf, same]
    · have nonzero : '\x00' ≠ c := by
        rintro rfl
        exact free '\x00' List.mem_cons_self rfl
      rw [receive_terminator, List.drop_length, decide_eq_false nonzero, Bool.false_and]
      rfl

theorem stringAt_receive (short : packet.length ≤ maxRspSize) {start : Nat}
    (inside : start ≤ packet.length) :
    stringAt (receive buffer packet) start =
      (packet.drop start).takeWhile fun c => c.toNat ≠ 0 := by
  have room : bufferSize - start =
      (packet.length - start) + (bufferSize - packet.length - 1 + 1) := by
    have : maxRspSize < bufferSize := by decide
    omega
  have front : (List.range' start (packet.length - start)).map (receive buffer packet) =
      packet.drop start := by
    apply List.ext_getElem
    · simp
    · intro i inRange inPacket
      have bound : start + i < packet.length := by
        rw [List.length_drop] at inPacket
        omega
      simp [receive_packet buffer packet bound]
  have terminator : start + (packet.length - start) = packet.length := by omega
  rw [stringAt, room, ← List.range'_append_1, List.map_append, front, terminator,
    List.range'_succ, List.map_cons, receive_terminator]
  exact takeWhile_append_stop _ _ _ rfl

theorem dispatch_receive (commands : List Command) (free : ∀ cmd ∈ commands, CString cmd.word)
    (short : packet.length ≤ maxRspSize) :
    dispatch commands (receive buffer packet) =
      (commands.find? fun cmd => cmd.word.isPrefixOf packet).map fun cmd =>
        (cmd, argument cmd packet) := by
  induction commands with
  | nil => rfl
  | cons cmd commands ih =>
    have word_free : CString cmd.word := free cmd List.mem_cons_self
    have hit := matchesAt_receive buffer packet cmd.word word_free 0 (Nat.zero_le _)
    rw [List.drop_zero] at hit
    have rest := ih (List.forall_mem_cons.mp free).2
    unfold dispatch at rest ⊢
    rw [List.find?_cons, List.find?_cons, hit]
    cases found : cmd.word.isPrefixOf packet with
    | false => exact rest
    | true =>
      have inside : cmd.word.length ≤ packet.length :=
        (List.isPrefixOf_iff_prefix.mp found).length_le
      simp only [Option.map_some]
      rw [stringAt_receive buffer packet short inside, argument]

end Packet

def registerAll (s : Session) (history : List Command) : Session :=
  history.foldl (fun s cmd => fastbootRegister s cmd.word cmd.handle) s

theorem registerAll_commands (s : Session) (history : List Command) :
    (registerAll s history).commands = history.reverse ++ s.commands := by
  induction history generalizing s with
  | nil => rfl
  | cons cmd history ih =>
    have step : registerAll s (cmd :: history) =
        registerAll (fastbootRegister s cmd.word cmd.handle) history := rfl
    rw [step, ih, List.reverse_cons, List.append_assoc]
    rfl

private theorem find_reverse_iff (history : List Command) (test : Command → Bool)
    (cmd : Command) :
    history.reverse.find? test = some cmd ↔
      test cmd = true ∧ ∃ earlier later, history = earlier ++ cmd :: later ∧
        ∀ other ∈ later, test other = false := by
  rw [List.find?_eq_some_iff_append]
  refine and_congr_right fun _ => ⟨?_, ?_⟩
  · rintro ⟨later, earlier, split, none⟩
    refine ⟨earlier.reverse, later.reverse, ?_, ?_⟩
    · have back := congrArg List.reverse split
      rw [List.reverse_reverse, List.reverse_append, List.reverse_cons, List.append_assoc] at back
      exact back
    · intro other member
      simpa using none other (List.mem_reverse.mp member)
  · rintro ⟨earlier, later, rfl, none⟩
    refine ⟨later.reverse, earlier.reverse, by simp, ?_⟩
    intro other member
    rw [none other (List.mem_reverse.mp member)]
    rfl

/-- Whatever earlier packets have left in the buffer, a packet reaches the handler that was
registered last of those whose prefix it starts with, with the rest of the packet as argument,
and no handler if there is none. -/
theorem dispatch_depends_on_packet (s : Session) (none_yet : s.commands = [])
    (history : List Command) (free : ∀ cmd ∈ history, CString cmd.word) (packet : Text)
    (short : packet.length ≤ maxRspSize) (first second : Buffer) :
    let commands := (registerAll s history).commands
    let reached := dispatch commands (receive first packet)
    reached = dispatch commands (receive second packet)
      ∧ (∀ cmd arg, reached = some (cmd, arg) ↔
          (cmd.word <+: packet ∧ ∃ earlier later, history = earlier ++ cmd :: later ∧
            ∀ other ∈ later, ¬ other.word <+: packet)
          ∧ arg = argument cmd packet)
      ∧ (reached = none ↔ ∀ cmd ∈ history, ¬ cmd.word <+: packet) := by
  have commands : (registerAll s history).commands = history.reverse := by
    rw [registerAll_commands, none_yet, List.append_nil]
  have reversed_free : ∀ cmd ∈ history.reverse, CString cmd.word :=
    fun cmd member => free cmd (List.mem_reverse.mp member)
  have unlike : ∀ cmd : Command, cmd.word.isPrefixOf packet = false ↔ ¬ cmd.word <+: packet :=
    fun cmd => by rw [← List.isPrefixOf_iff_prefix, Bool.not_eq_true]
  dsimp only
  rw [commands, dispatch_receive first packet _ reversed_free short,
    dispatch_receive second packet _ reversed_free short]
  refine ⟨rfl, ?_, ?_⟩
  · intro cmd arg
    rw [Option.map_eq_some_iff]
    constructor
    · rintro ⟨found, search, same⟩
      obtain ⟨rfl, rfl⟩ := Prod.mk.inj same
      obtain ⟨hit, earlier, later, split, none⟩ := (find_reverse_iff _ _ _).mp search
      exact ⟨⟨List.isPrefixOf_iff_prefix.mp hit, earlier, later, split,
        fun other member => (unlike other).mp (none other member)⟩, rfl⟩
    · rintro ⟨⟨hit, earlier, later, split, none⟩, rfl⟩
      refine ⟨cmd, (find_reverse_iff _ _ _).mpr ⟨List.isPrefixOf_iff_prefix.mpr hit, earlier,
        later, split, fun other member => (unlike other).mpr (none other member)⟩, rfl⟩
  · simp

theorem dispatch_depends_on_packet_get :
    let s := registerAll (opened [] [] 0) [⟨"getvar:".toList, .getvar⟩, ⟨"get".toList, .other⟩]
    let stale := receive (fun _ => 'z') "getvar:version".toList
    dispatch s.commands (receive stale "ge".toList) =
        dispatch s.commands (receive (fun _ => 'z') "ge".toList)
      ∧ dispatch s.commands (receive stale "ge".toList) = none := by
  have result := dispatch_depends_on_packet (opened [] [] 0) rfl
    [⟨"getvar:".toList, .getvar⟩, ⟨"get".toList, .other⟩] (by decide) "ge".toList (by decide)
    (receive (fun _ => 'z') "getvar:version".toList) (fun _ => 'z')
  exact ⟨result.1, result.2.2.mpr (by decide)⟩

def serveBuffer (s : Session) (buffer : Buffer) (round : Round) : Option Served :=
  let heard := { s with log := s.log ++ [.received round.packet] }
  match dispatch s.commands (receive buffer round.packet) with
  | none => some (.returned (fastbootFail heard (some "unknown command".toList)))
  | some (cmd, arg) => (handle { heard with state := .command } cmd arg round).map conclude

/-- `fastboot_handler` on its buffer. A data phase goes to the download area. -/
def commandLoop (s : Session) (buffer : Buffer) : List Round → Option Session
  | [] => some s
  | round :: rest =>
    match serveBuffer s buffer round with
    | none => none
    | some (.returned s) => commandLoop (reenter s) (receive buffer round.packet) rest
    | some (.gone s) => some s

def Free (s : Session) : Prop := ∀ cmd ∈ s.commands, CString cmd.word

theorem Free.of_commands {s t : Session} (free : Free s) (same : t.commands = s.commands) :
    Free t := fun cmd member => free cmd (same ▸ member)

def RegistersStrings (round : Round) : Prop :=
  ∀ word, Call.register word ∈ round.calls → CString word

theorem serveBuffer_eq (s : Session) (free : Free s) (buffer : Buffer) (round : Round) :
    serveBuffer s buffer round = serve s round := by
  unfold serveBuffer serve lookup
  rw [dispatch_receive buffer round.packet s.commands free round.short]
  cases s.commands.find? fun cmd => cmd.word.isPrefixOf round.packet with
  | none | some => rfl

section Registered

variable (s : Session)

theorem usbWrite_commands (code : Code) (reason : Text) :
    (usbWrite s code reason).commands = s.commands := by
  unfold usbWrite
  split <;> rfl

theorem fastbootAck_commands (code : Code) (reason : Option Text) :
    (fastbootAck s code reason).commands = s.commands := by
  unfold fastbootAck
  split
  · rfl
  · rw [usbWrite_commands]

theorem fastbootInfo_commands (reason : Option Text) :
    (fastbootInfo s reason).commands = s.commands := by
  cases reason with
  | none => unfold fastbootInfo; split <;> rfl
  | some reason =>
    unfold fastbootInfo
    split
    · rfl
    · rw [usbWrite_commands]

theorem cmdGetvar_commands (arg : Text) : (cmdGetvar s arg).commands = s.commands := by
  unfold cmdGetvar
  split <;> exact fastbootAck_commands _ _ _

theorem cmdDownload_commands {s t : Session} {arg : Text} {transfers : List Nat}
    (done : cmdDownload s arg transfers = some t) : t.commands = s.commands := by
  unfold cmdDownload at done
  dsimp only at done
  split at done
  · cases done
    exact fastbootAck_commands _ _ _
  · obtain ⟨r, -, rfl⟩ := Option.map_eq_some_iff.mp done
    split
    · exact usbWrite_commands _ _ _
    · exact (fastbootAck_commands _ _ _).trans (usbWrite_commands _ _ _)

theorem perform_free (free : Free s) (made : Call)
    (fresh : ∀ word, made = .register word → CString word) : Free (perform s made) := by
  cases made with
  | register word => exact List.forall_mem_cons.mpr ⟨fresh word rfl, free⟩
  | info reason => exact free.of_commands (fastbootInfo_commands s reason)
  | okay reason => exact free.of_commands (fastbootAck_commands s .okay reason)
  | fail reason => exact free.of_commands (fastbootAck_commands s .fail reason)
  | publish name value => exact free

theorem performs_free (calls : List Call) (s : Session) (free : Free s)
    (fresh : ∀ word, Call.register word ∈ calls → CString word) :
    Free (calls.foldl perform s) := by
  induction calls generalizing s with
  | nil => exact free
  | cons made calls ih =>
    have first := perform_free s free made fun word same => fresh word (same ▸ List.mem_cons_self)
    exact ih _ first fun word member => fresh word (List.mem_cons_of_mem made member)

theorem serve_free {s t : Session} {round : Round} (free : Free s)
    (fresh : RegistersStrings round) (served : serve s round = some (.returned t)) : Free t := by
  unfold serve at served
  cases found : lookup s round.packet with
  | none =>
    rw [found] at served
    cases served
    exact free.of_commands (fastbootAck_commands _ _ _)
  | some cmd =>
    rw [found] at served
    obtain ⟨handled, run, concluded⟩ := Option.map_eq_some_iff.mp served
    obtain ⟨u, rfl, free_u⟩ : ∃ u, handled = .returned u ∧ Free u := by
      cases handled with
      | gone u => cases concluded
      | returned u =>
        refine ⟨u, rfl, ?_⟩
        unfold handle at run
        cases kind : cmd.handle with
        | getvar =>
          rw [kind] at run
          cases run
          exact free.of_commands (cmdGetvar_commands _ _)
        | download =>
          rw [kind] at run
          obtain ⟨v, done, same⟩ := Option.map_eq_some_iff.mp run
          cases same
          have kept := cmdDownload_commands done
          exact free.of_commands kept
        | other =>
          rw [kind] at run
          cases returns : round.returns with
          | false =>
            rw [returns] at run
            cases run
          | true =>
            rw [returns] at run
            cases run
            exact performs_free round.calls _ free fresh
    cases concluded
    split
    · exact free_u.of_commands (fastbootAck_commands _ _ _)
    · exact free_u

end Registered

theorem reenter_commands (s : Session) : (reenter s).commands = s.commands := by
  unfold reenter
  split <;> rfl

/-- The loop on the buffer does what the loop on the packets does, whatever is in the buffer
when it starts. -/
theorem commandLoop_eq (s : Session) (free : Free s) (buffer : Buffer) (rounds : List Round)
    (fresh : ∀ round ∈ rounds, RegistersStrings round) :
    commandLoop s buffer rounds = fastbootHandler s rounds := by
  induction rounds generalizing s buffer with
  | nil => rfl
  | cons round rest ih =>
    rw [commandLoop, fastbootHandler, serveBuffer_eq s free]
    cases served : serve s round with
    | none => rfl
    | some outcome =>
      cases outcome with
      | gone t => rfl
      | returned t =>
        have kept : Free (reenter t) :=
          (serve_free free (fresh round List.mem_cons_self) served).of_commands (reenter_commands t)
        exact ih (reenter t) kept _ (List.forall_mem_cons.mp fresh).2

theorem commandLoop_eq_ge :
    let s := registerAll (opened [] [] 0) [⟨"getvar:".toList, .getvar⟩]
    let rounds : List Round := [⟨"getvar:version".toList, [], true, [], by decide⟩,
      ⟨"ge".toList, [], true, [], by decide⟩]
    commandLoop s (fun _ => 'z') rounds = fastbootHandler s rounds :=
  commandLoop_eq _ (by unfold Free; decide) _ _ (by simp [RegistersStrings])

end AndroidBoot.Aboot.Dispatch
