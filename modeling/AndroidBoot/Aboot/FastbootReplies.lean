/- source: bootable/lk/app/aboot/fastboot.c
   digest: Which command packets get exactly one terminal reply. -/

import AndroidBoot.Aboot.Fastboot

set_option autoImplicit false

namespace AndroidBoot.Aboot.FastbootReplies

open Fastboot

def AnsweredOnce (codes : List Code) : Prop :=
  ∃ before last, codes = before ++ [last] ∧ last.terminal = true ∧
    ∀ code ∈ before, code.terminal = false

/-- What was sent before the first command packet, and what was sent for each packet
until the next one. -/
def groups : List Event → List Code × List (List Code)
  | [] => ([], [])
  | .received _ :: rest => ([], (groups rest).1 :: (groups rest).2)
  | .sent code _ :: rest => (code :: (groups rest).1, (groups rest).2)

/-- Every command packet has exactly one terminal reply, which comes last. -/
def Disciplined (log : List Event) : Prop :=
  (groups log).1 = [] ∧ ∀ codes ∈ (groups log).2, AnsweredOnce codes

def Replies (call : Call) : Prop := ∃ reason, call = .okay reason ∨ call = .fail reason

/-- Whether a command gets its reply: for a download that is not refused, if the data
phase has the announced length, below the range of `int`; for a handler that does not
return, if it replied itself. -/
def HandlerAnswers (s : Session) (cmd : Command) (round : Round) : Prop :=
  match cmd.handle with
  | .getvar => True
  | .download =>
    let len := hex2unsigned (argument cmd round.packet)
    s.downloadMax < len ∨
      (len.toNat < 2 ^ 31 ∧ usbReadLoop len.toNat 0 round.transfers = some len.toNat)
  | .other => round.returns = true ∨ ∃ call ∈ round.calls, Replies call

/-- The packet has a registered prefix, and its command gets its reply. -/
def Answers (s : Session) (round : Round) : Prop :=
  match lookup s round.packet with
  | none => False
  | some cmd => HandlerAnswers s cmd round

def AnswersAll (s : Session) : List Round → Prop
  | [] => True
  | round :: rest =>
    Answers s round ∧ ∀ s', serve s round = some (.returned s') → AnswersAll (reenter s') rest

/-- The log goes on with sent packets, of these codes. -/
def Appends (before after : List Event) (codes : List Code) : Prop :=
  ∃ sent : List (Code × Text),
    after = before ++ sent.map (fun packet => .sent packet.1 packet.2) ∧
      codes = sent.map Prod.fst

theorem Appends.refl (log : List Event) : Appends log log [] := ⟨[], by simp, rfl⟩

theorem Appends.snoc {before after : List Event} {codes : List Code}
    (grown : Appends before after codes) (code : Code) (reason : Text) :
    Appends before (after ++ [.sent code reason]) (codes ++ [code]) := by
  obtain ⟨sent, rfl, rfl⟩ := grown
  exact ⟨sent ++ [(code, reason)], by simp, by simp⟩

private theorem groups_sent (sent : List (Code × Text)) :
    groups (sent.map fun packet => .sent packet.1 packet.2) = (sent.map Prod.fst, []) := by
  induction sent with
  | nil => rfl
  | cons packet rest ih => simp [groups, ih]

private theorem groups_received (log : List Event) (packet : Text) (tail : List Event) :
    groups (log ++ .received packet :: tail) =
      ((groups log).1, (groups log).2 ++ (groups tail).1 :: (groups tail).2) := by
  induction log with
  | nil => rfl
  | cons event rest ih => cases event <;> simp [groups, ih]

theorem disciplined_received {log after : List Event} {packet : Text} {codes : List Code}
    (grown : Appends (log ++ [.received packet]) after codes) :
    Disciplined after ↔ Disciplined log ∧ AnsweredOnce codes := by
  obtain ⟨sent, rfl, rfl⟩ := grown
  rw [List.append_assoc, List.singleton_append]
  simp only [Disciplined, groups_received, groups_sent, List.forall_mem_append,
    List.forall_mem_singleton, and_assoc]

private theorem answeredOnce_snoc {before : List Code} {last : Code}
    (silent : ∀ code ∈ before, code.terminal = false) (closing : last.terminal = true) :
    AnsweredOnce (before ++ [last]) :=
  ⟨before, last, rfl, closing, silent⟩

private theorem not_answeredOnce {codes : List Code}
    (silent : ∀ code ∈ codes, code.terminal = false) : ¬ AnsweredOnce codes := by
  rintro ⟨before, last, rfl, closing, -⟩
  have quiet := silent last (by simp)
  rw [closing] at quiet
  cases quiet

def Pending (base : List Event) (s : Session) : Prop :=
  s.state = .command ∧
    ∃ codes, Appends base s.log codes ∧ ∀ code ∈ codes, code.terminal = false

def Replied (base : List Event) (s : Session) : Prop :=
  s.state = .complete ∧ ∃ codes, Appends base s.log codes ∧ AnsweredOnce codes

section Calls

variable {base : List Event} {s : Session}

theorem Pending.ack (pending : Pending base s) {code : Code} (closing : code.terminal = true)
    (reason : Option Text) : Replied base (fastbootAck s code reason) := by
  obtain ⟨active, codes, grown, silent⟩ := pending
  have sent : fastbootAck s code reason =
      { s with state := .complete, log := s.log ++ [.sent code (fit (reason.getD []))] } := by
    simp [fastbootAck, usbWrite, active]
  rw [sent]
  exact ⟨rfl, codes ++ [code], grown.snoc _ _, answeredOnce_snoc silent closing⟩

theorem Pending.info (pending : Pending base s) (reason : Option Text) :
    Pending base (fastbootInfo s reason) := by
  obtain ⟨active, codes, grown, silent⟩ := pending
  cases reason with
  | none =>
    rw [show fastbootInfo s none = s by simp [fastbootInfo]]
    exact ⟨active, codes, grown, silent⟩
  | some reason =>
    have sent : fastbootInfo s (some reason) =
        { s with log := s.log ++ [.sent .info (fit reason)] } := by
      simp [fastbootInfo, usbWrite, active]
    rw [sent]
    refine ⟨active, codes ++ [.info], grown.snoc _ _, ?_⟩
    exact List.forall_mem_append.mpr ⟨silent, by simp [Code.terminal]⟩

theorem fastbootAck_ignored (idle : s.state ≠ .command) (code : Code) (reason : Option Text) :
    fastbootAck s code reason = s := if_pos idle

theorem Pending.perform_replies (pending : Pending base s) {call : Call} (replies : Replies call) :
    Replied base (perform s call) := by
  obtain ⟨reason, rfl | rfl⟩ := replies
  · exact pending.ack rfl reason
  · exact pending.ack rfl reason

theorem Pending.perform_silent (pending : Pending base s) {call : Call}
    (silent : ¬ Replies call) : Pending base (perform s call) := by
  cases call with
  | info reason => exact pending.info reason
  | okay reason => exact absurd ⟨reason, .inl rfl⟩ silent
  | fail reason => exact absurd ⟨reason, .inr rfl⟩ silent
  | register | publish => exact pending

theorem perform_idle (idle : s.state ≠ .command) (call : Call) :
    (perform s call).state = s.state ∧ (perform s call).log = s.log := by
  cases call with
  | info reason =>
    rw [show perform s (.info reason) = s from if_pos idle]
    exact ⟨rfl, rfl⟩
  | okay reason =>
    rw [show perform s (.okay reason) = s from if_pos idle]
    exact ⟨rfl, rfl⟩
  | fail reason =>
    rw [show perform s (.fail reason) = s from if_pos idle]
    exact ⟨rfl, rfl⟩
  | register | publish => exact ⟨rfl, rfl⟩

theorem calls_idle (idle : s.state ≠ .command) (calls : List Call) :
    (calls.foldl perform s).state = s.state ∧ (calls.foldl perform s).log = s.log := by
  induction calls generalizing s with
  | nil => exact ⟨rfl, rfl⟩
  | cons call rest ih =>
    obtain ⟨sameState, sameLog⟩ := perform_idle idle call
    have later := ih (by rwa [sameState])
    rwa [sameState, sameLog] at later

theorem Replied.calls (replied : Replied base s) (calls : List Call) :
    Replied base (calls.foldl perform s) := by
  have idle : s.state ≠ .command := by simp [replied.1]
  obtain ⟨sameState, sameLog⟩ := calls_idle idle calls
  rwa [Replied, sameState, sameLog]

theorem Pending.calls (pending : Pending base s) (calls : List Call) :
    ((∃ call ∈ calls, Replies call) ∧ Replied base (calls.foldl perform s)) ∨
      ((¬ ∃ call ∈ calls, Replies call) ∧ Pending base (calls.foldl perform s)) := by
  induction calls generalizing s with
  | nil => exact .inr ⟨by simp, pending⟩
  | cons call rest ih =>
    by_cases replies : Replies call
    · exact .inl ⟨⟨call, by simp, replies⟩, (pending.perform_replies replies).calls rest⟩
    · have later := ih (pending.perform_silent replies)
      simpa [replies] using later

/-- A handler that makes these calls within a command sends OKAY and nothing else. -/
def ReportsOkay (calls : List Call) : Prop :=
  ∀ s : Session, s.state = .command →
    ∃ info, (calls.foldl perform s).log = s.log ++ [.sent .okay info]

theorem reportsOkay_okay (info : Option Text) : ReportsOkay [.okay info] := by
  intro s active
  refine ⟨fit (info.getD []), ?_⟩
  simp [perform, fastbootOkay, fastbootAck, usbWrite, active]

theorem not_reportsOkay_fail (reason : Option Text) (rest : List Call) :
    ¬ ReportsOkay (.fail reason :: rest) := by
  intro okay
  have active : { opened [] [] 0 with state := .command }.state = FastbootState.command := rfl
  obtain ⟨info, sent⟩ := okay _ active
  rw [List.foldl_cons, (calls_idle (by exact nofun) rest).2] at sent
  cases sent

end Calls

def session : Served → Session
  | .returned s => s
  | .gone s => s

def Settles (base : List Event) (condition : Prop) (served : Served) : Prop :=
  (∃ codes, Appends base (session served).log codes ∧ (AnsweredOnce codes ↔ condition)) ∧
    ∀ s, served = .returned s → s.state ≠ .command

section Rounds

variable {base : List Event} {s : Session} {condition : Prop}

theorem conclude_returned (idle : s.state ≠ .command) : conclude (.returned s) = .returned s := by
  rw [conclude, if_neg idle]

theorem Replied.settles (replied : Replied base s) (met : condition) :
    Settles base condition (conclude (.returned s)) := by
  obtain ⟨finished, codes, grown, once⟩ := replied
  rw [conclude_returned (by simp [finished])]
  refine ⟨⟨codes, grown, by simp [once, met]⟩, ?_⟩
  rintro s' ⟨⟩
  simp [finished]

theorem Pending.settles (pending : Pending base s) (met : condition) :
    Settles base condition (conclude (.returned s)) := by
  have replied : Replied base (fastbootFail s (some "unknown reason".toList)) := pending.ack rfl _
  have idle : (fastbootFail s (some "unknown reason".toList)).state ≠ .command := by
    rw [replied.1]
    decide
  have failed := replied.settles met
  rw [conclude_returned idle] at failed
  rw [conclude, if_pos pending.1]
  exact failed

theorem Replied.settles_gone (replied : Replied base s) (met : condition) :
    Settles base condition (.gone s) := by
  obtain ⟨-, codes, grown, once⟩ := replied
  exact ⟨⟨codes, grown, by simp [once, met]⟩, by simp⟩

theorem Pending.settles_gone (pending : Pending base s) (unmet : ¬ condition) :
    Settles base condition (.gone s) := by
  obtain ⟨-, codes, grown, silent⟩ := pending
  exact ⟨⟨codes, grown, by simp [not_answeredOnce silent, unmet]⟩, by simp⟩

private theorem xferLength_le (len : Nat) : xferLength len ≤ len := by
  rw [xferLength]
  split <;> omega

private theorem usbReadLoop_le {len count total : Nat} {transfers : List Nat}
    (read : usbReadLoop len count transfers = some total) : total ≤ count + len := by
  induction transfers generalizing len count with
  | nil =>
    simp only [usbReadLoop] at read
    split at read
    · cases read
      omega
    · cases read
  | cons actual rest ih =>
    simp only [usbReadLoop] at read
    by_cases empty : len = 0
    · rw [if_pos empty] at read
      cases read
      omega
    · rw [if_neg empty] at read
      have bounded := xferLength_le len
      split at read
      · cases read
        omega
      · have later := ih read
        omega

private theorem read_complete_iff {len : BitVec 32} {count : Nat} (bound : count ≤ len.toNat) :
    ¬ ((BitVec.ofNat 32 count).toInt < 0 ∨ BitVec.ofNat 32 count ≠ len) ↔
      len.toNat < 2 ^ 31 ∧ count = len.toNat := by
  have faithful : (BitVec.ofNat 32 count).toNat = count := by
    exact Nat.mod_eq_of_lt (by omega)
  have same : BitVec.ofNat 32 count = len ↔ count = len.toNat := by
    rw [← BitVec.toNat_inj, faithful]
  rw [BitVec.toInt_neg_iff, faithful, not_or, not_ne_iff, same]
  omega

theorem Pending.download (pending : Pending base s) {arg : Text} {transfers : List Nat}
    {s' : Session} (ran : cmdDownload s arg transfers = some s') :
    Settles base
      (s.downloadMax < hex2unsigned arg ∨ ((hex2unsigned arg).toNat < 2 ^ 31 ∧
        usbReadLoop (hex2unsigned arg).toNat 0 transfers = some (hex2unsigned arg).toNat))
      (conclude (.returned s')) := by
  obtain ⟨active, codes, grown, silent⟩ := pending
  by_cases refused : s.downloadMax < hex2unsigned arg
  · rw [cmdDownload, if_pos refused] at ran
    cases ran
    have waiting : Pending base { s with downloadSize := 0 } := ⟨active, codes, grown, silent⟩
    exact (waiting.ack (show Code.terminal .fail = true from rfl) _).settles (.inl refused)
  · rw [cmdDownload, if_neg refused] at ran
    obtain ⟨r, read, rfl⟩ := Option.map_eq_some_iff.mp ran
    obtain ⟨count, counted, rfl⟩ := Option.map_eq_some_iff.mp read
    have announced : usbWrite { s with downloadSize := 0 } .data (hex8 (hex2unsigned arg)) =
        { s with
          downloadSize := 0
          log := s.log ++ [.sent .data (hex8 (hex2unsigned arg))] } := by
      simp [usbWrite, active]
    have sent := grown.snoc .data (hex8 (hex2unsigned arg))
    have unanswered : ∀ code ∈ codes ++ [Code.data], code.terminal = false :=
      List.forall_mem_append.mpr ⟨silent, by simp [Code.terminal]⟩
    have within : count ≤ (hex2unsigned arg).toNat := by simpa using usbReadLoop_le counted
    have complete := read_complete_iff within
    rw [announced, counted]
    split
    · rename_i lost
      refine ⟨⟨codes ++ [Code.data], sent, ?_⟩, ?_⟩
      · have unmet := mt complete.mpr (not_not.mpr lost)
        simp only [not_answeredOnce unanswered, Option.some.injEq, refused, false_or, unmet]
      · rintro s' ⟨⟩
        simp
    · rename_i kept
      have waiting : Pending base
          { s with
            downloadSize := hex2unsigned arg
            log := s.log ++ [.sent .data (hex8 (hex2unsigned arg))] } :=
        ⟨active, codes ++ [Code.data], sent, unanswered⟩
      refine (waiting.ack (show Code.terminal .okay = true from rfl) _).settles (.inr ?_)
      have met := complete.mp kept
      exact ⟨met.1, congrArg some met.2⟩

variable {round : Round}

theorem handle_settles {cmd : Command} {served : Served}
    (pending : Pending base s)
    (ran : handle s cmd (argument cmd round.packet) round = some served) :
    Settles base (HandlerAnswers s cmd round) (conclude served) := by
  rcases kind : cmd.handle with _ | _ | _
  · rw [handle, kind] at ran
    cases ran
    have replied : Replied base (cmdGetvar s (argument cmd round.packet)) := by
      rw [cmdGetvar]
      split
      · exact pending.ack rfl _
      · exact pending.ack rfl _
    refine replied.settles ?_
    rw [HandlerAnswers, kind]
    trivial
  · rw [handle, kind] at ran
    obtain ⟨s', downloaded, rfl⟩ := Option.map_eq_some_iff.mp ran
    rw [HandlerAnswers, kind]
    exact pending.download downloaded
  · rw [handle, kind] at ran
    cases ran
    rw [HandlerAnswers, kind]
    dsimp only
    rcases pending.calls round.calls with ⟨replies, replied⟩ | ⟨silent, waiting⟩
    · split
      · exact replied.settles (.inr replies)
      · exact replied.settles_gone (.inr replies)
    · split
      · rename_i returns
        exact waiting.settles (.inl returns)
      · rename_i stays
        exact waiting.settles_gone (not_or.mpr ⟨stays, silent⟩)

theorem serve_settles {served : Served} (idle : s.state ≠ .command)
    (ran : serve s round = some served) :
    Settles (s.log ++ [.received round.packet]) (Answers s round) served := by
  rw [serve] at ran
  rw [Answers]
  rcases found : lookup s round.packet with _ | cmd
  · rw [found] at ran
    cases ran
    rw [fastbootFail, fastbootAck_ignored (by exact idle)]
    refine ⟨⟨[], .refl _, ?_⟩, ?_⟩
    · simp only [iff_false]
      exact not_answeredOnce (by simp)
    · rintro s' ⟨⟩
      exact idle
  · rw [found] at ran
    obtain ⟨handled, run, rfl⟩ := Option.map_eq_some_iff.mp ran
    have waiting : Pending (s.log ++ [.received round.packet])
        { s with state := .command, log := s.log ++ [.received round.packet] } :=
      ⟨rfl, [], .refl _, by simp⟩
    have settled := handle_settles waiting run
    exact settled

theorem serve_none (waits : serve s round = none) : ¬ Answers s round := by
  rw [serve] at waits
  rw [Answers]
  rcases found : lookup s round.packet with _ | cmd
  · exact not_false
  · rw [found] at waits
    replace waits := Option.map_eq_none_iff.mp waits
    show ¬ HandlerAnswers s cmd round
    rw [HandlerAnswers]
    rcases kind : cmd.handle with _ | _ | _
    · rw [handle, kind] at waits
      cases waits
    · rw [handle, kind] at waits
      replace waits := Option.map_eq_none_iff.mp waits
      rw [cmdDownload] at waits
      dsimp only at waits ⊢
      split at waits
      · cases waits
      · rename_i accepted
        replace waits := Option.map_eq_none_iff.mp (Option.map_eq_none_iff.mp waits)
        rw [waits]
        simp [accepted]
    · rw [handle, kind] at waits
      cases waits

end Rounds

theorem handler_disciplined_iff {s : Session} (idle : s.state ≠ .command) (rounds : List Round) :
    (∃ s', fastbootHandler s rounds = some s' ∧ Disciplined s'.log) ↔
      Disciplined s.log ∧ AnswersAll s rounds := by
  induction rounds generalizing s with
  | nil => simp [fastbootHandler, AnswersAll]
  | cons round rest ih =>
    rw [fastbootHandler, AnswersAll]
    rcases ran : serve s round with _ | ⟨s' | s'⟩
    · simp [serve_none ran]
    · obtain ⟨⟨codes, grown, once⟩, closed⟩ := serve_settles idle ran
      have reentered : (reenter s').state ≠ .command := by
        rw [reenter]
        split
        · exact nofun
        · exact closed s' rfl
      have sameLog : (reenter s').log = s'.log := by
        rw [reenter]
        split <;> rfl
      have here := disciplined_received grown
      rw [once] at here
      simp only [ih reentered, sameLog, session] at here ⊢
      simp [here, and_assoc]
    · obtain ⟨⟨codes, grown, once⟩, -⟩ := serve_settles idle ran
      have here := disciplined_received grown
      rw [once] at here
      simp only [session] at here
      simp [here]

/-- Over every sequence of packets and every behaviour of the handlers: the rounds end,
each packet with exactly one terminal reply after its other packets, if and only if each
packet has a registered prefix and its command gets its reply. -/
theorem one_reply_per_packet (commands : List Command) (vars : List (Text × Text))
    (downloadMax : BitVec 32) (rounds : List Round) :
    (∃ s, fastbootHandler (opened commands vars downloadMax) rounds = some s ∧
      Disciplined s.log) ↔ AnswersAll (opened commands vars downloadMax) rounds := by
  have idle : (opened commands vars downloadMax).state ≠ .command := by
    exact nofun
  have silent : Disciplined (opened commands vars downloadMax).log := by
    simp [opened, Disciplined, groups]
  rw [handler_disciplined_iff idle]
  simp [silent]

def unknownPacket : Round where
  packet := "getvars".toList
  calls := []
  returns := true
  transfers := []
  short := by decide

theorem unknown_command_unanswered :
    ∃ s, fastbootHandler (fastbootInit (opened [] [] 0) 0x10000000) [unknownPacket] = some s ∧
      s.log = [.received "getvars".toList] ∧ ¬ Disciplined s.log := by
  refine ⟨_, rfl, rfl, ?_⟩
  rintro ⟨-, answered⟩
  obtain ⟨before, last, empty, -⟩ := answered [] (by decide)
  simp at empty

end AndroidBoot.Aboot.FastbootReplies
