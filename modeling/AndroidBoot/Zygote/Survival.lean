/- source: ZygoteInit/ZygoteConnection.java, ZygoteInit.java
   digest: Which requests are answered or closed, and which one ends the zygote. -/

import AndroidBoot.Zygote.Confinement
import AndroidBoot.Zygote.SelectLoop

set_option autoImplicit false

namespace AndroidBoot.Zygote.Survival

open Foundation.JavaText SpawnArguments SpawnRequest SelectLoop

/-- Only exceptions that `runOnce` catches. -/
def Benign {α : Type} (x : Except Thrown α) : Prop :=
  ∀ exception, x = .error exception → caught exception = true

section Exceptions

variable {others : OtherDigits} {world : World} {peer : Peer} {args : Arguments} {α : Type}

theorem benign_ok (value : α) : Benign (.ok value) := nofun

theorem benign_error {exception : Thrown} (known : caught exception = true) :
    Benign (.error exception : Except Thrown α) := by
  rintro other thrown
  cases thrown
  exact known

theorem Benign.map {α β : Type} {x : Except Thrown α} (benign : Benign x) (f : α → β) :
    Benign (x.map f) := by
  cases x with
  | error exception => exact benign_error (benign exception rfl)
  | ok value => exact benign_ok _

theorem Benign.bind {α β : Type} {x : Except Thrown α} {f : α → Except Thrown β}
    (benign : Benign x) (each : ∀ value, Benign (f value)) : Benign (x >>= f) := by
  intro exception thrown
  obtain first | ⟨value, -, later⟩ := bind_throws thrown
  · exact benign exception first
  · exact each value exception later

theorem Benign.ite {p : Prop} [Decidable p] {x y : Except Thrown α} (first : Benign x)
    (second : Benign y) : Benign (if p then x else y) := by
  split
  · exact first
  · exact second

theorem Benign.once {x : Except Thrown α} (benign : Benign x) (specified : Bool)
    (message : String) : Benign (SpawnArguments.once specified message x) :=
  Benign.ite (benign_error rfl) benign

theorem benign_parseIntArg (s : Text) : Benign (parseIntArg others s) := by
  unfold parseIntArg
  split
  · exact benign_ok _
  · exact benign_error rfl

theorem benign_decodeLongArg (s : Text) : Benign (decodeLongArg others s) := by
  unfold decodeLongArg
  split
  · exact benign_ok _
  · exact benign_error rfl

theorem benign_mapM_parseIntArg (values : List Text) :
    Benign (values.mapM (parseIntArg others)) := by
  induction values with
  | nil => exact benign_ok _
  | cons value values ih =>
    rw [List.mapM_cons]
    exact (benign_parseIntArg value).bind fun _ => ih.bind fun _ => benign_ok _

theorem benign_parseCapabilities (value : Text) : Benign (parseCapabilities others value) := by
  unfold parseCapabilities
  split
  · exact (benign_decodeLongArg _).map _
  · apply (benign_decodeLongArg _).bind
    intro permitted
    apply (benign_decodeLongArg _).bind
    intro effective
    exact benign_ok _
  · exact benign_error rfl

theorem benign_parseRlimit (value : Text) : Benign (parseRlimit others value) := by
  unfold parseRlimit
  split
  · exact benign_error rfl
  · exact benign_mapM_parseIntArg _

private theorem benign_branch {p : Prop} [Decidable p] {here : Except Thrown Arguments}
    {others : Option (Except Thrown Arguments)} (benign : Benign here)
    (rest : ∀ parsed, others = some parsed → Benign parsed) :
    ∀ parsed, (if p then some here else others) = some parsed → Benign parsed := by
  intro parsed found
  split at found
  · cases found
    exact benign
  · exact rest parsed found

theorem benign_parseOption (arg : Text) :
    ∀ parsed, parseOption others args arg = some parsed → Benign parsed := by
  have number (specified : Bool) (message : String) (f : Int → Arguments) :
      Benign (SpawnArguments.once specified message ((parseIntArg others (valueOf arg)).map f)) :=
    ((benign_parseIntArg _).map f).once specified message
  apply benign_branch (number _ _ _)
  apply benign_branch (number _ _ _)
  apply benign_branch (number _ _ _)
  apply benign_branch (benign_ok _)
  apply benign_branch (benign_ok _)
  apply benign_branch (benign_ok _)
  apply benign_branch (benign_ok _)
  apply benign_branch (benign_ok _)
  apply benign_branch (benign_ok _)
  apply benign_branch ((benign_ok _).once _ _)
  apply benign_branch (((benign_parseCapabilities _).map _).once _ _)
  apply benign_branch ((benign_parseRlimit _).map _)
  apply benign_branch (((benign_mapM_parseIntArg _).map _).once _ _)
  apply benign_branch ((benign_ok _).once _ _)
  apply benign_branch (benign_ok _)
  apply benign_branch (benign_ok _)
  intro parsed found
  cases found

theorem benign_finish (remaining : List Text) : Benign (finish args remaining) :=
  Benign.ite (benign_error rfl) (benign_ok _)

theorem benign_parseArgs (request : List Text) : Benign (parseArgs others args request) := by
  -- along the parser's own recursion: an option takes one argument or two
  fun_induction parseArgs others args request with
  | case1 args => exact benign_finish _
  | case2 args rest => exact benign_finish _
  | case3 args rest => exact benign_error rfl
  | case4 args => exact benign_error rfl
  | case5 args _ _ value rest ih => exact ih
  | case6 args rest => exact benign_error rfl
  | case7 args => exact benign_error rfl
  | case8 args _ _ _ value rest ih => exact ih
  | case9 args arg rest => exact benign_finish _
  | case10 args arg rest _ _ _ exception found =>
    exact benign_error (benign_parseOption arg _ found exception rfl)
  | case11 args arg rest _ _ _ next found ih => exact ih

theorem benign_applyUidSecurityPolicy : Benign (applyUidSecurityPolicy world peer args) := by
  apply Benign.ite (benign_error rfl)
  apply Benign.ite (benign_error rfl)
  apply Benign.ite (benign_error rfl)
  exact benign_ok _

theorem benign_applyRlimitSecurityPolicy : Benign (applyRlimitSecurityPolicy world peer args) := by
  apply Benign.ite (benign_error rfl)
  apply Benign.ite (benign_error rfl)
  exact benign_ok _

theorem benign_applyCapabilitiesSecurityPolicy :
    Benign (applyCapabilitiesSecurityPolicy world peer args) := by
  apply Benign.ite (benign_ok _)
  apply Benign.ite (benign_error rfl)
  apply Benign.ite (benign_ok _)
  apply Benign.ite (benign_error rfl)
  apply Benign.ite (benign_error rfl)
  apply Benign.ite (benign_error rfl)
  exact benign_ok _

theorem benign_applyInvokeWithSecurityPolicy :
    Benign (applyInvokeWithSecurityPolicy world peer args) :=
  Benign.ite (benign_error rfl) (benign_ok _)

theorem benign_applyseInfoSecurityPolicy : Benign (applyseInfoSecurityPolicy world peer args) := by
  apply Benign.ite (benign_ok _)
  apply Benign.ite (benign_error rfl)
  apply Benign.ite (benign_error rfl)
  exact benign_ok _

theorem benign_openPipe : Benign (openPipe world args) := by
  refine Benign.ite ?_ (benign_ok _)
  apply Benign.ite (benign_error rfl)
  apply Benign.ite (benign_error rfl)
  exact benign_ok _

theorem benign_prepare (request : List Text) : Benign (prepare world peer request) := by
  apply (benign_parseArgs request).bind
  intro parsed
  apply benign_applyUidSecurityPolicy.bind
  intro owned
  apply benign_applyRlimitSecurityPolicy.bind
  intro limited
  apply benign_applyCapabilitiesSecurityPolicy.bind
  intro capable
  apply benign_applyInvokeWithSecurityPolicy.bind
  intro unwrapped
  apply benign_applyseInfoSecurityPolicy.bind
  intro labelled
  exact benign_openPipe

end Exceptions

theorem readArguments_io (argc : Nat) (reader : Reader) {exception : Thrown}
    (thrown : readArguments argc reader = .thrown exception) : ∃ message, exception = .io message := by
  induction argc generalizing reader with
  | zero => cases thrown
  | succ argc ih =>
    unfold readArguments at thrown
    split at thrown
    · cases thrown
      exact ⟨_, rfl⟩
    · cases thrown
      exact ⟨_, rfl⟩
    · split at thrown
      · cases thrown
      · exact ih _ thrown

theorem readArgumentList_thrown {others : OtherDigits} {reader : Reader} {exception : Thrown}
    (thrown : readArgumentList others reader = .thrown exception) :
    (∃ message, exception = .io message) ∨ exception = .negativeArraySize := by
  unfold readArgumentList at thrown
  split at thrown
  · cases thrown
  · cases thrown
    exact .inl ⟨_, rfl⟩
  · split at thrown
    · cases thrown
      exact .inl ⟨_, rfl⟩
    · split at thrown
      · cases thrown
        exact .inl ⟨_, rfl⟩
      · split at thrown
        · cases thrown
          exact .inr rfl
        · exact .inl (readArguments_io _ _ thrown)

def Announces (world : World) (connection : Connection) (argc : Int) (rest : Reader) : Prop :=
  ∃ s, connection.reader.readLine = .line s rest ∧ parseInt world.otherDigits s = some argc

/-- The whole of a request arrives, with its descriptors. -/
def Complete (world : World) (connection : Connection) : Prop :=
  ∃ argc rest args left, Announces world connection argc rest ∧ 0 ≤ argc ∧ argc ≤ maxZygoteArgc ∧
    readArguments argc.toNat rest = .arguments args left ∧ world.descriptors.isSome

/-- The call ends with a reply or with the connection closed. -/
def Settled (served : Served) : Prop :=
  (∃ pid usingWrapper, served.ending = .replied pid usingWrapper) ∨
    (served.ending = .closed ∧ served.connection.closed = true)

/-- What the code asks of a request and its reader. -/
def Sane (world : World) (connection : Connection) : Prop :=
  (∀ argc rest, Announces world connection argc rest → 0 ≤ argc) ∧
    (Complete world connection → world.replies = true)

section Call

variable {world : World} {connection : Connection}

theorem settled_closed (forked : Option Arguments) :
    Settled ⟨forked, .closed, closeSocket connection⟩ :=
  .inr ⟨rfl, rfl⟩

theorem settled_handleParentProc_iff (forked : Option Arguments) (pid : Int) (piped : Bool) :
    Settled ⟨forked, handleParentProc world pid piped, connection⟩ ↔ world.replies = true := by
  unfold handleParentProc Settled
  dsimp only
  split
  · rename_i writes
    exact ⟨fun _ => writes, fun _ => .inl ⟨_, _, rfl⟩⟩
  · rename_i fails
    constructor
    · rintro (⟨pid, usingWrapper, replied⟩ | ⟨closed, -⟩)
      · cases replied
      · cases closed
    · intro writes
      exact absurd writes fails

theorem complete_iff : Complete world connection ↔
    (∃ args left, readArgumentList world.otherDigits connection.reader = .arguments args left) ∧
      world.descriptors.isSome := by
  constructor
  · rintro ⟨argc, rest, args, left, ⟨s, line, count⟩, counted, few, read, described⟩
    refine ⟨⟨args, left, ?_⟩, described⟩
    simp only [readArgumentList, line, count]
    rw [if_neg (by omega), if_neg (by omega), read]
  · rintro ⟨⟨args, left, read⟩, described⟩
    unfold readArgumentList at read
    split at read
    · cases read
    · cases read
    · rename_i s rest line
      split at read
      · cases read
      · rename_i argc count
        split at read
        · cases read
        · split at read
          · cases read
          · exact ⟨argc, rest, args, left, ⟨s, line, count⟩, by omega, by omega, read, described⟩

theorem counted_iff : (∀ argc rest, Announces world connection argc rest → 0 ≤ argc) ↔
    readArgumentList world.otherDigits connection.reader ≠ .thrown .negativeArraySize := by
  constructor
  · intro counted thrown
    unfold readArgumentList at thrown
    split at thrown
    · cases thrown
    · cases thrown
    · rename_i s rest line
      split at thrown
      · cases thrown
      · rename_i argc count
        have := counted argc rest ⟨s, line, count⟩
        split at thrown
        · cases thrown
        · split at thrown
          · omega
          · obtain ⟨message, other⟩ := readArguments_io _ _ thrown
            cases other
  · rintro fine argc rest ⟨s, line, count⟩
    by_contra negative
    refine fine ?_
    simp only [readArgumentList, line, count]
    rw [if_neg (by unfold maxZygoteArgc; omega), if_pos (by omega)]

/-- What a call does with its connection: without a complete request it closes the socket, or
throws for a negative count; with one it forks and replies. -/
theorem runOnce_cases (world : World) (connection : Connection) : ∃ reader,
    (¬ Complete world connection ∧
      (((∀ argc rest, Announces world connection argc rest → 0 ≤ argc) ∧
        runOnce world connection = ⟨none, .closed, closeSocket { connection with reader }⟩) ∨
      (¬ (∀ argc rest, Announces world connection argc rest → 0 ≤ argc) ∧
        runOnce world connection =
          ⟨none, .thrown .negativeArraySize, { connection with reader }⟩))) ∨
    (Complete world connection ∧
      (∀ argc rest, Announces world connection argc rest → 0 ≤ argc) ∧
      ((∃ args, runOnce world connection = ⟨some args,
          if world.fork = 0 then .child args else handleParentProc world world.fork
            (args.runtimeInit && args.invokeWith.isSome), { connection with reader }⟩) ∨
        runOnce world connection =
          ⟨none, handleParentProc world (-1) false, { connection with reader }⟩)) := by
  rw [complete_iff, counted_iff]
  unfold runOnce
  rcases read : readArgumentList world.otherDigits connection.reader with
    ⟨args, left⟩ | _ | exception
  · refine ⟨left, ?_⟩
    rcases described : world.descriptors with _ | descriptors
    · exact .inl ⟨nofun, .inl ⟨nofun, rfl⟩⟩
    refine .inr ⟨⟨⟨args, left, rfl⟩, rfl⟩, nofun, ?_⟩
    dsimp only
    rcases prepared : prepare world connection.peer args with exception | parsed
    · simp only [benign_prepare args exception prepared, if_true]
      exact .inr trivial
    · refine .inl ⟨parsed, ?_⟩
      dsimp only
      split
      · rfl
      · rfl
  · exact ⟨connection.reader, .inl ⟨nofun, .inl ⟨nofun, rfl⟩⟩⟩
  · refine ⟨connection.reader, .inl ⟨nofun, ?_⟩⟩
    rcases readArgumentList_thrown read with ⟨message, rfl⟩ | rfl
    · exact .inl ⟨nofun, rfl⟩
    · exact .inr ⟨fun other => other rfl, rfl⟩

theorem settled_iff_sane (parent : world.fork ≠ 0) :
    Settled (runOnce world connection) ↔ Sane world connection := by
  obtain ⟨reader, ⟨incomplete, ⟨counted, closed⟩ | ⟨negative, thrown⟩⟩ |
    ⟨complete, counted, ⟨args, forked⟩ | failed⟩⟩ := runOnce_cases world connection
  · rw [closed]
    exact iff_of_true (settled_closed none) ⟨counted, fun complete => absurd complete incomplete⟩
  · rw [thrown]
    refine iff_of_false ?_ fun sane => negative sane.1
    rintro (⟨pid, usingWrapper, replied⟩ | ⟨closed, -⟩)
    · cases replied
    · cases closed
  · rw [forked, if_neg parent, settled_handleParentProc_iff]
    exact ⟨fun replies => ⟨counted, fun _ => replies⟩, fun sane => sane.2 complete⟩
  · rw [failed, settled_handleParentProc_iff]
    exact ⟨fun replies => ⟨counted, fun _ => replies⟩, fun sane => sane.2 complete⟩

end Call

/-- A call of `runOnce` in the parent ends with a reply or with the connection closed, and
then no exception of it ends the zygote, just when the request does not begin with a
negative count and the reply to a complete request can be written. -/
theorem requests_settled_iff (world : World) (connection : Connection) (parent : world.fork ≠ 0) :
    (Settled (runOnce world connection) ∧
      ∀ loop index, loop.peers[index]? = some (some connection) →
        ∀ cause, serve loop index world ≠ .died cause) ↔
    Sane world connection := by
  rw [← settled_iff_sane parent]
  constructor
  · intro both
    exact both.1
  · intro settled
    refine ⟨settled, fun loop index served cause => ?_⟩
    simp only [serve, served]
    rcases settled with ⟨pid, usingWrapper, replied⟩ | ⟨closed, -⟩
    · simp [replied]
    · simp [closed]

theorem requests_settled_iff_main :
    Settled (runOnce Confinement.permissive Confinement.applicationRequest) := by
  have sane : Sane Confinement.permissive Confinement.applicationRequest :=
    ⟨counted_iff.mpr nofun, fun _ => rfl⟩
  exact ((requests_settled_iff Confinement.permissive Confinement.applicationRequest
    (by decide)).mpr sane).1

def negativeCount : Connection :=
  { Confinement.applicationRequest with reader := ⟨text "-1\n", .eof⟩ }

theorem negative_count_kills :
    let loop : Loop := ⟨[3, 5], [none, some negativeCount], [some 3, some 5, none, none]⟩
    (runOnce Confinement.permissive negativeCount).ending = .thrown .negativeArraySize ∧
      step loop (.readable 1 Confinement.permissive) =
        some (.died (.request .negativeArraySize)) := by
  constructor
  · decide +kernel
  · rfl

end AndroidBoot.Zygote.Survival
