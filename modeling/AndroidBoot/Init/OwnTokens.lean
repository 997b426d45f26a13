/- source: init/init/init_parser.c, init/init/builtins.c
   digest: Which lines of an rc file are read from their own tokens alone. -/

import AndroidBoot.Init.ConfigParser

/-!
Two parses are compared that have different entries in `args` behind the tokens of a line, and
different memory behind the arguments of a stored command. What is seen of a stored command is its
function, its count and the arguments the function reads when it is run.
-/

set_option autoImplicit false

namespace AndroidBoot.Init.OwnTokens

open State (Text)
open Tokenizer (Token)
open Keywords ConfigParser

section Seen

/-- `struct command`, with the keyword for its `func`, in memory that goes on behind it. -/
structure Stored where
  keyword : Keyword
  nargs : Nat
  args : Nat → Text

/-- The `malloc` and the `memcpy` of `nargs` arguments; `beyond` is the memory behind them. -/
def stored (beyond : Nat → Text) (kw : Keyword) (nargs : Nat) (args : Nat → Text) : Stored :=
  ⟨kw, nargs, fun i => if i < nargs then args i else beyond i⟩

structure Seen where
  keyword : Keyword
  nargs : Nat
  read : List Text
  deriving DecidableEq

def Stored.seen (cmd : Stored) : Seen :=
  ⟨cmd.keyword, cmd.nargs, ((keywordInfo cmd.keyword).func cmd.nargs).map cmd.args⟩

def results (p : Config Stored) : Config Seen := p.map Stored.seen

def see (beyond : Nat → Text) (kw : Keyword) (nargs : Nat) (args : Nat → Text) : Seen :=
  (stored beyond kw nargs args).seen

theorem results_endLine (lib : Library) (beyond : Nat → Text) (p : Config Stored) (nargs : Nat)
    (args : Nat → Text) :
    results (endLine lib (stored beyond) p nargs args).1 =
      (endLine lib (see beyond) (results p) nargs args).1 :=
  (congrArg Prod.fst (endLine_map Stored.seen p)).symm

def lay (tokens : List Text) (left : Nat → Text) (i : Nat) : Text := tokens.getD i (left i)

def Agree (nargs : Nat) (args other : Nat → Text) : Prop := ∀ i < nargs, args i = other i

theorem agree_lay (tokens : List Text) (left other : Nat → Text) :
    Agree tokens.length (lay tokens left) (lay tokens other) := by
  intro i below
  simp [lay, List.getElem?_eq_getElem below]

end Seen

section Stray

/-- A command line that is accepted with fewer arguments than its function reads. -/
def Short : List Text → Prop
  | [] => False
  | word :: rest => Overruns (lookupKeyword word) (rest.length + 1)

/-- The lines that take something from behind their tokens: `setenv` with a name and no value in
a service, and short commands, in an action or behind `onrestart`. -/
def Stray {C : Type} : Context C → List Text → Prop
  | .service _, word :: rest =>
    lookupKeyword word = .kSetenv ∧ rest.length = 1 ∨
      lookupKeyword word = .kOnrestart ∧ Short rest
  | .action _, tokens => Short tokens
  | _, _ => False

instance (tokens : List Text) : Decidable (Short tokens) :=
  match tokens with
  | [] => inferInstanceAs (Decidable False)
  | _ :: _ => inferInstanceAs (Decidable (Overruns _ _))

instance {C : Type} (context : Context C) (tokens : List Text) :
    Decidable (Stray context tokens) :=
  match context, tokens with
  | .service _, _ :: _ => inferInstanceAs (Decidable (_ ∨ _))
  | .action _, tokens => inferInstanceAs (Decidable (Short tokens))
  | .noOp, [] => inferInstanceAs (Decidable False)
  | .noOp, _ :: _ => inferInstanceAs (Decidable False)
  | .service _, [] => inferInstanceAs (Decidable False)

theorem stray_map {C D : Type} (f : C → D) (context : Context C) (tokens : List Text) :
    Stray (context.map f) tokens ↔ Stray context tokens := by
  cases context <;> cases tokens <;> exact Iff.rfl

end Stray

section Congr

variable {C : Type} {lib : Library} {nargs : Nat} {args other : Nat → Text}

section Agree

variable (same : Agree nargs args other)
include same

theorem slice_congr (first : Nat) : slice args first nargs = slice other first nargs := by
  refine List.map_congr_left fun i member => ?_
  have between := List.mem_range'_1.mp member
  exact same i (by omega)

theorem parseService_congr (services : List (Service C)) :
    parseService services nargs args = parseService services nargs other := by
  unfold parseService
  split
  · rfl
  · next enough =>
    rw [same 1 (by omega), slice_congr same]

theorem parseAction_congr :
    (parseAction nargs args : Except Message (Action C)) = parseAction nargs other := by
  unfold parseAction
  split
  · rfl
  · next enough =>
    rw [same 1 (by omega)]

theorem parseImport_congr (p : Config C) :
    parseImport lib p nargs args = parseImport lib p nargs other := by
  unfold parseImport
  split
  · rfl
  · next two =>
    rw [same 1 (by omega)]

theorem parseNewSection_congr (p : Config C) (kw : Keyword) :
    parseNewSection lib p kw nargs args = parseNewSection lib p kw nargs other := by
  unfold parseNewSection
  rw [parseService_congr same, parseAction_congr same, parseImport_congr same]

end Agree

theorem parseIoprio_congr (same : Agree 3 args other) (svc : Service C) :
    parseIoprio lib svc args = parseIoprio lib svc other := by
  unfold parseIoprio
  rw [same 1 (by decide), same 2 (by decide)]

theorem parseSocket_congr (same : Agree nargs args other) (enough : 4 ≤ nargs) (svc : Service C) :
    parseSocket lib svc nargs args = parseSocket lib svc nargs other := by
  have uid : (if 4 < nargs then lib.decodeUid (args 4) else 0) =
      if 4 < nargs then lib.decodeUid (other 4) else 0 :=
    ite_congr rfl (fun more => by rw [same 4 more]) fun _ => rfl
  have gid : (if 5 < nargs then lib.decodeUid (args 5) else 0) =
      if 5 < nargs then lib.decodeUid (other 5) else 0 :=
    ite_congr rfl (fun more => by rw [same 5 more]) fun _ => rfl
  unfold parseSocket
  rw [same 1 (by omega), same 2 (by omega), same 3 (by omega), uid, gid]

variable {beyond behind : Nat → Text}

theorem see_congr (same : Agree nargs args other) {kw : Keyword}
    (within : Within (keywordInfo kw).func nargs) :
    see beyond kw nargs args = see behind kw nargs other := by
  have read : ((keywordInfo kw).func nargs).map (stored beyond kw nargs args).args =
      ((keywordInfo kw).func nargs).map (stored behind kw nargs other).args := by
    refine List.map_congr_left fun i member => ?_
    have below := within i member
    simp only [stored, if_pos below]
    exact same i below
  exact congrArg (Seen.mk kw nargs) read

theorem parseCommand_congr (same : Agree nargs args other) (some_ : 0 < nargs)
    (enough : ¬ Overruns (lookupKeyword (args 0)) nargs) :
    parseCommand (see beyond) nargs args = parseCommand (see behind) nargs other := by
  unfold parseCommand
  rw [← same 0 some_]
  dsimp only
  split
  · rfl
  · next command_ =>
    split
    · rfl
    · next counted =>
      have within := (within_iff (not_not.mp command_) (Nat.le_of_not_lt counted)).mpr enough
      rw [see_congr same within]

theorem parseCommand_none (store : Keyword → Nat → (Nat → Text) → C) (args : Nat → Text) :
    ∃ message, parseCommand store 0 args = .error message := by
  unfold parseCommand
  dsimp only
  split
  · exact ⟨_, rfl⟩
  · next command_ =>
    rw [if_pos (nargs_pos (not_not.mp command_))]
    exact ⟨_, rfl⟩

/-- The line is not one of the two kinds that need more than their words. -/
structure Enough (nargs : Nat) (args : Nat → Text) : Prop where
  setenv : lookupKeyword (args 0) = .kSetenv → nargs ≠ 2
  onrestart : lookupKeyword (args 0) = .kOnrestart → 2 ≤ nargs →
    ¬ Overruns (lookupKeyword (args 1)) (nargs - 1)

theorem parseOption_congr (same : Agree nargs args other) (some_ : 0 < nargs)
    (enough : Enough nargs args) (svc : Service Seen) :
    (parseOption lib (see beyond) svc nargs args).1 =
      (parseOption lib (see behind) svc nargs other).1 := by
  unfold parseOption
  rw [← same 0 some_]
  split
  case h_2 | h_13 | h_14 =>
    split
    · rfl
    · rw [same 1 (by omega)]
  case h_5 =>
    split
    · rfl
    · next three =>
      rw [parseIoprio_congr fun i below => same i (by omega)]
  case h_6 =>
    split
    · rfl
    · rw [same 1 (by omega), slice_congr same]
  case h_7 => rw [slice_congr same]
  case h_9 keyword =>
    rcases Nat.lt_or_ge nargs 2 with bare | more
    · obtain rfl : nargs = 1 := by omega
      obtain ⟨first, none_⟩ := parseCommand_none (see beyond) fun i => args (i + 1)
      obtain ⟨second, nothing⟩ := parseCommand_none (see behind) fun i => other (i + 1)
      rw [show 1 - 1 = 0 from rfl, none_, nothing]
    · have words : Agree (nargs - 1) (fun i => args (i + 1)) fun i => other (i + 1) :=
        fun i below => same (i + 1) (by omega)
      rw [parseCommand_congr words (by omega) (enough.onrestart keyword more)]
  case h_11 keyword =>
    split
    · rfl
    · have three := enough.setenv keyword
      rw [same 1 (by omega), same 2 (by omega)]
  case h_12 =>
    split
    · rfl
    · rw [parseSocket_congr same (by omega)]
  all_goals rfl

end Congr

section Lines

variable {lib : Library} {word : Text} {rest : List Text}

theorem enough_of_not_stray {C : Type} {svc : Service C}
    (fine : ¬ Stray (.service svc) (word :: rest)) (left : Nat → Text) :
    Enough (word :: rest).length (lay (word :: rest) left) := by
  refine ⟨fun keyword two => fine (.inl ⟨keyword, Nat.succ.inj two⟩), fun keyword more => ?_⟩
  cases rest with
  | nil => exact absurd more (Nat.not_succ_le_self 1)
  | cons command_ words => exact fun overruns => fine (.inr ⟨keyword, overruns⟩)

section Contexts

variable {C : Type} {store : Keyword → Nat → (Nat → Text) → C} {p : Config C} {nargs : Nat}
  {args : Nat → Text}

theorem endLine_service {svc : Service C} (context : p.context = .service svc)
    (inside : (keywordInfo (lookupKeyword (args 0))).flags ≠ .heading) (some_ : 0 < nargs) :
    (endLine lib store p nargs args).1 =
      { p with
        context :=
          .service (parseOption lib store { svc with ioprioClass := .none } nargs args).1 } := by
  simp only [endLine, if_neg inside, parseLine, context, parseLineService,
    if_neg (Nat.pos_iff_ne_zero.mp some_)]

theorem endLine_action {act : Action C} (context : p.context = .action act)
    (inside : (keywordInfo (lookupKeyword (args 0))).flags ≠ .heading) :
    (endLine lib store p nargs args).1 =
      { p with context := .action (parseLineAction store act nargs args).1 } := by
  simp only [endLine, if_neg inside, parseLine, context]

end Contexts

theorem endLine_congr (lib : Library) {q : Config Seen} (fine : ¬ Stray q.context (word :: rest))
    (left other beyond behind : Nat → Text) :
    (endLine lib (see beyond) q (word :: rest).length (lay (word :: rest) left)).1 =
      (endLine lib (see behind) q (word :: rest).length (lay (word :: rest) other)).1 := by
  have some_ : 0 < (word :: rest).length := Nat.succ_pos _
  have same := agree_lay (word :: rest) left other
  have first (left : Nat → Text) : lay (word :: rest) left 0 = word := rfl
  by_cases inside : (keywordInfo (lookupKeyword word)).flags = .heading
  · simp only [endLine, first, if_pos inside]
    exact congrArg Prod.fst (parseNewSection_congr same q (lookupKeyword word))
  · cases context : q.context with
    | noOp =>
      simp only [endLine, first, if_neg inside, parseLine, context]
    | service svc =>
      rw [context] at fine
      rw [endLine_service context inside some_, endLine_service context inside some_,
        parseOption_congr same some_ (enough_of_not_stray fine left)]
    | action act =>
      rw [context] at fine
      rw [endLine_action context inside, endLine_action context inside]
      simp only [parseLineAction]
      rw [parseCommand_congr same some_ fine]

theorem parseCommand_short (args other : Nat → Text) {nargs : Nat} (some_ : 0 < nargs)
    (first : args 0 = other 0) (overruns : Overruns (lookupKeyword (args 0)) nargs) :
    ∃ one two, parseCommand (see fun _ => []) nargs args = .ok one ∧
      parseCommand (see fun _ => ['x']) nargs other = .ok two ∧ one ≠ two := by
  obtain ⟨command_, counted⟩ : (keywordInfo (lookupKeyword (args 0))).flags = .command ∧
      (keywordInfo (lookupKeyword (args 0))).nargs ≤ nargs := by
    rcases overruns with ⟨symlink, two⟩ | ⟨setkey, -⟩
    · rw [symlink, two]
      exact ⟨rfl, Nat.le_refl 2⟩
    · rw [setkey]
      exact ⟨rfl, some_⟩
  refine ⟨see (fun _ => []) (lookupKeyword (args 0)) nargs args,
    see (fun _ => ['x']) (lookupKeyword (args 0)) nargs other, ?_, ?_, ?_⟩
  · simp only [parseCommand, if_neg (not_not.mpr command_), if_neg (Nat.not_lt.mpr counted)]
  · simp only [parseCommand, ← first, if_neg (not_not.mpr command_),
      if_neg (Nat.not_lt.mpr counted)]
  · intro same
    refine (within_iff command_ counted).mp ?_ overruns
    intro i member
    by_contra past
    have read := List.map_inj_left.mp (congrArg Seen.read same) i member
    simp only [stored, if_neg past] at read
    exact absurd read (by decide)

/-- What the line leaves to see is the same for all entries behind its tokens and all memory
behind the arguments of its command. -/
def ReadAlone (lib : Library) (p : Config Stored) (tokens : List Text) : Prop :=
  ∀ left other beyond behind : Nat → Text,
    results (endLine lib (stored beyond) p tokens.length (lay tokens left)).1 =
      results (endLine lib (stored behind) p tokens.length (lay tokens other)).1

theorem readAlone_of_not_stray {p : Config Stored} (fine : ¬ Stray p.context (word :: rest)) :
    ReadAlone lib p (word :: rest) := by
  intro left other beyond behind
  rw [results_endLine, results_endLine]
  exact endLine_congr lib (fun stray => fine ((stray_map _ _ _).mp stray)) left other beyond behind

theorem parseOption_setenv {C : Type} {store : Keyword → Nat → (Nat → Text) → C}
    {svc : Service C} {args : Nat → Text} (keyword : lookupKeyword (args 0) = .kSetenv) :
    (parseOption lib store svc 2 args).1 =
      { svc with envvars := (args 1, args 2) :: svc.envvars } := by
  simp only [parseOption, keyword]
  rfl

theorem parseOption_onrestart {C : Type} {store : Keyword → Nat → (Nat → Text) → C}
    {svc : Service C} {nargs : Nat} {args : Nat → Text} {cmd : C}
    (keyword : lookupKeyword (args 0) = .kOnrestart)
    (accepted : parseCommand store (nargs - 1) (fun i => args (i + 1)) = .ok cmd) :
    (parseOption lib store svc nargs args).1 =
      { svc with onrestart := svc.onrestart ++ [cmd] } := by
  simp [parseOption, keyword, accepted]

theorem not_readAlone_of_stray {p : Config Stored} (stray : Stray p.context (word :: rest)) :
    ¬ ReadAlone lib p (word :: rest) := by
  intro alone
  have same := alone (fun _ => []) (fun _ => ['x']) (fun _ => []) (fun _ => ['x'])
  rw [results_endLine, results_endLine] at same
  have stray : Stray (results p).context (word :: rest) := (stray_map Stored.seen _ _).mpr stray
  have some_ : 0 < (word :: rest).length := Nat.succ_pos _
  cases context : (results p).context with
  | noOp =>
    rw [context] at stray
    exact stray
  | service svc =>
    rw [context] at stray
    have inside : (keywordInfo (lookupKeyword word)).flags ≠ .heading := by
      rcases stray with ⟨keyword, -⟩ | ⟨keyword, -⟩ <;> rw [keyword] <;> decide
    rw [endLine_service context inside some_, endLine_service context inside some_] at same
    have record := Context.service.inj (congrArg Config.context same)
    rcases stray with ⟨keyword, two⟩ | ⟨keyword, short⟩
    · rw [show (word :: rest).length = 2 from congrArg Nat.succ two, parseOption_setenv keyword,
        parseOption_setenv keyword] at record
      have entry := (List.cons.inj (congrArg Service.envvars record)).1
      have value : lay (word :: rest) (fun _ => []) 2 = lay (word :: rest) (fun _ => ['x']) 2 :=
        congrArg Prod.snd entry
      obtain ⟨name, rfl⟩ := List.length_eq_one_iff.mp two
      exact absurd value (by simp [lay])
    · cases rest with
      | nil => exact short
      | cons command_ words =>
        obtain ⟨one, two, left, right, apart⟩ := parseCommand_short
          (fun i => lay (word :: command_ :: words) (fun _ => []) (i + 1))
          (fun i => lay (word :: command_ :: words) (fun _ => ['x']) (i + 1))
          (Nat.succ_pos words.length) rfl short
        rw [parseOption_onrestart keyword left, parseOption_onrestart keyword right] at record
        have commands := List.append_cancel_left (congrArg Service.onrestart record)
        exact apart (List.cons.inj commands).1
  | action act =>
    rw [context] at stray
    have inside : (keywordInfo (lookupKeyword word)).flags ≠ .heading := by
      rcases stray with ⟨keyword, -⟩ | ⟨keyword, -⟩ <;> rw [keyword] <;> decide
    obtain ⟨one, two, left, right, apart⟩ := parseCommand_short (lay (word :: rest) fun _ => [])
      (lay (word :: rest) fun _ => ['x']) some_ rfl stray
    rw [endLine_action context inside, endLine_action context inside] at same
    simp only [parseLineAction, left, right] at same
    have record := Context.action.inj (congrArg Config.context same)
    have commands := List.append_cancel_left (congrArg Action.commands record)
    exact apart (List.cons.inj commands).1

end Lines

section Files

variable {lib : Library}

def Clean (lib : Library) (memory : Nat → Nat → Text) :
    Reader Stored → List (Token × Text) → Prop
  | _, [] => True
  | _, (.eof, _) :: _ => True
  | r, token :: rest =>
    (token.1 = .newline → r.nargs ≠ 0 →
      ¬ Stray r.config.context (slice r.args 0 r.nargs)) ∧
    Clean lib memory (r.take lib (stored (memory rest.length)) token) rest

instance (lib : Library) (memory : Nat → Nat → Text) :
    (r : Reader Stored) → (tokens : List (Token × Text)) → Decidable (Clean lib memory r tokens)
  | _, [] => inferInstanceAs (Decidable True)
  | _, (.eof, _) :: _ => inferInstanceAs (Decidable True)
  | r, (.text, text) :: rest =>
    have := instDecidableClean lib memory (r.take lib (stored (memory rest.length)) (.text, text))
      rest
    inferInstanceAs (Decidable (_ ∧ _))
  | r, (.newline, text) :: rest =>
    have := instDecidableClean lib memory
      (r.take lib (stored (memory rest.length)) (.newline, text)) rest
    inferInstanceAs (Decidable (_ ∧ _))

/-- Readers that differ only behind the tokens of the line and in what is not seen. -/
structure Alike (r s : Reader Stored) : Prop where
  seen : results r.config = results s.config
  nargs : r.nargs = s.nargs
  args : Agree r.nargs r.args s.args

theorem lay_slice (args : Nat → Text) (nargs : Nat) : lay (slice args 0 nargs) args = args := by
  funext i
  rcases Nat.lt_or_ge i nargs with below | past
  · simp [lay, slice, List.getD_eq_getElem?_getD, below]
  · simp [lay, slice, List.getD_eq_getElem?_getD, past]

theorem length_slice (args : Nat → Text) (nargs : Nat) : (slice args 0 nargs).length = nargs := by
  simp [slice]

theorem Alike.take {r s : Reader Stored} (alike : Alike r s) (token : Token × Text)
    (fine : token.1 = .newline → r.nargs ≠ 0 →
      ¬ Stray r.config.context (slice r.args 0 r.nargs)) (beyond behind : Nat → Text) :
    Alike (r.take lib (stored beyond) token) (s.take lib (stored behind) token) := by
  obtain ⟨config, nargs, args, log⟩ := r
  obtain ⟨config', nargs', args', log'⟩ := s
  obtain ⟨seen, rfl, same⟩ := alike
  obtain ⟨kind, text⟩ := token
  dsimp only at seen same fine
  cases kind with
  | eof => exact ⟨seen, rfl, same⟩
  | text =>
    simp only [Reader.take]
    split
    · refine ⟨seen, rfl, fun i below => ?_⟩
      simp only [Function.update_apply]
      split
      · rfl
      · exact same i (by dsimp only at below; omega)
    · exact ⟨seen, rfl, same⟩
  | newline =>
    simp only [Reader.take]
    split
    · exact ⟨seen, rfl, same⟩
    · next some_ =>
      refine ⟨?_, rfl, fun i below => absurd below (Nat.not_lt_zero i)⟩
      have fine := fine rfl some_
      have length := length_slice args nargs
      have one := lay_slice args nargs
      have two : lay (slice args 0 nargs) args' = args' := by
        rw [slice_congr same, lay_slice]
      rw [results_endLine, results_endLine, seen]
      cases tokens : slice args 0 nargs with
      | nil =>
        rw [tokens] at length
        exact absurd length.symm some_
      | cons word rest =>
        rw [tokens] at fine length one two
        have clear : ¬ Stray (results config').context (word :: rest) := by
          rw [← seen]
          exact fun stray => fine ((stray_map Stored.seen _ _).mp stray)
        have equal := endLine_congr lib clear args args' beyond behind
        rwa [length, one, two] at equal

theorem Alike.run {r s : Reader Stored} (alike : Alike r s) (memory other : Nat → Nat → Text)
    (tokens : List (Token × Text)) (clean : Clean lib memory r tokens) :
    Alike (r.run lib (fun n => stored (memory n)) tokens)
      (s.run lib (fun n => stored (other n)) tokens) := by
  induction tokens generalizing r s with
  | nil => exact alike
  | cons token rest ih =>
    obtain ⟨kind, text⟩ := token
    cases kind with
    | eof => exact alike
    | text | newline => exact ih (alike.take _ clean.1 _ _) clean.2

/-- A line is read from its own tokens if and only if it does not stray, and so a file without
stray lines is. -/
theorem readAlone_iff (lib : Library) :
    (∀ (p : Config Stored) (word : Text) (rest : List Text),
      ReadAlone lib p (word :: rest) ↔ ¬ Stray p.context (word :: rest)) ∧
    ∀ (p : Config Stored) (args other : Nat → Text) (memory memory' : Nat → Nat → Text)
      (tokens : List (Token × Text)), Clean lib memory ⟨p, 0, args, []⟩ tokens →
        results (Reader.run lib (fun n => stored (memory n)) ⟨p, 0, args, []⟩ tokens).config =
          results (Reader.run lib (fun n => stored (memory' n)) ⟨p, 0, other, []⟩ tokens).config := by
  refine ⟨fun p word rest => ⟨fun alone stray => not_readAlone_of_stray stray alone,
    readAlone_of_not_stray⟩, fun p args other memory memory' tokens clean => ?_⟩
  have start : Alike ⟨p, 0, args, []⟩ ⟨p, 0, other, []⟩ :=
    ⟨rfl, rfl, fun i below => absurd below (Nat.not_lt_zero i)⟩
  exact (start.run memory memory' tokens clean).seen

def plainLibrary : Library := ⟨fun _ => 0, fun _ => 0, fun _ => 0, some⟩

def tokensOf (lines : List (List String)) : List (Token × Text) :=
  lines.flatMap (fun words => words.map (fun word => (.text, word.toList)) ++ [(.newline, [])]) ++
    [(.eof, [])]

def daemon : List (List String) :=
  [["service", "adbd", "/sbin/adbd"], ["setenv", "PATH", "/sbin"], ["onrestart", "stop", "vold"],
    ["on", "boot"], ["symlink", "/system/etc", "/etc"]]

theorem readAlone_iff_daemon :
    ReadAlone plainLibrary {} ["service".toList, "adbd".toList, "/sbin/adbd".toList] ∧
    results (Reader.run plainLibrary (fun _ => stored fun _ => []) ⟨{}, 0, fun _ => [], []⟩
        (tokensOf daemon)).config =
      results (Reader.run plainLibrary (fun _ => stored fun _ => ['x']) ⟨{}, 0, fun _ => ['x'], []⟩
        (tokensOf daemon)).config :=
  ⟨((readAlone_iff plainLibrary).1 _ _ _).mpr (by decide +kernel),
    (readAlone_iff plainLibrary).2 {} _ _ (fun _ _ => []) (fun _ _ => ['x']) (tokensOf daemon)
      (by decide +kernel)⟩

def flagged (word : String) : List (List String) :=
  [["service", "adbd", "/sbin/adbd"], ["console", "on", word]]

def parsed (lines : List (List String)) : Config Seen :=
  results (Reader.run plainLibrary (fun _ => stored fun _ => []) ⟨{}, 0, fun _ => [], []⟩
    (tokensOf lines)).config

def environment (q : Config Seen) : List (List (Text × Text)) := q.serviceList.map (·.envvars)

theorem setenv_takes_leftover :
    parsed (flagged "A") = parsed (flagged "B") ∧
      environment (parsed (flagged "A" ++ [["setenv", "PATH"]])) = [[("PATH".toList, "A".toList)]] ∧
      environment (parsed (flagged "B" ++ [["setenv", "PATH"]])) =
        [[("PATH".toList, "B".toList)]] := by
  decide +kernel

end Files

end AndroidBoot.Init.OwnTokens
