/- source: init/init/init_parser.c, init/init/init.h
   digest: From the tokens of an rc file to services, actions and their stored commands. -/

import Mathlib.Logic.Function.Basic
import AndroidBoot.Init.Keywords
import AndroidBoot.Init.Tokenizer

/-!
The array `args` of `parse_config` is a function on all indices: it is never cleared, so behind the
tokens of a line it has what earlier lines left there. What is allocated is always there. The
records are generic in the commands they hold, since the parser never looks into a stored command.
-/

set_option autoImplicit false

namespace AndroidBoot.Init.ConfigParser

open State (Text)
open Tokenizer (Token)
open Keywords

/-- `decode_uid`, `strtoul` to base 8, `atoi`, and `expand_props` with the properties as they
are. -/
structure Library where
  decodeUid : Text → Nat
  strtoul : Text → Int
  atoi : Text → Int
  expandProps : Text → Option Text

/-- What is logged. File name and line number are left out. -/
inductive Message where
  | parseError (text : Text)
  | error (text : Text)
  deriving DecidableEq

section Records

structure SocketInfo where
  name : Text
  type : Text
  perm : Int
  uid : Nat
  gid : Nat
  deriving DecidableEq

/-- `IoSchedClass_NONE` and the others. -/
inductive IoSchedClass where
  | none | rt | be | idle
  deriving DecidableEq

/-- The fields of `struct service` that the parser sets, with the `SVC_` bits one by one. -/
structure Service (C : Type) where
  name : Text
  classname : Text
  console : Bool := false
  disabled : Bool := false
  rcDisabled : Bool := false
  oneshot : Bool := false
  critical : Bool := false
  uid : Nat := 0
  gid : Nat := 0
  suppGids : List Nat := []
  seclabel : Option Text := none
  sockets : List SocketInfo := []
  envvars : List (Text × Text) := []
  onrestart : List C := []
  keycodes : List Int := []
  ioprioClass : IoSchedClass := .none
  ioprioPri : Int := 0
  args : List Text
  deriving DecidableEq

structure Action (C : Type) where
  name : Text
  commands : List C := []
  deriving DecidableEq

/-- `parse_line` and its `context`. A section that is open is the last one of its list. -/
inductive Context (C : Type) where
  | noOp
  | service (svc : Service C)
  | action (act : Action C)
  deriving DecidableEq

structure Config (C : Type) where
  services : List (Service C) := []
  actions : List (Action C) := []
  imports : List Text := []
  context : Context C := .noOp
  deriving DecidableEq

variable {C : Type}

def Config.serviceList (p : Config C) : List (Service C) :=
  match p.context with
  | .service svc => p.services ++ [svc]
  | _ => p.services

def Config.actionList (p : Config C) : List (Action C) :=
  match p.context with
  | .action act => p.actions ++ [act]
  | _ => p.actions

def Config.close (p : Config C) : Config C :=
  ⟨p.serviceList, p.actionList, p.imports, .noOp⟩

end Records

section Functions

variable {C : Type}

def slice (args : Nat → Text) (first nargs : Nat) : List Text :=
  (List.range' first (nargs - first)).map args

def isalnum (c : Char) : Bool :=
  ('a' ≤ c && c ≤ 'z') || ('A' ≤ c && c ≤ 'Z') || ('0' ≤ c && c ≤ '9')

def validName (name : Text) : Bool :=
  name.length ≤ 16 && name.all fun c => isalnum c || c = '_' || c = '-'

def nrSvcSuppGids : Nat := 12

def parseError (text : String) : Option Message := some (.parseError text.toList)

def parseImport (lib : Library) (p : Config C) (nargs : Nat) (args : Nat → Text) :
    Config C × Option Message :=
  if nargs ≠ 2 then (p, some (.error "single argument needed for import\n".toList))
  else match lib.expandProps (args 1) with
    | none => (p, some (.error "error while handling import\n".toList))
    | some filename => ({ p with imports := p.imports ++ [filename] }, none)

/-- `parse_service`; the service is linked in by `parseNewSection`. -/
def parseService (services : List (Service C)) (nargs : Nat) (args : Nat → Text) :
    Except Message (Service C) :=
  if nargs < 3 then .error (.parseError "services must have a name and a program\n".toList)
  else if ¬ validName (args 1) then
    .error (.parseError ("invalid service name '".toList ++ args 1 ++ "'\n".toList))
  else if services.any (·.name = args 1) then
    .error (.parseError
      ("ignored duplicate definition of service '".toList ++ args 1 ++ "'\n".toList))
  else .ok { name := args 1, classname := "default".toList, args := slice args 2 nargs }

def parseAction (nargs : Nat) (args : Nat → Text) : Except Message (Action C) :=
  if nargs < 2 then .error (.parseError "actions must have a trigger\n".toList)
  else if 2 < nargs then
    .error (.parseError "actions may not have extra parameters\n".toList)
  else .ok { name := args 1 }

def parseNewSection (lib : Library) (p : Config C) (kw : Keyword) (nargs : Nat)
    (args : Nat → Text) : Config C × Option Message :=
  match kw with
  | .kService =>
    match parseService p.serviceList nargs args with
    | .ok svc => ({ p.close with context := .service svc }, none)
    | .error message => (p.close, some message)
  | .kOn =>
    match parseAction nargs args with
    | .ok act => ({ p.close with context := .action act }, none)
    | .error message => (p.close, some message)
  | .kImport => parseImport lib p.close nargs args
  | _ => (p.close, none)

def parseCommand (store : Keyword → Nat → (Nat → Text) → C) (nargs : Nat) (args : Nat → Text) :
    Except Message C :=
  let kw := lookupKeyword (args 0)
  let n := (keywordInfo kw).nargs
  if (keywordInfo kw).flags ≠ .command then
    .error (.parseError ("invalid command '".toList ++ args 0 ++ "'\n".toList))
  else if nargs < n then
    .error (.parseError (args 0 ++ " requires ".toList ++ (toString (n - 1)).toList ++
      (if 2 < n then " arguments\n" else " argument\n").toList))
  else .ok (store kw nargs args)

/-- `ioprio <rt|be|idle> <ioprio 0-7>`; the priority is set before it is checked. -/
def parseIoprio (lib : Library) (svc : Service C) (args : Nat → Text) :
    Service C × Option Message :=
  let svc := { svc with ioprioPri := lib.strtoul (args 2) }
  if svc.ioprioPri < 0 ∨ 7 < svc.ioprioPri then
    (svc, parseError "priority value must be range 0 - 7\n")
  else if args 1 = "rt".toList then ({ svc with ioprioClass := .rt }, none)
  else if args 1 = "be".toList then ({ svc with ioprioClass := .be }, none)
  else if args 1 = "idle".toList then ({ svc with ioprioClass := .idle }, none)
  else (svc, parseError "ioprio option usage: ioprio <rt|be|idle> <0-7>\n")

def parseSocket (lib : Library) (svc : Service C) (nargs : Nat) (args : Nat → Text) :
    Service C × Option Message :=
  if args 2 ≠ "dgram".toList ∧ args 2 ≠ "stream".toList ∧ args 2 ≠ "seqpacket".toList then
    (svc, parseError "socket type must be 'dgram', 'stream' or 'seqpacket'\n")
  else
    let si : SocketInfo :=
      { name := args 1
        type := args 2
        perm := lib.strtoul (args 3)
        uid := if 4 < nargs then lib.decodeUid (args 4) else 0
        gid := if 5 < nargs then lib.decodeUid (args 5) else 0 }
    ({ svc with sockets := si :: svc.sockets }, none)

def parseOption (lib : Library) (store : Keyword → Nat → (Nat → Text) → C) (svc : Service C)
    (nargs : Nat) (args : Nat → Text) : Service C × Option Message :=
  match lookupKeyword (args 0) with
  | .kCapability => (svc, none)
  | .kClass =>
    if nargs ≠ 2 then (svc, parseError "class option requires a classname\n")
    else ({ svc with classname := args 1 }, none)
  | .kConsole => ({ svc with console := true }, none)
  | .kDisabled => ({ svc with disabled := true, rcDisabled := true }, none)
  | .kIoprio =>
    if nargs ≠ 3 then
      (svc, parseError "ioprio optin usage: ioprio <rt|be|idle> <ioprio 0-7>\n")
    else parseIoprio lib svc args
  | .kGroup =>
    if nargs < 2 then (svc, parseError "group option requires a group id\n")
    else if nrSvcSuppGids + 2 < nargs then
      (svc, parseError "group option accepts at most 12 supp. groups\n")
    else
      ({ svc with
          gid := lib.decodeUid (args 1)
          suppGids := (slice args 2 nargs).map lib.decodeUid }, none)
  | .kKeycodes =>
    if nargs < 2 then (svc, parseError "keycodes option requires atleast one keycode\n")
    else ({ svc with keycodes := (slice args 1 nargs).map lib.atoi }, none)
  | .kOneshot => ({ svc with oneshot := true }, none)
  | .kOnrestart =>
    match parseCommand store (nargs - 1) fun i => args (i + 1) with
    | .ok cmd => ({ svc with onrestart := svc.onrestart ++ [cmd] }, none)
    | .error message => (svc, some message)
  | .kCritical => ({ svc with critical := true }, none)
  | .kSetenv =>
    -- Two words are enough to get here, and the value is the third.
    if nargs < 2 then (svc, parseError "setenv option requires name and value arguments\n")
    else ({ svc with envvars := (args 1, args 2) :: svc.envvars }, none)
  | .kSocket =>
    if nargs < 4 then (svc, parseError "socket option requires name, type, perm arguments\n")
    else parseSocket lib svc nargs args
  | .kUser =>
    if nargs ≠ 2 then (svc, parseError "user option requires a user id\n")
    else ({ svc with uid := lib.decodeUid (args 1) }, none)
  | .kSeclabel =>
    if nargs ≠ 2 then (svc, parseError "seclabel option requires a label string\n")
    else ({ svc with seclabel := some (args 1) }, none)
  | _ => (svc, some (.parseError ("invalid option '".toList ++ args 0 ++ "'\n".toList)))

def parseLineService (lib : Library) (store : Keyword → Nat → (Nat → Text) → C)
    (svc : Service C) (nargs : Nat) (args : Nat → Text) : Service C × Option Message :=
  if nargs = 0 then (svc, none)
  else parseOption lib store { svc with ioprioClass := .none } nargs args

def parseLineAction (store : Keyword → Nat → (Nat → Text) → C) (act : Action C) (nargs : Nat)
    (args : Nat → Text) : Action C × Option Message :=
  if nargs = 0 then (act, none)
  else match parseCommand store nargs args with
    | .ok cmd => ({ act with commands := act.commands ++ [cmd] }, none)
    | .error message => (act, some message)

def parseLine (lib : Library) (store : Keyword → Nat → (Nat → Text) → C) (p : Config C)
    (nargs : Nat) (args : Nat → Text) : Config C × Option Message :=
  match p.context with
  | .noOp => (p, none)
  | .service svc =>
    let done := parseLineService lib store svc nargs args
    ({ p with context := .service done.1 }, done.2)
  | .action act =>
    let done := parseLineAction store act nargs args
    ({ p with context := .action done.1 }, done.2)

def endLine (lib : Library) (store : Keyword → Nat → (Nat → Text) → C) (p : Config C)
    (nargs : Nat) (args : Nat → Text) : Config C × Option Message :=
  let kw := lookupKeyword (args 0)
  if (keywordInfo kw).flags = .heading then parseNewSection lib p kw nargs args
  else parseLine lib store p nargs args

def maxArgs : Nat := 64

structure Reader (C : Type) where
  config : Config C
  nargs : Nat
  args : Nat → Text
  log : List Message

def Reader.take (lib : Library) (store : Keyword → Nat → (Nat → Text) → C) (r : Reader C) :
    Token × Text → Reader C
  | (.text, text) =>
    if r.nargs < maxArgs then
      { r with nargs := r.nargs + 1, args := Function.update r.args r.nargs text }
    else r
  | (.newline, _) =>
    if r.nargs = 0 then r
    else
      let done := endLine lib store r.config r.nargs r.args
      { r with config := done.1, nargs := 0, log := r.log ++ done.2.toList }
  | (.eof, _) => r

/-- The loop of `parse_config`. The end of the file drops a line that has not ended. How a command
is put together may be different each time: it is given by the number of tokens still to come. -/
def Reader.run (lib : Library) (store : Nat → Keyword → Nat → (Nat → Text) → C) :
    Reader C → List (Token × Text) → Reader C
  | r, [] => r
  | r, (.eof, _) :: _ => r
  | r, token :: rest => Reader.run lib store (r.take lib (store rest.length) token) rest

end Functions

section Map

variable {C D : Type} (f : C → D)

def Service.map (svc : Service C) : Service D := { svc with onrestart := svc.onrestart.map f }

def Action.map (act : Action C) : Action D := { act with commands := act.commands.map f }

def Context.map : Context C → Context D
  | .noOp => .noOp
  | .service svc => .service (svc.map f)
  | .action act => .action (act.map f)

def Config.map (p : Config C) : Config D :=
  ⟨p.services.map (Service.map f), p.actions.map (Action.map f), p.imports, p.context.map f⟩

variable {lib : Library} {store : Keyword → Nat → (Nat → Text) → C} {nargs : Nat}
  {args : Nat → Text}

variable (p : Config C)

theorem serviceList_map : (p.map f).serviceList = p.serviceList.map (Service.map f) := by
  obtain ⟨services, actions, imports, context⟩ := p
  cases context with
  | noOp | action => rfl
  | service svc => simp [Config.serviceList, Config.map, Context.map]

theorem actionList_map : (p.map f).actionList = p.actionList.map (Action.map f) := by
  obtain ⟨services, actions, imports, context⟩ := p
  cases context with
  | noOp | service => rfl
  | action act => simp [Config.actionList, Config.map, Context.map]

theorem close_map : (p.map f).close = p.close.map f := by
  simp only [Config.close, serviceList_map, actionList_map]
  rfl

theorem parseCommand_map :
    parseCommand (fun kw n words => f (store kw n words)) nargs args =
      (parseCommand store nargs args).map f := by
  simp only [parseCommand]
  split
  · rfl
  · split <;> rfl

theorem parseService_map (services : List (Service C)) :
    parseService (services.map (Service.map f)) nargs args =
      (parseService services nargs args).map (Service.map f) := by
  have known : (services.map (Service.map f)).any (·.name = args 1) =
      services.any (·.name = args 1) := by
    rw [List.any_map]
    rfl
  simp only [parseService, known]
  split
  · rfl
  split
  · rfl
  split <;> rfl

theorem parseAction_map :
    (parseAction nargs args : Except Message (Action D)) =
      (parseAction nargs args : Except Message (Action C)).map (Action.map f) := by
  unfold parseAction
  split
  · rfl
  · split <;> rfl

theorem parseIoprio_map (svc : Service C) :
    parseIoprio lib (svc.map f) args = Prod.map (Service.map f) id (parseIoprio lib svc args) := by
  unfold parseIoprio
  dsimp only
  split
  · rfl
  split
  · rfl
  split
  · rfl
  split <;> rfl

theorem parseSocket_map (svc : Service C) :
    parseSocket lib (svc.map f) nargs args =
      Prod.map (Service.map f) id (parseSocket lib svc nargs args) := by
  unfold parseSocket
  split <;> rfl

theorem parseOption_map (svc : Service C) :
    parseOption lib (fun kw n words => f (store kw n words)) (svc.map f) nargs args =
      Prod.map (Service.map f) id (parseOption lib store svc nargs args) := by
  unfold parseOption
  split
  case h_5 =>
    split
    · rfl
    · exact parseIoprio_map f svc
  case h_9 =>
    rw [parseCommand_map]
    cases parseCommand store (nargs - 1) fun i => args (i + 1) with
    | ok cmd => simp [Except.map, Service.map]
    | error message => rfl
  case h_12 =>
    split
    · rfl
    · exact parseSocket_map f svc
  all_goals first | rfl | (split <;> first | rfl | (split <;> rfl))

theorem parseLine_map :
    parseLine lib (fun kw n words => f (store kw n words)) (p.map f) nargs args =
      Prod.map (Config.map f) id (parseLine lib store p nargs args) := by
  obtain ⟨services, actions, imports, context⟩ := p
  cases context with
  | noOp => rfl
  | service svc =>
    simp only [parseLine, Config.map, Context.map, parseLineService]
    split
    · rfl
    · rw [show ({ svc.map f with ioprioClass := .none } : Service D) =
        Service.map f { svc with ioprioClass := .none } from rfl, parseOption_map]
      rfl
  | action act =>
    simp only [parseLine, Config.map, Context.map, parseLineAction]
    split
    · rfl
    · rw [parseCommand_map]
      cases parseCommand store nargs args with
      | ok cmd => simp [Except.map, Action.map, Config.map, Context.map]
      | error message => rfl

theorem parseNewSection_map (kw : Keyword) :
    parseNewSection lib (p.map f) kw nargs args =
      Prod.map (Config.map f) id (parseNewSection lib p kw nargs args) := by
  unfold parseNewSection
  split
  · rw [serviceList_map, parseService_map, close_map]
    cases parseService p.serviceList nargs args <;> rfl
  · rw [close_map, parseAction_map f]
    cases (parseAction nargs args : Except Message (Action C)) <;> rfl
  · rw [close_map]
    unfold parseImport
    split
    · rfl
    · cases lib.expandProps (args 1) <;> rfl
  · rw [close_map]
    rfl

theorem endLine_map :
    endLine lib (fun kw n words => f (store kw n words)) (p.map f) nargs args =
      Prod.map (Config.map f) id (endLine lib store p nargs args) := by
  unfold endLine
  dsimp only
  split
  · exact parseNewSection_map f p _
  · exact parseLine_map f p

end Map

section Names

variable {C : Type} {lib : Library} {store : Keyword → Nat → (Nat → Text) → C} {nargs : Nat}
  {args : Nat → Text} {p : Config C}

def Config.names (p : Config C) : List Text := p.serviceList.map Service.name

def Config.Named (p : Config C) : Prop := p.names.Nodup ∧ ∀ name ∈ p.names, validName name

theorem parseLineService_name {svc : Service C} :
    (parseLineService lib store svc nargs args).1.name = svc.name := by
  unfold parseLineService
  split
  · rfl
  unfold parseOption
  split
  case h_5 =>
    unfold parseIoprio
    dsimp only
    split_ifs <;> rfl
  case h_6 => split_ifs <;> rfl
  case h_12 =>
    unfold parseSocket
    split
    · rfl
    · split <;> rfl
  all_goals first | rfl | split <;> rfl

theorem parseLine_names : (parseLine lib store p nargs args).1.names = p.names := by
  obtain ⟨services, actions, imports, _ | svc | act⟩ := p
  · rfl
  · simp [Config.names, Config.serviceList, parseLine, parseLineService_name]
  · rfl

theorem parseNewSection_named {kw : Keyword} (named : p.Named) :
    (parseNewSection lib p kw nargs args).1.Named := by
  unfold parseNewSection
  split
  · cases made : parseService p.serviceList nargs args with
    | error message => exact named
    | ok svc =>
      have added : Config.names { p.close with context := .service svc } = p.names ++ [svc.name] :=
        List.map_append
      unfold parseService at made
      split_ifs at made with few valid known
      cases made
      rw [Config.Named, added]
      refine ⟨List.nodup_append.mpr ⟨named.1, by simp, by simpa [Config.names] using known⟩, ?_⟩
      exact List.forall_mem_append.mpr ⟨named.2, by simpa using valid⟩
  · split <;> exact named
  · unfold parseImport
    split
    · exact named
    · split <;> exact named
  · exact named

/-- Whatever a file has in it, the services that are read have valid names, and no two the same. -/
theorem parse_config_named (lib : Library) (store : Nat → Keyword → Nat → (Nat → Text) → C)
    (tokens : List (Token × Text)) {r : Reader C} (named : r.config.Named) :
    (Reader.run lib store r tokens).config.Named := by
  fun_induction Reader.run lib store r tokens with
  | case1 | case2 => exact named
  | case3 r token rest other ih =>
    refine ih ?_
    unfold Reader.take
    split
    · split <;> exact named
    · split
      · exact named
      · dsimp only [endLine]
        split
        · exact parseNewSection_named named
        · rwa [Config.Named, parseLine_names]
    · exact named

theorem parse_config_named_twice :
    let line := [(Token.text, "service".toList), (.text, "adbd".toList), (.text, "/adbd".toList),
      (.newline, [])]
    let r := Reader.run ⟨fun _ => 0, fun _ => 0, fun _ => 0, some⟩ (fun _ _ _ _ => ())
      ⟨{}, 0, fun _ => [], []⟩ (line ++ line)
    r.config.names = ["adbd".toList] ∧ r.config.Named :=
  ⟨by decide +kernel,
    parse_config_named _ _ _ ⟨List.nodup_nil, by simp [Config.names, Config.serviceList]⟩⟩

end Names

end AndroidBoot.Init.ConfigParser
