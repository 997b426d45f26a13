/- source: init/init/init_parser.c, init/init/util.c
   digest: Parsing a file and all that it imports returns unless the imports go round. -/

import AndroidBoot.Foundation.Descent
import AndroidBoot.Init.OwnTokens
import AndroidBoot.Init.Properties

/-!
`parse_config` collects the imports of a file while it reads it, and calls
`init_parse_config_file` for each of them when it is done. Nothing is remembered of the files
that were read or are being read. A file may have any number of paths.
-/

set_option autoImplicit false

namespace AndroidBoot.Init.ImportGraph

open Function

open State (Text)
open Tokenizer Keywords ConfigParser
open OwnTokens (Agree)
open Properties (cString)
open Foundation.Descent

section Functions

/-- What the parser finds around it. The commands of a call of `parse_config` are put together
and its array is left behind by other code in whatever way, call by call. -/
structure Setting (C F : Type) where
  lib : Library
  store : Nat → Nat → Keyword → Nat → (Nat → Text) → C
  scrap : Nat → Nat → Text
  find : Text → Option F
  content : F → Text

/-- The lists of services and actions, with the section that was open last, the number of calls of
`parse_config`, and what was logged. -/
structure Loaded (C : Type) where
  config : Config C := {}
  calls : Nat := 0
  log : List Message := []

variable {C F : Type}

/-- `read_file` ends the content with a newline and a zero. -/
def Setting.text (env : Setting C F) (f : F) : Text := cString (env.content f ++ ['\n'])

/-- The loop of `parse_config`, from one call of `next_token` to the next. -/
def parseLoop (lib : Library) (store : Nat → Keyword → Nat → (Nat → Text) → C) :
    Nat → Reader C → Option Token → Text → Option (Reader C)
  | 0, _, _, _ => none
  | fuel + 1, r, nexttoken, rest =>
    let lexed := lexOne nexttoken rest
    if lexed.token = .eof then some r
    else
      parseLoop lib store fuel
        (r.take lib (store lexed.rest.length) (lexed.token, lexed.text)) lexed.nexttoken
        lexed.rest

def Setting.start (env : Setting C F) (l : Loaded C) : Reader C where
  config := { l.config.close with imports := [] }
  nargs := 0
  args := env.scrap l.calls
  log := l.log

/-- What `parse_config` does with the result of an import. -/
def report (path next : Text) (result : Int × Loaded C) : Loaded C :=
  if result.1 ≠ 0 then
    { result.2 with log := result.2.log ++ [.error ("could not import file '".toList ++ next ++
      "' from '".toList ++ path ++ "'\n".toList)] }
  else result.2

/-- `init_parse_config_file`, with `parse_config`. -/
def initParseConfigFile (env : Setting C F) : Nat → Loaded C → Text → Option (Int × Loaded C)
  | 0, _, _ => none
  | fuel + 1, l, path =>
    match env.find path with
    | none => some (-1, l)
    | some f =>
      (parseLoop env.lib (env.store l.calls) fuel (env.start l) none (env.text f)).bind fun r =>
        (each (fun l next => (initParseConfigFile env fuel l next).map (report path next))
          ⟨r.config, l.calls + 1, r.log⟩ r.config.imports).map fun l => (0, l)

end Functions

section Loop

variable {C D : Type} {lib : Library} {store : Nat → Keyword → Nat → (Nat → Text) → C}

variable {nexttoken : Option Token}

variable {rest : Text}

theorem parseLoop_more {n m : Nat} {r s : Reader C}
    (done : parseLoop lib store n r nexttoken rest = some s) (more : n ≤ m) :
    parseLoop lib store m r nexttoken rest = some s := by
  induction n generalizing m r nexttoken rest with
  | zero => cases done
  | succ n ih =>
    obtain ⟨m, rfl⟩ : ∃ k, m = k + 1 := ⟨m - 1, by omega⟩
    rw [parseLoop] at done ⊢
    split_ifs at done ⊢ with ended
    · exact done
    · exact ih done (by omega)

theorem exists_parseLoop (lib : Library) (store : Nat → Keyword → Nat → (Nat → Text) → C) {n : Nat}
    (r : Reader C)
    (enough : remaining nexttoken rest < n) :
    ∃ s, parseLoop lib store n r nexttoken rest = some s := by
  induction n generalizing r nexttoken rest with
  | zero => exact absurd enough (Nat.not_lt_zero _)
  | succ n ih =>
    rw [parseLoop]
    split_ifs with ended
    · exact ⟨r, rfl⟩
    · have less := (lexOne_spec nexttoken rest).2.2.2 ended
      exact ih _ (by omega)

theorem run_cons {token : Token × Text} (going : token.1 ≠ .eof) (r : Reader C)
    (rest : List (Token × Text)) :
    Reader.run lib store r (token :: rest) =
      Reader.run lib store (r.take lib (store rest.length) token) rest := by
  obtain ⟨kind, text⟩ := token
  cases kind with
  | eof => exact absurd rfl going
  | text => rfl
  | newline => rfl

theorem run_congr {store' : Nat → Keyword → Nat → (Nat → Text) → C} (tokens : List (Token × Text))
    (r : Reader C) (same : ∀ i < tokens.length, store i = store' i) :
    Reader.run lib store r tokens = Reader.run lib store' r tokens := by
  induction tokens generalizing r with
  | nil => rfl
  | cons token rest ih =>
    by_cases ended : token.1 = .eof
    · obtain ⟨kind, text⟩ := token
      cases ended
      rfl
    · rw [run_cons ended, run_cons ended, same rest.length (Nat.lt_succ_self _)]
      exact ih _ fun i below => same i (Nat.lt_succ_of_lt below)

theorem length_lex (n : Nat) (nexttoken : Option Token) (rest : Text) :
    (lex n nexttoken rest).length = n := by
  induction n generalizing nexttoken rest with
  | zero => rfl
  | succ n ih => exact congrArg Nat.succ (ih _ _)

theorem exists_run_of_parseLoop {n : Nat} {r s : Reader C}
    (done : parseLoop lib store n r nexttoken rest = some s) :
    ∃ store', Reader.run lib store' r (lex n nexttoken rest) = s := by
  induction n generalizing r nexttoken rest with
  | zero => cases done
  | succ n ih =>
    rw [parseLoop] at done
    rw [lex]
    split_ifs at done with ended
    · refine ⟨store, ?_⟩
      rw [ended]
      exact Option.some.inj done
    · obtain ⟨later, same⟩ := ih done
      refine ⟨update later n (store (lexOne nexttoken rest).rest.length), ?_⟩
      rw [run_cons ended, length_lex, update_self, ← same]
      refine run_congr _ _ fun i below => ?_
      rw [length_lex] at below
      exact update_of_ne (Nat.ne_of_lt below) _ _

end Loop

section Lines

variable {C : Type} {lib : Library}

def importLine (lib : Library) : List Text → List Text
  | [word, path] => if lookupKeyword word = .kImport then (lib.expandProps path).toList else []
  | _ => []

/-- The paths that are imported from some tokens, behind the first words of a line. -/
def importLines (lib : Library) : List Text → List (Token × Text) → List Text
  | _, [] => []
  | words, (.text, word) :: rest => importLines lib (words ++ [word]) rest
  | words, (.newline, _) :: rest => importLine lib words ++ importLines lib [] rest
  | _, (.eof, _) :: _ => []

def importsOf (lib : Library) (text : Text) : List Text :=
  importLines lib [] (lex (2 * text.length + 1) none text)

variable {words : List Text}

theorem importLine_of_length_ne (other : words.length ≠ 2) : importLine lib words = [] := by
  match words with
  | [] => rfl
  | [_] => rfl
  | [_, _] => exact absurd rfl other
  | _ :: _ :: _ :: _ => rfl

theorem importLine_take (words : List Text) :
    importLine lib (words.take maxArgs) = importLine lib words := by
  match words with
  | [] => rfl
  | [_] => rfl
  | [_, _] => rfl
  | _ :: _ :: _ :: _ => rfl

theorem parseImport_imports (p : Config C) (nargs : Nat) (args : Nat → Text) :
    (parseImport lib p nargs args).1.imports =
      p.imports ++ if nargs = 2 then (lib.expandProps (args 1)).toList else [] := by
  unfold parseImport
  by_cases two : nargs = 2
  · rw [if_neg (not_not.mpr two), if_pos two]
    cases lib.expandProps (args 1) with
    | none => exact (List.append_nil _).symm
    | some path => rfl
  · rw [if_pos two, if_neg two, List.append_nil]

theorem parseNewSection_imports {kw : Keyword} (other : kw ≠ .kImport) (p : Config C) (nargs : Nat)
    (args : Nat → Text) : (parseNewSection lib p kw nargs args).1.imports = p.imports := by
  unfold parseNewSection
  split
  · cases parseService p.serviceList nargs args <;> rfl
  · cases (parseAction nargs args : Except Message (Action C)) <;> rfl
  · exact absurd rfl other
  · rfl

variable {store : Keyword → Nat → (Nat → Text) → C}

theorem parseLine_imports (p : Config C) (nargs : Nat) (args : Nat → Text) :
    (parseLine lib store p nargs args).1.imports = p.imports := by
  unfold parseLine
  split <;> rfl

theorem importLine_slice (nargs : Nat) (args : Nat → Text) :
    importLine lib (slice args 0 nargs) =
      if lookupKeyword (args 0) = .kImport then
        if nargs = 2 then (lib.expandProps (args 1)).toList else []
      else [] := by
  obtain rfl | two := eq_or_ne nargs 2
  · rfl
  · have count : (slice args 0 nargs).length ≠ 2 := by rwa [OwnTokens.length_slice]
    rw [importLine_of_length_ne count, if_neg two, ite_self]

theorem endLine_imports (p : Config C) (nargs : Nat) (args : Nat → Text) :
    (endLine lib store p nargs args).1.imports =
      p.imports ++ importLine lib (slice args 0 nargs) := by
  rw [importLine_slice, endLine]
  by_cases import_ : lookupKeyword (args 0) = .kImport
  · have heading : (keywordInfo (lookupKeyword (args 0))).flags = .heading := by
      rw [import_]
      rfl
    rw [if_pos heading, if_pos import_, import_]
    exact parseImport_imports p.close nargs args
  · rw [if_neg import_, List.append_nil]
    split_ifs
    · exact parseNewSection_imports import_ p nargs args
    · exact parseLine_imports p nargs args

def Has (r : Reader C) (words : List Text) : Prop := slice r.args 0 r.nargs = words.take maxArgs

variable {r : Reader C}

theorem Has.nargs (has : Has r words) : r.nargs = min maxArgs words.length := by
  have lengths := congrArg List.length has
  rwa [OwnTokens.length_slice, List.length_take] at lengths

theorem slice_update (args : Nat → Text) (nargs : Nat) (word : Text) :
    slice (update args nargs word) 0 (nargs + 1) = slice args 0 nargs ++ [word] := by
  have before : slice (update args nargs word) 0 nargs = slice args 0 nargs := by
    refine OwnTokens.slice_congr (fun i below => ?_) 0
    exact update_of_ne (Nat.ne_of_lt below) word args
  rw [← before]
  simp [slice, List.range'_concat]

theorem Has.text (has : Has r words) (word : Text) :
    Has (r.take lib store (.text, word)) (words ++ [word]) := by
  have count := has.nargs
  rw [Reader.take]
  split_ifs with room
  · have all : words.length < maxArgs := by omega
    rw [Has, slice_update, has, List.take_of_length_le (Nat.le_of_lt all),
      List.take_of_length_le (by rw [List.length_append]; exact all)]
  · rw [Has, has, List.take_append_of_le_length (by omega)]

theorem take_newline_imports (has : Has r words) (text : Text) :
    (r.take lib store (.newline, text)).config.imports =
      r.config.imports ++ importLine lib words := by
  rw [← importLine_take, ← has, Reader.take]
  split_ifs with empty
  · rw [empty]
    exact (List.append_nil _).symm
  · exact endLine_imports r.config r.nargs r.args

theorem take_newline_has (r : Reader C) (text : Text) :
    Has (r.take lib store (.newline, text)) [] := by
  rw [Reader.take]
  split_ifs with empty
  · rw [Has, empty]
    rfl
  · rfl

theorem take_text_imports (r : Reader C) (word : Text) :
    (r.take lib store (.text, word)).config.imports = r.config.imports := by
  rw [Reader.take]
  split_ifs <;> rfl

theorem run_imports (store : Nat → Keyword → Nat → (Nat → Text) → C) (tokens : List (Token × Text))
    (has : Has r words) :
    (Reader.run lib store r tokens).config.imports =
      r.config.imports ++ importLines lib words tokens := by
  induction tokens generalizing r words with
  | nil => exact (List.append_nil _).symm
  | cons token rest ih =>
    obtain ⟨kind, text⟩ := token
    cases kind with
    | eof => exact (List.append_nil _).symm
    | text =>
      have going : (Token.text, text).1 ≠ .eof := nofun
      rw [run_cons going, ih (has.text text), take_text_imports, importLines]
    | newline =>
      have going : (Token.newline, text).1 ≠ .eof := nofun
      rw [run_cons going, ih (take_newline_has r text),
        take_newline_imports has, importLines, List.append_assoc]

theorem parseLoop_imports {store : Nat → Keyword → Nat → (Nat → Text) → C} {n : Nat}
    {r s : Reader C} {text : Text} (done : parseLoop lib store n r none text = some s)
    (empty : r.nargs = 0) : s.config.imports = r.config.imports ++ importsOf lib text := by
  obtain ⟨s', enough⟩ := exists_parseLoop lib store r (Nat.lt_succ_self (remaining none text))
  have same : s = s' := Option.some.inj
    ((parseLoop_more done (Nat.le_max_left n _)).symm.trans
      (parseLoop_more enough (Nat.le_max_right n _)))
  obtain ⟨store', run⟩ := exists_run_of_parseLoop enough
  have has : Has r [] := by
    rw [Has, empty]
    rfl
  rw [same, ← run]
  exact run_imports store' _ has

end Lines

section Calls

variable {C F : Type} {env : Setting C F}

def Imports (env : Setting C F) (f g : F) : Prop :=
  ∃ path ∈ importsOf env.lib (env.text f), env.find path = some g

def importNext (env : Setting C F) (path : Text) (fuel : Nat) (l : Loaded C) (next : Text) :
    Option (Loaded C) := (initParseConfigFile env fuel l next).map (report path next)

theorem importNext_eq_some {path next : Text} {fuel : Nat} {l l' : Loaded C} :
    importNext env path fuel l next = some l' ↔
      ∃ back, initParseConfigFile env fuel l next = some back ∧ report path next back = l' :=
  Option.map_eq_some_iff

variable {path : Text}

theorem initParseConfigFile_missing (missing : env.find path = none) (fuel : Nat)
    (l : Loaded C) : initParseConfigFile env (fuel + 1) l path = some (-1, l) := by
  rw [initParseConfigFile, missing]

variable {result : Int × Loaded C}

variable {l : Loaded C}

theorem initParseConfigFile_found {fuel : Nat} {f : F} (found : env.find path = some f) :
    initParseConfigFile env (fuel + 1) l path = some result ↔
      ∃ r l', parseLoop env.lib (env.store l.calls) fuel (env.start l) none (env.text f) = some r ∧
        each (importNext env path fuel) ⟨r.config, l.calls + 1, r.log⟩
          (importsOf env.lib (env.text f)) = some l' ∧ result = (0, l') := by
  rw [initParseConfigFile, found]
  constructor
  · intro done
    obtain ⟨r, read, rest⟩ := Option.bind_eq_some_iff.mp done
    obtain ⟨l', all, same⟩ := Option.map_eq_some_iff.mp rest
    rw [parseLoop_imports read rfl] at all
    exact ⟨r, l', read, all, same.symm⟩
  · rintro ⟨r, l', read, all, rfl⟩
    refine Option.bind_eq_some_iff.mpr ⟨r, read, Option.map_eq_some_iff.mpr ⟨l', ?_, rfl⟩⟩
    rw [parseLoop_imports read rfl]
    exact all

theorem initParseConfigFile_more {n m : Nat} (done : initParseConfigFile env n l path = some result)
    (more : n ≤ m) : initParseConfigFile env m l path = some result := by
  induction n generalizing m l path result with
  | zero => cases done
  | succ n ih =>
    obtain ⟨m, rfl⟩ : ∃ k, m = k + 1 := ⟨m - 1, by omega⟩
    have le : n ≤ m := Nat.le_of_succ_le_succ more
    cases found : env.find path with
    | none =>
      rw [initParseConfigFile_missing found] at done ⊢
      exact done
    | some f =>
      obtain ⟨r, l', read, all, rfl⟩ := (initParseConfigFile_found found).mp done
      refine (initParseConfigFile_found found).mpr ⟨r, l', parseLoop_more read le, ?_, rfl⟩
      refine each_mono (fun s t next one => ?_) all
      obtain ⟨back, call, reported⟩ := importNext_eq_some.mp one
      exact importNext_eq_some.mpr ⟨back, ih call le, reported⟩

theorem steady_importNext (path : Text) : Steady (importNext env path) := by
  intro n m s t next one more
  obtain ⟨back, call, reported⟩ := importNext_eq_some.mp one
  exact importNext_eq_some.mpr ⟨back, initParseConfigFile_more call more, reported⟩

theorem descends_of_returns {n : Nat} {f : F}
    (done : initParseConfigFile env n l path = some result) (found : env.find path = some f) :
    Descends (Imports env) f := by
  induction n generalizing l path result f with
  | zero => cases done
  | succ n ih =>
    obtain ⟨r, l', read, all, rfl⟩ := (initParseConfigFile_found found).mp done
    refine .intro f fun g ⟨next, member, leads⟩ => ?_
    obtain ⟨s, t, one⟩ := exists_of_each all next member
    obtain ⟨back, call, reported⟩ := importNext_eq_some.mp one
    exact ih call leads

theorem returns_of_descends {f : F} (descends : Descends (Imports env) f) (l : Loaded C)
    (found : env.find path = some f) :
    ∃ n result, initParseConfigFile env n l path = some result := by
  induction descends generalizing l path with
  | intro f _ ih =>
    obtain ⟨r, read⟩ := exists_parseLoop env.lib (env.store l.calls) (env.start l)
      (Nat.lt_succ_self (remaining none (env.text f)))
    have one : ∀ next ∈ importsOf env.lib (env.text f), ∀ s,
        ∃ n t, importNext env path n s next = some t := by
      intro next member s
      cases leads : env.find next with
      | none =>
        exact ⟨1, _, importNext_eq_some.mpr ⟨_, initParseConfigFile_missing leads 0 s, rfl⟩⟩
      | some g =>
        obtain ⟨n, back, call⟩ := ih g ⟨next, member, leads⟩ s leads
        exact ⟨n, _, importNext_eq_some.mpr ⟨back, call, rfl⟩⟩
    obtain ⟨n, l', all⟩ := (steady_importNext path).exists_each one ⟨r.config, l.calls + 1, r.log⟩
    exact ⟨_, (0, l'), (initParseConfigFile_found found).mpr
      ⟨r, l', parseLoop_more read (Nat.le_max_right n _),
        (steady_importNext path).each all (Nat.le_max_left n _), rfl⟩⟩

/-- Parsing returns if and only if no file that is reached imports itself, directly or through
other files, by whatever paths. -/
theorem config_parsing_returns_iff [Finite F] (env : Setting C F) (l : Loaded C) (path : Text) :
    (∃ fuel result, initParseConfigFile env fuel l path = some result) ↔
      ∀ f, env.find path = some f → NoCycleFrom (Imports env) f := by
  constructor
  · rintro ⟨fuel, result, done⟩ f found
    exact noCycleFrom_of_descends (descends_of_returns done found)
  · intro clear
    cases found : env.find path with
    | none => exact ⟨1, _, initParseConfigFile_missing found 0 l⟩
    | some f => exact returns_of_descends (descends_iff.mpr (clear f found)) l found

end Calls

section Files

def rcFiles (content : Bool → String) : Setting Unit Bool where
  lib := OwnTokens.plainLibrary
  store := fun _ _ _ _ _ => ()
  scrap := fun _ _ => []
  find := fun path =>
    if path = "/init.rc".toList then some true
    else if path = "/init.usb.rc".toList then some false
    else none
  content := fun f => (content f).toList

def chain : Setting Unit Bool := rcFiles fun f => if f then "import /init.usb.rc" else "on boot"

theorem chain_imports {f g : Bool} (imports : Imports chain f g) : f = true ∧ g = false := by
  obtain ⟨path, member, leads⟩ := imports
  cases f with
  | false =>
    have none_ : importsOf chain.lib (chain.text false) = [] := by decide +kernel
    rw [none_] at member
    cases member
  | true =>
    have one : importsOf chain.lib (chain.text true) = ["/init.usb.rc".toList] := by decide +kernel
    rw [one, List.mem_singleton] at member
    subst member
    exact ⟨rfl, (Option.some.inj leads).symm⟩

theorem config_parsing_returns_iff_chain :
    ∃ fuel result, initParseConfigFile chain fuel {} "/init.rc".toList = some result := by
  refine (config_parsing_returns_iff chain {} "/init.rc".toList).mpr fun f _ => ?_
  have last : Descends (Imports chain) false :=
    .intro false fun g imports => absurd (chain_imports imports).1 Bool.false_ne_true
  refine noCycleFrom_of_descends (.intro f fun g imports => ?_)
  rw [(chain_imports imports).2]
  exact last

def crossed : Setting Unit Bool :=
  rcFiles fun f => if f then "import /init.usb.rc" else "import /init.rc"

theorem crossed_imports_never_return :
    ¬ ∃ fuel result, initParseConfigFile crossed fuel {} "/init.rc".toList = some result := by
  rintro ⟨fuel, result, done⟩
  have there : Imports crossed true false := ⟨"/init.usb.rc".toList, by decide +kernel, rfl⟩
  have back : Imports crossed false true := ⟨"/init.rc".toList, by decide +kernel, rfl⟩
  have descends : Descends (Imports crossed) true := descends_of_returns done rfl
  exact noCycleFrom_of_descends descends true .refl (.tail (.single there) back)

end Files

end AndroidBoot.Init.ImportGraph
