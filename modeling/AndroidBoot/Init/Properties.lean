/- source: init/init/property_service.c, init/init/init_parser.c, init/init/init.c
   digest: The property store: setting, triggers, expansion and the loading of property files. -/

import AndroidBoot.Init.State
import Mathlib.Data.List.DropRight
import Mathlib.Data.List.Lemmas

set_option autoImplicit false

namespace AndroidBoot.Init.Properties

open State
open State.InitState (Quiet Aside ask_aside)

def propNameMax : Nat := 32

def propValueMax : Nat := 92

def startsWith (head : String) (name : Text) : Bool := head.toList.isPrefixOf name

def cString (buffer : Text) : Text := buffer.takeWhile (· ≠ '\x00')

/-- The loop of `is_legal_property_name`, with `previous_was_dot`. -/
def legalCharacters : Bool → Text → Bool
  | _, [] => true
  | previousWasDot, c :: rest =>
    if c = '.' then !previousWasDot && legalCharacters true rest
    else (c = '_' || c = '-' || ('a' ≤ c && c ≤ 'z') || ('A' ≤ c && c ≤ 'Z')
      || ('0' ≤ c && c ≤ '9')) && legalCharacters false rest

def isLegalPropertyName (name : Text) : Bool :=
  name.length < propNameMax && 1 ≤ name.length && name.head? ≠ some '.'
    && name.getLast? ≠ some '.' && legalCharacters false name

/-- `property_get` of a name that is not set gives the empty text. -/
def propertyGet (s : InitState) (name : Text) : Text := (s.properties name).getD []

def actionAddQueueTail (s : InitState) (a : Nat) : InitState :=
  if a ∈ s.actionQueue then s else { s with actionQueue := s.actionQueue ++ [a] }

def queueActions (s : InitState) (test : Action → Bool) : InitState :=
  (List.range s.actions.length).foldl
    (fun s a => if s.actions[a]?.any test then actionAddQueueTail s a else s) s

variable (s : InitState)

theorem actionAddQueueTail_actions (a : Nat) : (actionAddQueueTail s a).actions = s.actions := by
  unfold actionAddQueueTail
  split <;> rfl

variable (test : Action → Bool)

theorem foldl_tested {actions : List Action} (places : List Nat)
    (s : InitState) (same : s.actions = actions) :
    places.foldl (fun s a => if s.actions[a]?.any test then actionAddQueueTail s a else s) s =
      (places.filter fun a => actions[a]?.any test).foldl actionAddQueueTail s := by
  induction places generalizing s with
  | nil => rfl
  | cons a places ih =>
    rw [List.foldl_cons, List.filter_cons, same]
    by_cases passes : actions[a]?.any test = true
    · rw [if_pos passes, if_pos passes, List.foldl_cons]
      exact ih _ ((actionAddQueueTail_actions s a).trans same)
    · rw [if_neg passes, if_neg passes]
      exact ih s same

theorem queueActions_eq :
    queueActions s test =
      ((List.range s.actions.length).filter fun a => s.actions[a]?.any test).foldl
        actionAddQueueTail s :=
  foldl_tested test _ s rfl

/-- `action_for_each_trigger` with `action_add_queue_tail`. -/
def actionForEachTrigger (s : InitState) (trigger : Text) : InitState :=
  queueActions s fun act => act.name = trigger

/-- What `queue_property_triggers` asks of an action. -/
def runTest (name value : Text) (act : Action) : Bool :=
  startsWith "property:" act.name &&
    (let test := act.name.drop 9
     name.isPrefixOf test && test[name.length]? = some '='
       && (test.drop (name.length + 1) = value || test.drop (name.length + 1) = ['*']))

def queuePropertyTriggers (s : InitState) (name value : Text) : InitState :=
  queueActions s (runTest name value)

/-- What `queue_all_property_triggers` asks of an action. -/
def bootTest (s : InitState) (act : Action) : Bool :=
  startsWith "property:" act.name &&
    (let name := (act.name.drop 9).takeWhile (· ≠ '=')
     match (act.name.drop 9).dropWhile (· ≠ '=') with
     | [] => false
     | _ :: expected =>
       name.length ≤ propNameMax && (expected = propertyGet s name || expected = ['*']))

def queueAllPropertyTriggers (s : InitState) : InitState := queueActions s (bootTest s)

def propertyChanged (s : InitState) (name value : Text) : InitState :=
  if s.propertyTriggersEnabled then queuePropertyTriggers s name value else s

/-- A write may be short; the file then holds what was written. -/
def writePersistentProperty (s : InitState) (name value : Text) : InitState :=
  let (answer, s) := s.ask
  if !answer.mkstemp then s
  else if !answer.renamed then s
  else { s with persisted :=
    Function.update s.persisted name (some (value.take answer.written)) }

def store (s : InitState) (name value : Text) : Bool × InitState :=
  if !isLegalPropertyName name then (false, s)
  else if propValueMax ≤ value.length then (false, s)
  else match s.properties name with
    | some _ =>
      if startsWith "ro." name then (false, s)
      else (true, { s with properties := Function.update s.properties name (some value) })
    | none =>
      let (answer, s) := s.ask
      if answer.room then
        (true, { s with properties := Function.update s.properties name (some value) })
      else (false, s)

def trackNetChange (s : InitState) (name : Text) : InitState := (store s "net.change".toList name).2

/-- `property_set`. A reload of the SELinux policy changes nothing but later answers. -/
def propertySet (s : InitState) (name value : Text) : Bool × InitState :=
  let (stored, s) := store s name value
  if !stored then (false, s)
  else if startsWith "net." name then
    if name = "net.change".toList then (true, s)
    else (true, propertyChanged (trackNetChange s name) name value)
  else if s.persistentPropertiesLoaded && startsWith "persist." name then
    (true, propertyChanged (writePersistentProperty s name value) name value)
  else (true, propertyChanged s name value)

def isspace (c : Char) : Bool := c = ' ' || ('\t' ≤ c && c ≤ '\r')

def trimTail : Text → Text
  | [] => []
  | c :: rest => c :: rest.rdropWhile isspace

def definition (line : Text) : Option (Text × Text) :=
  match line.dropWhile (· ≠ '=') with
  | [] => none
  | _ :: value =>
    let key := (line.takeWhile (· ≠ '=')).dropWhile isspace
    if key.head? = some '#' then none
    else some (trimTail key, trimTail (value.dropWhile isspace))

/-- What `load_properties` sets; the text behind the last newline is not a line. -/
def definitions (data : Text) : List (Text × Text) :=
  ((cString data).splitOn '\n').dropLast.filterMap definition

def setAll (s : InitState) (list : List (Text × Text)) : InitState :=
  list.foldl (fun s d => (propertySet s d.1 d.2).2) s

def loadProperties (s : InitState) (data : Text) : InitState := setAll s (definitions data)

def loadPropertiesFromFile (s : InitState) : InitState :=
  let (answer, s) := s.ask
  match answer.file with
  | none => s
  | some content => loadProperties s (content ++ ['\n'])

def insecure (entry : DirEntry) : Bool :=
  entry.mode &&& 0o77 ≠ 0 || entry.uid ≠ 0 || entry.gid ≠ 0 || entry.nlink ≠ 1

def persistentDefinition (entry : DirEntry) : Option (Text × Text) :=
  if !startsWith "persist." entry.name then none
  else if !entry.regular then none
  else if !entry.opens then none
  else if !entry.stats then none
  else if insecure entry then none
  else entry.content.map fun content => (entry.name, cString (content.take (propValueMax - 1)))

def loadPersistentProperties (s : InitState) : InitState :=
  let (answer, s) := s.ask
  let s := setAll s ((answer.directory.getD []).filterMap persistentDefinition)
  { s with persistentPropertiesLoaded := true }

def loadOverrideProperties (s : InitState) : InitState :=
  if s.allowLocalPropOverride && propertyGet s "ro.debuggable".toList = "1".toList then
    loadPropertiesFromFile s
  else s

def loadPersistProps (s : InitState) : InitState :=
  loadPersistentProperties (loadOverrideProperties s)

def startPropertyService (s : InitState) : InitState :=
  loadPersistProps (loadPropertiesFromFile (loadPropertiesFromFile s))

/-- The loop of `expand_props`: `left` is the room, `dst` what is written. The source shrinks
in every round, so its length is fuel enough. -/
def expandLoop (s : InitState) : Nat → Text → Nat → Text → Option Text
  | 0, _, _, dst => some dst
  | fuel + 1, src, left, dst =>
    if src = [] || left = 0 then some dst
    else
      let plain := src.takeWhile (· ≠ '$')
      let substitute (prop rest : Text) :=
        let value := propertyGet s prop
        if prop = [] || value = [] || left - plain.length < value.length then none
        else expandLoop s fuel rest (left - plain.length - value.length) (dst ++ plain ++ value)
      match src.dropWhile (· ≠ '$') with
      | [] => some (dst ++ src.take left)
      | _ :: c =>
        if left < plain.length then none
        else match c with
          | [] => some (dst ++ plain)
          | '$' :: rest =>
            expandLoop s fuel rest (left - plain.length - 1) (dst ++ plain ++ ['$'])
          | '\x7b' :: c =>
            let prop := (c.take propNameMax).takeWhile (· ≠ '\x7d')
            match c.drop prop.length with
            | '\x7d' :: rest => substitute prop rest
            | _ => none
          | c => if c.drop propNameMax ≠ [] then none else substitute c []

def expandProps (s : InitState) (src : Text) (dstSize : Nat) : Option Text :=
  if dstSize = 0 then none else expandLoop s (src.length + 1) src (dstSize - 1) []

theorem queueActions_aside : Aside s (queueActions s test) := by
  unfold queueActions
  generalize List.range s.actions.length = places
  induction places generalizing s with
  | nil => exact Aside.refl s
  | cons a rest ih =>
    rw [List.foldl_cons]
    refine Aside.trans ?_ (ih _)
    unfold actionAddQueueTail
    split_ifs <;> exact Aside.of_same rfl rfl rfl rfl rfl rfl id

variable (name value : Text)

theorem propertyChanged_aside : Aside s (propertyChanged s name value) := by
  unfold propertyChanged
  split_ifs
  · exact queueActions_aside _ _
  · exact Aside.refl s

theorem writePersistentProperty_aside : Aside s (writePersistentProperty s name value) := by
  unfold writePersistentProperty
  dsimp only
  split_ifs
  · exact ask_aside s
  · exact ask_aside s
  · exact (ask_aside s).trans (Aside.of_same rfl rfl rfl rfl rfl rfl id)

def Takes (s : InitState) (name value : Text) : Prop :=
  isLegalPropertyName name = true ∧ value.length < propValueMax ∧
    (s.properties name = none → (s.world 0).room = true) ∧
    (s.properties name ≠ none → startsWith "ro." name = false)

theorem store_spec :
    Quiet s (store s name value).2 ∧
      ((store s name value).1 = true ↔ Takes s name value) ∧
      (store s name value).2.properties =
        if (store s name value).1 then Function.update s.properties name (some value)
        else s.properties := by
  have asked := (ask_aside s).toQuiet
  have answer : s.ask.1 = s.world 0 := rfl
  unfold store Takes
  by_cases legal : isLegalPropertyName name = true
  swap
  · simp [legal, Quiet.refl]
  by_cases long : propValueMax ≤ value.length
  · simp [long, Nat.not_lt.mpr long, Quiet.refl]
  have short : value.length < propValueMax := Nat.lt_of_not_le long
  simp only [legal, long, Bool.not_true, Bool.false_eq_true, if_false]
  cases found : s.properties name with
  | some old =>
    cases fixed : startsWith "ro." name with
    | true => simp [Quiet.refl]
    | false => exact ⟨⟨rfl, rfl, id, Nat.le_refl _, ⟨0, by simp⟩, id⟩, by simp [short], by simp⟩
  | none =>
    simp only [answer]
    cases room : (s.world 0).room with
    | true =>
      refine ⟨{ asked with }, ?_, rfl⟩
      simp [short]
    | false => exact ⟨asked, by simp, rfl⟩

theorem store_elsewhere {s : InitState} {name value other : Text} (differs : other ≠ name) :
    (store s name value).2.properties other = s.properties other := by
  rw [(store_spec s name value).2.2]
  split_ifs
  · exact Function.update_of_ne differs _ _
  · rfl

theorem propertySet_spec :
    Quiet s (propertySet s name value).2 ∧
      ((propertySet s name value).1 = true ↔ Takes s name value) ∧
      ((propertySet s name value).2.properties =
          (store s name value).2.properties ∨
        Takes s name value ∧ startsWith "net." name = true ∧ name ≠ "net.change".toList ∧
          (propertySet s name value).2.properties =
            (trackNetChange (store s name value).2 name).properties) := by
  obtain ⟨quiet, taken, -⟩ := store_spec s name value
  have tracked := (store_spec (store s name value).2 "net.change".toList name).1
  have rest (t : InitState) := propertyChanged_aside t name value
  unfold propertySet
  dsimp only
  split_ifs with failed net change persist
  · exact ⟨quiet, by simpa using fun h => by simp_all, Or.inl rfl⟩
  · exact ⟨quiet, by simp_all, Or.inl rfl⟩
  · refine ⟨quiet.trans (tracked.trans (rest _).toQuiet), by simp_all, Or.inr ?_⟩
    exact ⟨by simp_all, net, change, (rest _).properties⟩
  · have written := writePersistentProperty_aside (store s name value).2 name value
    refine ⟨quiet.trans (written.toQuiet.trans (rest _).toQuiet), by simp_all, Or.inl ?_⟩
    exact (rest _).properties.trans written.properties
  · exact ⟨quiet.trans (rest _).toQuiet, by simp_all, Or.inl (rest _).properties⟩

theorem propertySet_at {s : InitState} {name value other : Text}
    (differs : other ≠ "net.change".toList) :
    (propertySet s name value).2.properties other = (store s name value).2.properties other := by
  rcases (propertySet_spec s name value).2.2 with direct | ⟨-, -, -, tracked⟩
  · rw [direct]
  · rw [tracked, trackNetChange, store_elsewhere differs]

theorem propertySet_quiet : Quiet s (propertySet s name value).2 :=
  (propertySet_spec s name value).1

end AndroidBoot.Init.Properties
