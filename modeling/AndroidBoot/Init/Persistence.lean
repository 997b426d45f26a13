/- source: init/init/property_service.c
   digest: What the files of the persistent properties hold, and what loading them gives. -/

import AndroidBoot.Init.ReadOnly

set_option autoImplicit false

namespace AndroidBoot.Init.Persistence

open Function State Properties Machine
open ReadOnly (Roomy roomy_propertySet)

def Atomic (s : InitState) (name value : Text) (t : InitState) : Prop :=
  ∀ file, t.persisted file = s.persisted file ∨ (file = name ∧ t.persisted file = some value)

/-- What the system answers when `property_set` writes the file. -/
def saving (s : InitState) (name value : Text) : Answer := (store s name value).2.world 0

def Torn (s : InitState) (name value : Text) : Prop :=
  (store s name value).1 = true ∧ (saving s name value).mkstemp = true ∧
    (saving s name value).renamed = true ∧ (saving s name value).written < value.length ∧
    s.persisted name ≠ some (value.take (saving s name value).written)

/-- `P` of every call, in the state that the calls before it leave. -/
def AtEach (P : InitState → Text → Text → Prop) : InitState → List (Text × Text) → Prop
  | _, [] => True
  | s, (name, value) :: rest => P s name value ∧ AtEach P (propertySet s name value).2 rest

def Lists (files : Text → Option Text) (entries : List DirEntry) : Prop :=
  ∀ entry ∈ entries, ∀ content, entry.content = some content → files entry.name = some content

section Files

variable {s : InitState} {name value : Text}

theorem store_files (s : InitState) (name value : Text) :
    (store s name value).2.persisted = s.persisted ∧
      (store s name value).2.persistentPropertiesLoaded = s.persistentPropertiesLoaded := by
  unfold store
  by_cases legal : isLegalPropertyName name = true
  swap
  · simp [legal]
  by_cases long : propValueMax ≤ value.length
  · simp [long]
  simp only [legal, long, Bool.not_true, Bool.false_eq_true, if_false]
  cases s.properties name with
  | some old => cases startsWith "ro." name <;> exact ⟨rfl, rfl⟩
  | none =>
    split_ifs <;> exact ⟨rfl, rfl⟩

theorem propertyChanged_files (s : InitState) (name value : Text) :
    (propertyChanged s name value).persisted = s.persisted ∧
      (propertyChanged s name value).persistentPropertiesLoaded = s.persistentPropertiesLoaded := by
  unfold propertyChanged queuePropertyTriggers queueActions
  split_ifs with enabled
  swap
  · exact ⟨rfl, rfl⟩
  clear enabled
  generalize List.range s.actions.length = places
  induction places generalizing s with
  | nil => exact ⟨rfl, rfl⟩
  | cons a rest ih =>
    rw [List.foldl_cons]
    refine ⟨(ih _).1.trans ?_, (ih _).2.trans ?_⟩ <;>
    · unfold actionAddQueueTail
      split_ifs <;> rfl

section Persistent

variable (persistent : startsWith "persist." name = true)
include persistent

theorem persist_head : ∃ rest, name = 'p' :: rest := by
  cases name with
  | nil => cases persistent
  | cons c rest =>
    have head : ('p' == c) = true := (Bool.and_eq_true_iff.mp persistent).1
    exact ⟨rest, by rw [beq_iff_eq.mp head]⟩

theorem persist_not_net : startsWith "net." name = false := by
  obtain ⟨rest, rfl⟩ := persist_head persistent
  rfl

theorem propertySet_files (loaded : s.persistentPropertiesLoaded = true) (value : Text) :
    (propertySet s name value).2.persistentPropertiesLoaded = true ∧
      (propertySet s name value).2.persisted =
        if (store s name value).1 = true ∧ (saving s name value).mkstemp = true ∧
            (saving s name value).renamed = true then
          update s.persisted name (some (value.take (saving s name value).written))
        else s.persisted := by
  obtain ⟨files, flag⟩ := store_files s name value
  have still : (store s name value).2.persistentPropertiesLoaded = true := flag.trans loaded
  unfold propertySet
  dsimp only
  cases stored : (store s name value).1 with
  | false => simp [files, still]
  | true =>
    rw [persist_not_net persistent, still, persistent]
    obtain ⟨changed, kept⟩ := propertyChanged_files
      (writePersistentProperty (store s name value).2 name value) name value
    have same : (writePersistentProperty (store s name value).2 name value).persisted =
        if (saving s name value).mkstemp = true ∧ (saving s name value).renamed = true then
          update s.persisted name (some (value.take (saving s name value).written))
        else s.persisted := by
      rw [← files]
      unfold writePersistentProperty saving InitState.ask
      dsimp only
      cases ((store s name value).2.world 0).mkstemp <;>
        cases ((store s name value).2.world 0).renamed <;> rfl
    have flagged : (writePersistentProperty (store s name value).2 name
        value).persistentPropertiesLoaded = true := by
      unfold writePersistentProperty InitState.ask
      dsimp only
      split_ifs <;> exact still
    refine ⟨kept.trans flagged, changed.trans (same.trans ?_)⟩
    simp

theorem atomic_iff (loaded : s.persistentPropertiesLoaded = true) (value : Text) :
    Atomic s name value (propertySet s name value).2 ↔ ¬ Torn s name value := by
  have files := (propertySet_files persistent loaded value).2
  unfold Atomic Torn
  rw [files]
  by_cases renamed : (store s name value).1 = true ∧ (saving s name value).mkstemp = true ∧
      (saving s name value).renamed = true
  swap
  · rw [if_neg renamed]
    exact ⟨fun _ torn => renamed ⟨torn.1, torn.2.1, torn.2.2.1⟩, fun _ file => Or.inl rfl⟩
  rw [if_pos renamed]
  constructor
  · rintro atomic ⟨-, -, -, short, new⟩
    rcases atomic name with kept | ⟨-, whole⟩
    · exact new (by rw [← kept, update_self])
    · rw [update_self, Option.some.injEq] at whole
      have cut := congrArg List.length whole
      rw [List.length_take] at cut
      omega
  · intro untorn file
    by_cases mine : file = name
    swap
    · exact Or.inl (update_of_ne mine _ _)
    subst mine
    rw [update_self]
    rcases Nat.lt_or_ge (saving s file value).written value.length with short | whole
    · left
      by_contra new
      exact untorn ⟨renamed.1, renamed.2.1, renamed.2.2, short, Ne.symm new⟩
    · exact Or.inr ⟨rfl, by rw [List.take_of_length_le whole]⟩

end Persistent

end Files

def Valued (value : Text) : Prop := value.length < propValueMax ∧ '\x00' ∉ value

section Calls

variable {s : InitState} {calls : List (Text × Text)}

theorem atEach_atomic_iff (loaded : s.persistentPropertiesLoaded = true)
    (persistent : ∀ call ∈ calls, startsWith "persist." call.1 = true) :
    AtEach (fun s name value => Atomic s name value (propertySet s name value).2) s calls ↔
      AtEach (fun s name value => ¬ Torn s name value) s calls := by
  induction calls generalizing s with
  | nil => exact Iff.rfl
  | cons call rest ih =>
    have mine := persistent call List.mem_cons_self
    have later := ih (propertySet_files mine loaded call.2).1 (List.forall_mem_cons.mp persistent).2
    exact and_congr (atomic_iff mine loaded call.2) later

theorem files_of_untorn (loaded : s.persistentPropertiesLoaded = true)
    (persistent : ∀ call ∈ calls, startsWith "persist." call.1 = true ∧ '\x00' ∉ call.2)
    (untorn : AtEach (fun s name value => ¬ Torn s name value) s calls) (file : Text) :
    (setAll s calls).persisted file = s.persisted file ∨
      ∃ value, (file, value) ∈ calls ∧ Valued value ∧
        (setAll s calls).persisted file = some value := by
  induction calls generalizing s with
  | nil => exact Or.inl rfl
  | cons call rest ih =>
    obtain ⟨name, value⟩ := call
    obtain ⟨mine, plain⟩ := persistent (name, value) List.mem_cons_self
    obtain ⟨whole, later⟩ := untorn
    have atomic := (atomic_iff mine loaded value).mpr whole
    have after := ih (propertySet_files mine loaded value).1
      (List.forall_mem_cons.mp persistent).2 later
    have all : setAll s ((name, value) :: rest) = setAll (propertySet s name value).2 rest := rfl
    rw [all]
    rcases after with kept | ⟨late, member, valued, holds⟩
    swap
    · exact Or.inr ⟨late, List.mem_cons_of_mem _ member, valued, holds⟩
    rw [kept]
    by_cases same : (propertySet s name value).2.persisted file = s.persisted file
    · exact Or.inl same
    obtain ⟨rfl, holds⟩ := (atomic file).resolve_left same
    have stored : (store s file value).1 = true := by
      by_contra refused
      rw [(propertySet_files mine loaded value).2, if_neg (fun h => refused h.1)] at same
      exact same rfl
    have short := ((store_spec s file value).2.1.mp stored).2.1
    exact Or.inr ⟨value, List.mem_cons_self, ⟨short, plain⟩, holds⟩

end Calls

section Loading

variable {name : Text}

theorem persist_ne_netChange (persistent : startsWith "persist." name = true) :
    name ≠ "net.change".toList := by
  rintro rfl
  cases persistent

theorem persist_not_ro (persistent : startsWith "persist." name = true) :
    startsWith "ro." name = false := by
  obtain ⟨rest, rfl⟩ := persist_head persistent
  rfl

theorem cString_take_of_valued {value : Text} (valued : Valued value) :
    cString (value.take (propValueMax - 1)) = value := by
  have fits : value.length ≤ propValueMax - 1 := Nat.le_sub_one_of_lt valued.1
  rw [List.take_of_length_le fits]
  refine List.takeWhile_eq_self_iff.mpr fun c member => ?_
  have other : c ≠ '\x00' := fun zero => valued.2 (zero ▸ member)
  simpa using other

theorem persistentDefinition_eq_some {entry : DirEntry} {d : Text × Text}
    (defines : persistentDefinition entry = some d) :
    d.1 = entry.name ∧ ∃ content, entry.content = some content ∧
      d.2 = cString (content.take (propValueMax - 1)) := by
  unfold persistentDefinition at defines
  split_ifs at defines
  obtain ⟨content, holds, rfl⟩ := Option.map_eq_some_iff.mp defines
  exact ⟨rfl, content, holds, rfl⟩

variable {files : Text → Option Text}

theorem mem_definitions {entries : List DirEntry}
    (lists : Lists files entries)
    (valued : ∀ file content, files file = some content → Valued content) {d : Text × Text}
    (member : d ∈ entries.filterMap persistentDefinition) : files d.1 = some d.2 := by
  obtain ⟨entry, listed, defines⟩ := List.mem_filterMap.mp member
  obtain ⟨named, content, holds, read⟩ := persistentDefinition_eq_some defines
  have kept := lists entry listed content holds
  rw [named, read, cString_take_of_valued (valued _ _ kept)]
  exact kept

theorem setAll_from_files (s : InitState)
    {list : List (Text × Text)} (agree : ∀ d ∈ list, files d.1 = some d.2)
    (other : name ≠ "net.change".toList) :
    (setAll s list).properties name = s.properties name ∨
      ∃ value, files name = some value ∧ (setAll s list).properties name = some value := by
  induction list generalizing s with
  | nil => exact Or.inl rfl
  | cons d rest ih =>
    have first := agree d List.mem_cons_self
    have all : setAll s (d :: rest) = setAll (propertySet s d.1 d.2).2 rest := rfl
    rw [all]
    rcases ih (propertySet s d.1 d.2).2 (List.forall_mem_cons.mp agree).2 with kept | loaded
    swap
    · exact Or.inr loaded
    rw [kept, propertySet_at other]
    by_cases mine : name = d.1
    swap
    · exact Or.inl (store_elsewhere mine)
    subst mine
    rw [(store_spec s d.1 d.2).2.2]
    split_ifs
    · exact Or.inr ⟨d.2, first, update_self _ _ _⟩
    · exact Or.inl rfl

theorem setAll_of_mem {s : InitState} {list : List (Text × Text)}
    (agree : ∀ d ∈ list, files d.1 = some d.2) (room : Roomy s)
    (persistent : startsWith "persist." name = true) (legal : isLegalPropertyName name = true)
    {value : Text} (short : value.length < propValueMax) (member : (name, value) ∈ list) :
    (setAll s list).properties name = files name := by
  have other := persist_ne_netChange persistent
  induction list generalizing s with
  | nil => cases member
  | cons d rest ih =>
    have later := (List.forall_mem_cons.mp agree).2
    rcases List.mem_cons.mp member with rfl | within
    · have stored : (store s name value).1 = true :=
        (store_spec s name value).2.1.mpr
          ⟨legal, short, fun _ => room 0, fun _ => persist_not_ro persistent⟩
      have now : (propertySet s name value).2.properties name = files name := by
        rw [propertySet_at other, (store_spec s name value).2.2, if_pos stored,
          update_self, agree (name, value) List.mem_cons_self]
      rcases setAll_from_files (propertySet s name value).2 later other with
        kept | ⟨held, holds, loaded⟩
      · exact kept.trans now
      · exact loaded.trans holds.symm
    · exact ih later (roomy_propertySet d.1 d.2 room) within

theorem loadPersistentProperties_properties {boot : InitState} {entries : List DirEntry}
    (directory : (boot.world 0).directory = some entries) :
    (loadPersistentProperties boot).properties =
      (setAll boot.ask.2 (entries.filterMap persistentDefinition)).properties := by
  have answer : boot.ask.1.directory = some entries := directory
  unfold loadPersistentProperties
  dsimp only
  rw [answer]
  rfl

end Loading

/-- The files change atomically in every sequence of calls if and only if no call is torn. If none
is, loading the directory leaves each persistent property alone or gives it a value that was set
before or by the calls, and the value of its file if that is readable and the store has room. -/
theorem persistent_properties_atomic (s : InitState) (calls : List (Text × Text))
    (loaded : s.persistentPropertiesLoaded = true)
    (persistent : ∀ call ∈ calls, startsWith "persist." call.1 = true ∧ '\x00' ∉ call.2) :
    (AtEach (fun s name value => Atomic s name value (propertySet s name value).2) s calls ↔
      AtEach (fun s name value => ¬ Torn s name value) s calls) ∧
    (AtEach (fun s name value => ¬ Torn s name value) s calls →
      ∀ wasSet : Text → Text → Prop,
        (∀ name value, s.persisted name = some value → wasSet name value ∧ Valued value) →
      ∀ boot entries, (boot.world 0).directory = some entries →
        Lists (setAll s calls).persisted entries →
      ∀ name, startsWith "persist." name = true →
        ((loadPersistentProperties boot).properties name = boot.properties name ∨
          ∃ value, (wasSet name value ∨ (name, value) ∈ calls) ∧
            (loadPersistentProperties boot).properties name = some value) ∧
        (isLegalPropertyName name = true → Roomy boot →
          (∃ entry ∈ entries, entry.name = name ∧ (persistentDefinition entry).isSome = true) →
            (loadPersistentProperties boot).properties name =
              (setAll s calls).persisted name)) := by
  refine ⟨atEach_atomic_iff loaded fun call member => (persistent call member).1, ?_⟩
  intro untorn wasSet before boot entries directory lists name mine
  have holds := files_of_untorn loaded persistent untorn
  have wasSetOrCalled : ∀ file value, (setAll s calls).persisted file = some value →
      (wasSet file value ∨ (file, value) ∈ calls) ∧ Valued value := by
    intro file value found
    rcases holds file with kept | ⟨set, member, valued, new⟩
    · obtain ⟨was, valued⟩ := before file value (kept.symm.trans found)
      exact ⟨Or.inl was, valued⟩
    · obtain rfl : set = value := Option.some.inj (new.symm.trans found)
      exact ⟨Or.inr member, valued⟩
  have agree : ∀ d ∈ entries.filterMap persistentDefinition,
      (setAll s calls).persisted d.1 = some d.2 := fun d member =>
    mem_definitions lists (fun file content found => (wasSetOrCalled file content found).2) member
  rw [loadPersistentProperties_properties directory]
  refine ⟨?_, ?_⟩
  · rcases setAll_from_files boot.ask.2 agree (persist_ne_netChange mine) with
      kept | ⟨value, found, gives⟩
    · exact Or.inl kept
    · exact Or.inr ⟨value, (wasSetOrCalled name value found).1, gives⟩
  · rintro legal room ⟨entry, listed, named, defines⟩
    obtain ⟨d, defines⟩ := Option.isSome_iff_exists.mp defines
    have member : d ∈ entries.filterMap persistentDefinition :=
      List.mem_filterMap.mpr ⟨entry, listed, defines⟩
    have same : d.1 = name := (persistentDefinition_eq_some defines).1.trans named
    subst same
    have short := (wasSetOrCalled d.1 d.2 (agree d member)).2.1
    exact setAll_of_mem agree (fun n => room (n + 1)) mine legal short member

/-- init after the loading, with the time zone in its file; a write gets at most `written`
characters into a file. -/
def zoned (written : Nat) : InitState :=
  { booting [] [] with
    persistentPropertiesLoaded := true
    persisted := fun file =>
      if file = "persist.sys.timezone".toList then some "UTC".toList else none
    world := fun _ => { written } }

def rebooted (content : Option Text) : InitState :=
  { booting [] [] with world := fun _ =>
    { directory := some [⟨"persist.sys.timezone".toList, true, true, true, 0o600, 0, 0, 1,
        content⟩] } }

theorem persistent_properties_atomic_timezone :
    let calls := [("persist.sys.timezone".toList, "GMT".toList),
      ("persist.sys.timezone".toList, "CET".toList)]
    (loadPersistentProperties (rebooted (some "CET".toList))).properties
      "persist.sys.timezone".toList = (setAll (zoned 91) calls).persisted
        "persist.sys.timezone".toList := by
  intro calls
  have holds : (setAll (zoned 91) calls).persisted "persist.sys.timezone".toList =
      some "CET".toList := by decide +kernel
  refine ((persistent_properties_atomic (zoned 91) calls rfl (by decide +kernel)).2 ?_
    (fun _ value => value = "UTC".toList) ?_ (rebooted (some "CET".toList)) _ rfl ?_
    "persist.sys.timezone".toList rfl).2 rfl (fun _ => rfl) ?_
  · refine ⟨?_, ?_, trivial⟩
    · rintro ⟨-, -, -, short, -⟩
      exact absurd short (by decide +kernel)
    · rintro ⟨-, -, -, short, -⟩
      exact absurd short (by decide +kernel)
  · intro name value found
    have named : value = "UTC".toList := by
      unfold zoned at found
      dsimp only at found
      split_ifs at found
      exact (Option.some.inj found).symm
    subst named
    exact ⟨rfl, by decide, by decide⟩
  · intro entry member content found
    obtain rfl := List.mem_singleton.mp member
    rw [← found]
    exact holds
  · exact ⟨_, List.mem_singleton_self _, rfl, rfl⟩

theorem timezone_torn :
    let s := (propertySet (zoned 1) "persist.sys.timezone".toList "GMT".toList).2
    (zoned 1).persisted "persist.sys.timezone".toList = some "UTC".toList ∧
      s.persisted "persist.sys.timezone".toList = some "G".toList ∧
      (loadPersistentProperties (rebooted (s.persisted "persist.sys.timezone".toList))).properties
        "persist.sys.timezone".toList = some "G".toList := by
  decide +kernel

end AndroidBoot.Init.Persistence
