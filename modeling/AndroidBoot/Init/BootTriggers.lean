/- source: init/init/init_parser.c
   digest: The property triggers queued at boot against those queued when a property is set. -/

import AndroidBoot.Init.Machine

set_option autoImplicit false

namespace AndroidBoot.Init.BootTriggers

open State Properties Services Machine Foundation.Run

section Queueing

theorem foldl_queue (places : List Nat) (once : places.Nodup) (s : InitState) :
    (places.foldl actionAddQueueTail s).actionQueue =
      s.actionQueue ++ places.filter fun a => a ∉ s.actionQueue := by
  induction places generalizing s with
  | nil => exact (List.append_nil _).symm
  | cons a places ih =>
    obtain ⟨fresh, once⟩ := List.nodup_cons.mp once
    rw [List.foldl_cons, ih once, actionAddQueueTail]
    by_cases queued : a ∈ s.actionQueue
    · simp [queued]
    · have others : places.filter (fun b => b ∉ s.actionQueue ++ [a]) =
          places.filter fun b => b ∉ s.actionQueue := by
        refine List.filter_congr fun b member => ?_
        have apart : b ≠ a := fun same => fresh (same ▸ member)
        simp [apart]
      rw [if_neg queued, List.filter_cons_of_pos (by simpa using queued)]
      simp only [others, List.append_assoc, List.singleton_append]

theorem queueActions_queue (s : InitState) (test : Action → Bool) :
    (queueActions s test).actionQueue =
      s.actionQueue ++ (List.range s.actions.length).filter
        fun a => s.actions[a]?.any test && a ∉ s.actionQueue := by
  rw [queueActions_eq, foldl_queue _ (List.nodup_range.filter _), List.filter_filter]
  refine congrArg _ (List.filter_congr fun a _ => Bool.and_comm _ _)

theorem mem_queueActions (s : InitState) (test : Action → Bool) (a : Nat) :
    a ∈ (queueActions s test).actionQueue ∧ a ∉ s.actionQueue ↔
      a ∉ s.actionQueue ∧ ∃ act, s.actions[a]? = some act ∧ test act = true := by
  rw [queueActions_queue, List.mem_append, List.mem_filter, List.mem_range, Bool.and_eq_true,
    Option.any_eq_true, decide_eq_true_eq]
  constructor
  · rintro ⟨old | ⟨-, passes, -⟩, fresh⟩
    · exact absurd old fresh
    · exact ⟨fresh, passes⟩
  · rintro ⟨fresh, act, found, passes⟩
    have inside := (List.getElem?_eq_some_iff.mp found).1
    exact ⟨Or.inr ⟨inside, ⟨act, found, passes⟩, fresh⟩, fresh⟩

/-- A call of `queue_property_triggers` would enqueue the action at this place. -/
def Enqueues (s : InitState) (name value : Text) (a : Nat) : Prop :=
  a ∈ (queuePropertyTriggers s name value).actionQueue ∧ a ∉ s.actionQueue

/-- What `queue_all_property_triggers` enqueues is what the properties that are set would have
enqueued, each action once and in the order of the list. -/
def Agrees (s : InitState) : Prop :=
  ∃ added, (queueAllPropertyTriggers s).actionQueue = s.actionQueue ++ added ∧
    added.Pairwise (· < ·) ∧
    ∀ a, a ∈ added ↔ ∃ name value, s.properties name = some value ∧ Enqueues s name value a

end Queueing

section Matching

/-- The trigger `property:<name>=<expected>`, with the first `=` behind the name. -/
structure Trigger (act : Action) (name expected : Text) : Prop where
  text : act.name = "property:".toList ++ (name ++ '=' :: expected)
  first : '=' ∉ name

variable {act : Action} {name name' expected expected' : Text}

theorem takeWhile_equals (first : '=' ∉ name) :
    (name ++ '=' :: expected).takeWhile (· ≠ '=') = name := by
  rw [List.takeWhile_append_of_pos]
  · simp
  · intro c member
    exact decide_eq_true fun same => first (same ▸ member)

theorem dropWhile_equals (first : '=' ∉ name) :
    (name ++ '=' :: expected).dropWhile (· ≠ '=') = '=' :: expected := by
  rw [List.dropWhile_append_of_pos]
  · simp
  · intro c member
    exact decide_eq_true fun same => first (same ▸ member)

theorem Trigger.unique (one : Trigger act name expected) (two : Trigger act name' expected') :
    name = name' ∧ expected = expected' := by
  have same := List.append_cancel_left (one.text.symm.trans two.text)
  have names : name = name' := by
    have cut := congrArg (List.takeWhile (· ≠ '=')) same
    rwa [takeWhile_equals one.first, takeWhile_equals two.first] at cut
  subst names
  exact ⟨rfl, (List.cons.inj (List.append_cancel_left same)).2⟩

theorem startsWith_property (text : Text) :
    startsWith "property:" text = true ↔ ∃ test, text = "property:".toList ++ test := by
  rw [startsWith, List.isPrefixOf_iff_prefix]
  exact ⟨fun ⟨test, same⟩ => ⟨test, same.symm⟩, fun ⟨test, same⟩ => ⟨test, same.symm⟩⟩

theorem runTest_iff (name value : Text) (act : Action) :
    runTest name value act = true ↔ ∃ expected,
      act.name = "property:".toList ++ (name ++ '=' :: expected) ∧
        (expected = value ∨ expected = ['*']) := by
  unfold runTest
  rw [Bool.and_eq_true, startsWith_property]
  constructor
  · rintro ⟨⟨test, text⟩, rest⟩
    have dropped : act.name.drop 9 = test := by rw [text]; rfl
    rw [dropped] at rest
    simp only [Bool.and_eq_true, Bool.or_eq_true, decide_eq_true_eq,
      List.isPrefixOf_iff_prefix] at rest
    obtain ⟨⟨⟨behind, rfl⟩, equals⟩, value⟩ := rest
    rw [List.getElem?_append_right (Nat.le_refl _), Nat.sub_self] at equals
    cases behind with
    | nil => cases equals
    | cons c expected =>
      obtain rfl : c = '=' := Option.some.inj equals
      refine ⟨expected, text, ?_⟩
      rwa [List.drop_append, Nat.add_sub_cancel_left, List.drop_of_length_le (Nat.le_succ _)] at value
  · rintro ⟨expected, text, value⟩
    have dropped : act.name.drop 9 = name ++ '=' :: expected := by rw [text]; rfl
    refine ⟨⟨_, text⟩, ?_⟩
    rw [dropped]
    simp only [Bool.and_eq_true, Bool.or_eq_true, decide_eq_true_eq, List.isPrefixOf_iff_prefix]
    refine ⟨⟨⟨_, rfl⟩, ?_⟩, ?_⟩
    · rw [List.getElem?_append_right (Nat.le_refl _), Nat.sub_self]
      rfl
    · rwa [List.drop_append, Nat.add_sub_cancel_left, List.drop_of_length_le (Nat.le_succ _)]

def parsed (act : Action) : Option (Text × Text) :=
  if startsWith "property:" act.name then
    match (act.name.drop 9).dropWhile (· ≠ '=') with
    | [] => none
    | _ :: expected => some ((act.name.drop 9).takeWhile (· ≠ '='), expected)
  else none

theorem parsed_iff (act : Action) (name expected : Text) :
    parsed act = some (name, expected) ↔ Trigger act name expected := by
  constructor
  · intro found
    unfold parsed at found
    split_ifs at found with head
    obtain ⟨test, text⟩ := (startsWith_property act.name).mp head
    have dropped : act.name.drop 9 = test := by rw [text]; rfl
    rw [dropped] at found
    have whole := List.takeWhile_append_dropWhile (p := (· ≠ '=')) (l := test)
    have equals := List.head?_dropWhile_not (· ≠ '=') test
    have first : '=' ∉ test.takeWhile (· ≠ '=') := by
      intro member
      simpa using List.mem_takeWhile_imp member
    generalize test.dropWhile (· ≠ '=') = behind at found whole equals
    cases behind with
    | nil => cases found
    | cons c expected =>
      obtain rfl : c = '=' := by simpa using equals
      obtain ⟨rfl, rfl⟩ := Prod.mk.inj (Option.some.inj found)
      exact ⟨by rw [text, whole], first⟩
  · intro trigger
    have head : startsWith "property:" act.name = true :=
      (startsWith_property act.name).mpr ⟨_, trigger.text⟩
    have dropped : act.name.drop 9 = name ++ '=' :: expected := by rw [trigger.text]; rfl
    rw [parsed, if_pos head, dropped, takeWhile_equals trigger.first,
      dropWhile_equals trigger.first]

theorem bootTest_eq (s : InitState) (act : Action) :
    bootTest s act = (parsed act).any fun trigger =>
      trigger.1.length ≤ propNameMax && (trigger.2 = propertyGet s trigger.1 || trigger.2 = ['*']) := by
  unfold bootTest parsed
  cases startsWith "property:" act.name with
  | false => rfl
  | true =>
    generalize (act.name.drop 9).dropWhile (· ≠ '=') = behind
    cases behind <;> rfl

theorem bootTest_iff (s : InitState) (act : Action) :
    bootTest s act = true ↔ ∃ name expected, Trigger act name expected ∧
      name.length ≤ propNameMax ∧ (expected = propertyGet s name ∨ expected = ['*']) := by
  rw [bootTest_eq, Option.any_eq_true, Prod.exists]
  refine exists₂_congr fun name expected => ?_
  rw [parsed_iff, Bool.and_eq_true, Bool.or_eq_true, decide_eq_true_eq, decide_eq_true_eq,
    decide_eq_true_eq]

end Matching

section Agreement

variable {s : InitState} {act : Action}

theorem legalCharacters_equals (dot : Bool) (name : Text) (legal : legalCharacters dot name = true) :
    '=' ∉ name := by
  induction name generalizing dot with
  | nil => exact List.not_mem_nil
  | cons c rest ih =>
    rw [legalCharacters] at legal
    intro member
    rcases List.mem_cons.mp member with rfl | member
    · exact absurd legal (by simp)
    · split_ifs at legal with isDot
      · exact ih true (Bool.and_eq_true_iff.mp legal).2 member
      · exact ih false (Bool.and_eq_true_iff.mp legal).2 member

theorem legalName_equals {name : Text} (legal : isLegalPropertyName name = true) :
    '=' ∉ name ∧ name.length ≤ propNameMax := by
  simp only [isLegalPropertyName, Bool.and_eq_true, decide_eq_true_eq] at legal
  obtain ⟨⟨⟨⟨short, -⟩, -⟩, -⟩, characters⟩ := legal
  exact ⟨legalCharacters_equals false name characters, Nat.le_of_lt short⟩

def Triggered (s : InitState) (act : Action) : Prop :=
  ∃ name value, s.properties name = some value ∧ runTest name value act = true

def AsksUnset (s : InitState) (act : Action) : Prop :=
  ∃ name, s.properties name = none ∧ name.length ≤ propNameMax ∧
    (Trigger act name [] ∨ Trigger act name ['*'])

instance : Decidable (AsksUnset s act) :=
  decidable_of_iff ((parsed act).any (fun trigger => s.properties trigger.1 = none &&
      (trigger.1.length ≤ propNameMax && (trigger.2 = [] || trigger.2 = ['*']))) = true) <| by
    rw [Option.any_eq_true, Prod.exists]
    simp only [parsed_iff, Bool.and_eq_true, Bool.or_eq_true, decide_eq_true_eq]
    constructor
    · rintro ⟨name, expected, trigger, unset, short, rfl | rfl⟩
      · exact ⟨name, unset, short, Or.inl trigger⟩
      · exact ⟨name, unset, short, Or.inr trigger⟩
    · rintro ⟨name, unset, short, trigger | trigger⟩
      · exact ⟨name, [], trigger, unset, short, Or.inl rfl⟩
      · exact ⟨name, ['*'], trigger, unset, short, Or.inr rfl⟩

theorem triggered_iff (legal : LegalStore s) :
    Triggered s act ↔ ∃ name expected value, Trigger act name expected ∧
      s.properties name = some value ∧ (expected = value ∨ expected = ['*']) := by
  constructor
  · rintro ⟨name, value, present, passes⟩
    obtain ⟨expected, text, value'⟩ := (runTest_iff name value act).mp passes
    exact ⟨name, expected, value, ⟨text, (legalName_equals (legal name value present)).1⟩, present,
      value'⟩
  · rintro ⟨name, expected, value, trigger, present, value'⟩
    exact ⟨name, value, present, (runTest_iff name value act).mpr ⟨expected, trigger.text, value'⟩⟩

theorem bootTest_of_triggered (legal : LegalStore s) (triggered : Triggered s act) :
    bootTest s act = true := by
  obtain ⟨name, expected, value, trigger, present, value'⟩ := (triggered_iff legal).mp triggered
  refine (bootTest_iff s act).mpr ⟨name, expected, trigger, ?_, ?_⟩
  · exact (legalName_equals (legal name value present)).2
  · rwa [propertyGet, present]

theorem bootTest_iff_triggered (legal : LegalStore s) :
    (bootTest s act = true ↔ Triggered s act) ↔ ¬AsksUnset s act := by
  constructor
  · rintro agrees ⟨name, unset, short, trigger⟩
    have passes : bootTest s act = true := by
      refine (bootTest_iff s act).mpr ?_
      rcases trigger with empty | any
      · exact ⟨name, [], empty, short, Or.inl (by rw [propertyGet, unset]; rfl)⟩
      · exact ⟨name, ['*'], any, short, Or.inr rfl⟩
    obtain ⟨name', expected, value, trigger', present, -⟩ :=
      (triggered_iff legal).mp (agrees.mp passes)
    have same : name = name' := by
      rcases trigger with empty | any
      · exact (empty.unique trigger').1
      · exact (any.unique trigger').1
    rw [← same, unset] at present
    cases present
  · intro asks
    refine ⟨fun passes => ?_, bootTest_of_triggered legal⟩
    obtain ⟨name, expected, trigger, short, value⟩ := (bootTest_iff s act).mp passes
    rw [propertyGet] at value
    cases present : s.properties name with
    | some held =>
      rw [present] at value
      exact (triggered_iff legal).mpr ⟨name, expected, held, trigger, present, value⟩
    | none =>
      rw [present] at value
      refine absurd ⟨name, present, short, ?_⟩ asks
      rcases value with rfl | rfl
      · exact Or.inl trigger
      · exact Or.inr trigger

theorem enqueues_iff (name value : Text) (a : Nat) :
    Enqueues s name value a ↔
      a ∉ s.actionQueue ∧ ∃ act, s.actions[a]? = some act ∧ runTest name value act = true := by
  exact mem_queueActions s _ a

theorem agrees_iff_each :
    Agrees s ↔ ∀ a act, s.actions[a]? = some act → a ∉ s.actionQueue →
      (bootTest s act = true ↔ Triggered s act) := by
  have queue := queueActions_queue s (bootTest s)
  have member := mem_queueActions s (bootTest s)
  constructor
  · rintro ⟨added, boot, -, each⟩ a act found fresh
    have booted : a ∈ added ↔ bootTest s act = true := by
      have here := member a
      rw [← queueAllPropertyTriggers, boot, List.mem_append] at here
      constructor
      · intro inside
        obtain ⟨-, act', found', passes⟩ := here.mp ⟨Or.inr inside, fresh⟩
        exact Option.some.inj (found.symm.trans found') ▸ passes
      · intro passes
        exact (here.mpr ⟨fresh, act, found, passes⟩).1.resolve_left fresh
    rw [← booted, each a]
    constructor
    · rintro ⟨name, value, present, enqueues⟩
      obtain ⟨-, act', found', passes⟩ := (enqueues_iff name value a).mp enqueues
      exact ⟨name, value, present, Option.some.inj (found.symm.trans found') ▸ passes⟩
    · rintro ⟨name, value, present, passes⟩
      exact ⟨name, value, present, (enqueues_iff name value a).mpr ⟨fresh, act, found, passes⟩⟩
  · intro each
    refine ⟨_, queue, List.pairwise_lt_range.filter _, fun a => ?_⟩
    rw [List.mem_filter, List.mem_range, Bool.and_eq_true, Option.any_eq_true, decide_eq_true_eq]
    constructor
    · rintro ⟨-, ⟨act, found, passes⟩, fresh⟩
      obtain ⟨name, value, present, passes⟩ := (each a act found fresh).mp passes
      exact ⟨name, value, present, (enqueues_iff name value a).mpr ⟨fresh, act, found, passes⟩⟩
    · rintro ⟨name, value, present, enqueues⟩
      obtain ⟨fresh, act, found, passes⟩ := (enqueues_iff name value a).mp enqueues
      have boot := (each a act found fresh).mpr ⟨name, value, present, passes⟩
      exact ⟨(List.getElem?_eq_some_iff.mp found).1, ⟨act, found, boot⟩, fresh⟩

theorem legalStore_booting (services : List Service) (actions : List Action) :
    LegalStore (booting services actions) := by
  intro name value present
  cases present

theorem legalStore_run {start : InitState} (legal : LegalStore start)
    (run : Reach step (fun _ _ => True) start s) : LegalStore s := by
  refine run.invariant LegalStore legal ?_
  intro s event t legal _ next
  obtain ⟨rfl, -⟩ := step_eq_some next
  refine handle_of_write (fun s t same legal => ?_) (fun s name value legal => ?_) event legal
  · rwa [LegalStore, same]
  · exact legalStore_propertySet legal name value

/-- The triggers queued at boot are those of the properties that are set if and only if no action
that is not queued yet asks for the empty value, or for any value, of a property that is not set. -/
theorem agrees_iff (legal : LegalStore s) :
    Agrees s ↔ ∀ a act, s.actions[a]? = some act → a ∉ s.actionQueue → ¬AsksUnset s act := by
  rw [agrees_iff_each]
  exact forall₂_congr fun a act => forall₂_congr fun _ _ => bootTest_iff_triggered legal

def usbActions : List Action :=
  ["property:sys.usb.config=mtp", "property:ro.debuggable=1", "boot",
    "property:sys.usb.config=*"].map fun name => ⟨name.toList, []⟩

def usbSet : InitState :=
  handle (booting [] usbActions) (.propertySet "sys.usb.config".toList "mtp".toList)

theorem agrees_iff_usb :
    LegalStore usbSet ∧ Agrees usbSet ∧ (queueAllPropertyTriggers usbSet).actionQueue = [0, 3] := by
  have run : Reach step (fun _ _ => True) (booting [] usbActions) usbSet := .next .start trivial rfl
  have legal : LegalStore usbSet := legalStore_run (legalStore_booting _ _) run
  refine ⟨legal, (agrees_iff legal).mpr ?_, by decide +kernel⟩
  have each : ∀ act ∈ usbActions, ¬AsksUnset usbSet act := by decide +kernel
  intro a act found _
  exact each act (List.mem_of_getElem? found)

theorem unset_property_triggers :
    LegalStore (booting [] usbActions) ∧
      (booting [] usbActions).properties "sys.usb.config".toList = none ∧
      (queueAllPropertyTriggers (booting [] usbActions)).actionQueue = [3] ∧
      ¬Agrees (booting [] usbActions) := by
  have queue : (queueAllPropertyTriggers (booting [] usbActions)).actionQueue = [3] := by
    decide +kernel
  refine ⟨legalStore_booting _ _, rfl, queue, ?_⟩
  rintro ⟨added, boot, -, each⟩
  have only : [3] = added := queue.symm.trans boot
  obtain ⟨name, value, present, -⟩ := (each 3).mp (only ▸ List.mem_singleton_self 3)
  cases present

end Agreement

end AndroidBoot.Init.BootTriggers
