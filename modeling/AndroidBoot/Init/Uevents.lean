/- source: init/init/devices.c
   digest: The fields of a uevent are those of the last strings of the message that name them. -/

import AndroidBoot.Init.Devices
import Mathlib.Data.List.Induction

set_option autoImplicit false

namespace AndroidBoot.Init.Uevents

open Function
open State (Text)
open Devices (nul)

inductive Field where
  | action | path | subsystem | firmware | major | minor | partitionNum | partitionName
  | deviceName
  deriving DecidableEq

open Uevents.Field

def fields : List Field :=
  [action, path, subsystem, firmware, major, minor, partitionNum, partitionName, deviceName]

def Field.key : Field → Text
  | action => "ACTION=".toList
  | path => "DEVPATH=".toList
  | subsystem => "SUBSYSTEM=".toList
  | firmware => "FIRMWARE=".toList
  | major => "MAJOR=".toList
  | minor => "MINOR=".toList
  | partitionNum => "PARTN=".toList
  | partitionName => "PARTNAME=".toList
  | deviceName => "DEVNAME=".toList

/-- What a field of `struct uevent` holds; `NULL` is `none`. -/
inductive Value where
  | string (s : Option Text)
  | number (n : Int)

def initial : Field → Value
  | major | minor | partitionNum => .number (-1)
  | partitionName | deviceName => .string none
  | _ => .string (some [])

variable (atoi : Text → Int) (uevent : Field → Value)

def value (s : Text) : Field → Value
  | major | minor | partitionNum => .number (atoi s)
  | _ => .string (some s)

/-- What a branch of `parse_event` assigns; `none` is for other strings. -/
def assign (s : Text) : Option Field → Field → Value
  | none => uevent
  | some f => update uevent f (value atoi s f)

/-- Whether `strncmp` with the length of the key is 0. An access behind the memory is `none`, here
and below. -/
def startsAt : Text → Text → Option Bool
  | [], _ => some true
  | _ :: _, [] => none
  | k :: key, c :: msg => if c = k then startsAt key msg else some false

/-- The C string at `msg`, and what is behind it: `while(*msg++) ;`. -/
def string : Text → Option (Text × Text)
  | [] => none
  | c :: msg => if c = nul then some ([], msg) else (string msg).map (Prod.map (c :: ·) id)

def skipped (branch : Option Field) : Nat := branch.elim 0 (·.key.length)

def parseLoop : Nat → Text → (Field → Value) → Option (Field → Value)
  | fuel + 1, c :: msg, uevent =>
    if c = nul then some uevent
    else do
      let branch ← fields.findM? (startsAt ·.key (c :: msg))
      let s ← string ((c :: msg).drop (skipped branch))
      parseLoop fuel s.2 (assign atoi uevent s.1 branch)
  | _, _, _ => none

def parseEvent (msg : Text) : Option (Field → Value) := parseLoop atoi msg.length msg initial

def handled (received : List Text) : List Text :=
  (received.takeWhile (· ≠ [])).filter (¬ ·.length ≥ 1024)

def handleDeviceFd (received : List Text) : List (Option (Field → Value)) :=
  (handled received).map fun msg => parseEvent atoi (msg ++ [nul, nul])

def strings (msg : Text) : List Text := (msg.splitOn nul).takeWhile (· ≠ [])

def lastValue (ss : List Text) (f : Field) : Value :=
  match ss.reverse.find? (f.key.isPrefixOf ·) with
  | none => initial f
  | some s => value atoi (s.drop f.key.length) f

theorem startsAt_append (s rest : Text) {key : Text} (plain : nul ∉ key) :
    startsAt key (s ++ nul :: rest) = some (key.isPrefixOf s) := by
  induction key generalizing s with
  | nil => rfl
  | cons k key ih =>
    obtain ⟨other, plain⟩ := List.ne_and_not_mem_of_not_mem_cons plain
    cases s with
    | nil => exact if_neg other
    | cons c s =>
      rw [List.cons_append, startsAt, ih s plain, List.isPrefixOf]
      by_cases equal : c = k
      · simp [equal]
      · simp [equal, Ne.symm equal]

theorem string_append {s : Text} (clear : nul ∉ s) (rest : Text) :
    string (s ++ nul :: rest) = some (s, rest) := by
  induction s with
  | nil => rfl
  | cons c s ih =>
    obtain ⟨other, clear⟩ := List.ne_and_not_mem_of_not_mem_cons clear
    rw [List.cons_append, string, ih clear, if_neg (Ne.symm other)]
    rfl

def store (s : Text) : Field → Value :=
  let branch := fields.find? (·.key.isPrefixOf s)
  assign atoi uevent (s.drop (skipped branch)) branch

theorem store_apply (s : Text) (f : Field) :
    store atoi uevent s f =
      if f.key.isPrefixOf s then value atoi (s.drop f.key.length) f else uevent f := by
  have apart : ∀ f g : Field, f.key <+: g.key → f = g := by
    intro f g
    cases f <;> cases g <;> decide
  rw [store]
  cases first : fields.find? (·.key.isPrefixOf s) with
  | none => exact (if_neg (List.find?_eq_none.mp first f (by cases f <;> decide))).symm
  | some g =>
    have starts : g.key <+: s := by simpa using List.find?_some first
    by_cases same : f = g
    · rw [same, if_pos (List.isPrefixOf_iff_prefix.mpr starts)]
      simp [assign, skipped]
    · rw [if_neg]
      · exact update_of_ne same ..
      · intro also
        obtain shorter | shorter :=
          List.prefix_or_prefix_of_prefix (List.isPrefixOf_iff_prefix.mp also) starts
        · exact same (apart f g shorter)
        · exact same (apart g f shorter).symm

theorem parseLoop_append {s : Text} (clear : nul ∉ s) (nonempty : s ≠ []) (rest : Text)
    (fuel : Nat) :
    parseLoop atoi (fuel + 1) (s ++ nul :: rest) uevent =
      parseLoop atoi fuel rest (store atoi uevent s) := by
  have found : fields.findM? (startsAt ·.key (s ++ nul :: rest)) =
      some (fields.find? (·.key.isPrefixOf s)) := by
    have plain (f : Field) : nul ∉ f.key := by cases f <;> decide
    simp only [startsAt_append s rest (plain _)]
    exact List.findM?_pure ..
  obtain ⟨c, t, rfl⟩ := List.exists_cons_of_ne_nil nonempty
  have other := (List.ne_and_not_mem_of_not_mem_cons clear).1
  rw [List.cons_append, parseLoop, if_neg (Ne.symm other), ← List.cons_append, found, store]
  have short : skipped (fields.find? (·.key.isPrefixOf (c :: t))) ≤ (c :: t).length := by
    cases first : fields.find? (·.key.isPrefixOf (c :: t)) with
    | none => exact Nat.zero_le _
    | some f =>
      have starts : f.key <+: c :: t := by simpa using List.find?_some first
      exact starts.length_le
  rw [Option.bind_eq_bind, Option.bind_some, List.drop_append_of_le_length short,
    string_append fun mem => clear (List.mem_of_mem_drop mem)]
  rfl

theorem parseLoop_strings (fuel : Nat) {m : Text} (ends : m = [] ∨ m.getLast? = some nul)
    (enough : m.length < fuel) :
    parseLoop atoi fuel (m ++ [nul]) uevent =
      some ((strings (m ++ [nul])).foldl (store atoi) uevent) := by
  induction fuel generalizing m uevent with
  | zero => omega
  | succ fuel ih =>
    obtain rfl | last := ends
    · rfl
    · obtain ⟨s, rest, rfl, clear⟩ := List.eq_append_cons_of_mem (List.mem_of_getLast? last)
      have apart : ∀ c ∈ s, (c == nul) = false := by
        intro c mem
        simpa using ne_of_mem_of_not_mem mem clear
      rw [List.append_assoc, List.cons_append, strings, List.splitOn_eq_splitOnP,
        List.splitOnP_append_cons_of_forall_mem apart _ (by simp), ← List.splitOn_eq_splitOnP]
      by_cases empty : s = []
      · simp [empty, parseLoop]
      · rw [parseLoop_append atoi uevent clear empty, List.takeWhile_cons_of_pos (by simpa),
          List.foldl_cons, ← strings]
        refine ih _ ?_ ?_
        · cases rest with
          | nil => exact .inl rfl
          | cons c rest => exact .inr (by simpa [List.getLast?_cons_cons] using last)
        · simp at enough
          omega

theorem foldl_store (ss : List Text) : ss.foldl (store atoi) initial = lastValue atoi ss := by
  induction ss using List.reverseRecOn with
  | nil => rfl
  | append_singleton ss s ih =>
    funext f
    rw [List.foldl_concat, store_apply, ih, lastValue, lastValue, List.reverse_concat, List.find?]
    cases f.key.isPrefixOf s <;> rfl

theorem parse_event_last_wins (received : List Text) :
    handleDeviceFd atoi received = (handled received).map fun msg =>
      some (lastValue atoi (strings (msg ++ [nul, nul]))) := by
  refine List.map_congr_left fun msg _ => ?_
  rw [parseEvent, ← foldl_store, List.append_cons]
  exact parseLoop_strings atoi initial _ (.inr List.getLast?_concat) (by simp)

end AndroidBoot.Init.Uevents
