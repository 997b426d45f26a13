/- source: init/init/devices.c, ueventd.c, util.c
   digest: The rules of ueventd, its platform devices, and the names of its links. -/

import AndroidBoot.Init.State

/-!
The rules have been read without running out of memory, and their names are not those of flash
partitions. Of the calls for a file of `/sys` the label is left out.
-/

set_option autoImplicit false

namespace AndroidBoot.Init.Devices

open State (Text)

section Sanitize

def nul : Char := '\x00'

def accept : Text :=
  "abcdefghijklmnopqrstuvwxyzABCDEFGHIJKLMNOPQRSTUVWXYZ0123456789_-.".toList

/-- `sanitize` on the memory from `s` on, at the test of the loop or within `strspn`. An access
behind the memory is `none`. -/
def sanitizeFrom : Bool → Text → Option Text
  | _, [] => none
  | test, c :: rest =>
    if test ∧ c = nul then some (c :: rest)
    else if c ∈ accept then (sanitizeFrom false rest).map (c :: ·)
    else (sanitizeFrom true rest).map ((if c = nul then c else '_') :: ·)

def sanitize (s : Text) : Option Text := sanitizeFrom true s

def clean (c : Char) : Char := if c ∈ accept then c else '_'

theorem sanitizeFrom_string (test : Bool) {s : Text} (string : nul ∉ s) :
    sanitizeFrom test (s ++ [nul]) =
      if s.getLast?.elim test (· ∉ accept) then some (s.map clean ++ [nul]) else none := by
  have last : nul ∉ accept := by decide
  induction s generalizing test with
  | nil => cases test <;> simp [sanitizeFrom, last]
  | cons c s ih =>
    obtain ⟨other, string⟩ := List.ne_and_not_mem_of_not_mem_cons string
    have elim : (c :: s).getLast?.elim test (· ∉ accept) =
        s.getLast?.elim (decide (c ∉ accept)) (· ∉ accept) := by
      rw [List.getLast?_cons]
      cases s.getLast? <;> rfl
    rw [elim, List.cons_append, sanitizeFrom, if_neg fun stop => other stop.2.symm, List.map_cons,
      clean, if_neg (Ne.symm other)]
    split <;> rename_i known
    · rw [ih false string]
      simp [known, apply_ite]
    · rw [ih true string]
      simp [known, apply_ite]

/-- `sanitize` keeps to a string and its terminator, and replaces what is not acceptable in it,
just when the string is empty or does not end with an acceptable character. -/
theorem sanitize_safe_iff (s : Text) (string : nul ∉ s) :
    sanitize (s ++ [nul]) = some (s.map clean ++ [nul]) ↔ s.getLast?.all (· ∉ accept) = true := by
  rw [sanitize, sanitizeFrom_string true string, ite_eq_left_iff]
  cases s.getLast? <;> simp

theorem sanitize_safe_iff_slash : sanitize ("a/".toList ++ [nul]) = some ("a_".toList ++ [nul]) :=
  (sanitize_safe_iff "a/".toList (by decide)).mpr (by decide)

theorem sanitize_past_terminator :
    sanitize ("a".toList ++ [nul]) = none ∧
      sanitize ("a".toList ++ nul :: "/".toList ++ [nul]) =
        some ("a".toList ++ nul :: "_".toList ++ [nul]) := by
  decide

end Sanitize

section Permissions

structure Library where
  strtol : Text → Option Nat
  getAndroidId : Text → Option Nat

def Library.fields (lib : Library) (mode owner group : Text) : Option (Nat × Nat × Nat) := do
  return (← lib.strtol mode, ← lib.getAndroidId owner, ← lib.getAndroidId group)

/-- The words of a line; the first one is neither empty nor the name of a flash partition. -/
structure Line where
  words : List Text
  named : ∀ name ∈ words.head?, name ≠ [] ∧ ¬ "mtd@".toList <+: name

structure Perms where
  name : Text
  attr : Option Text
  perm : Nat
  uid : Nat
  gid : Nat
  isPrefix : Bool

def Perms.applies (dp : Perms) (name path : Text) : Bool :=
  if dp.isPrefix then name.isPrefixOf path else path = name

def setDevicePermission (lib : Library) : List Text → Option Perms
  | [] => none
  | name :: args =>
    if name.head? = some '#' then none
    else
      let sys := "/sys/".toList.isPrefixOf name && args.length = 4
      match if sys then args.tail else args with
      | [mode, owner, group] =>
        let isPrefix := name.getLast? = some '*'
        let name := if isPrefix then name.dropLast else name
        (lib.fields mode owner group).map fun fields =>
          ⟨name, if sys then args.head? else none, fields.1, fields.2.1, fields.2.2, isPrefix⟩
      | _ => none

variable (lib : Library)

def perms (lines : List Line) : List Perms :=
  lines.filterMap fun line => setDevicePermission lib line.words

def devPerms (lines : List Line) : List Perms := (perms lib lines).filter (·.attr.isNone)

def getDevicePerm (rules : List Perms) (path : Text) : Nat × Nat × Nat :=
  match rules.reverse.find? fun dp => dp.applies dp.name path with
  | some dp => (dp.perm, dp.uid, dp.gid)
  | none => (0o600, 0, 0)

def names (name path : Text) : Bool :=
  name = path || name.getLast? = some '*' && name.dropLast.isPrefixOf path

def answer (path : Text) : List Text → Option (Nat × Nat × Nat)
  | [name, mode, owner, group] =>
    if name.head? = some '#' || !names name path then none else lib.fields mode owner group
  | _ => none

variable {lib}

theorem applies_names (name path : Text) {dp : Perms}
    (star : dp.isPrefix = (name.getLast? = some '*' : Bool)) :
    dp.applies (if name.getLast? = some '*' then name.dropLast else name) path =
      names name path := by
  rw [Perms.applies, names, star]
  by_cases last : name.getLast? = some '*'
  · have front : name = path → name.dropLast.isPrefixOf path = true := by
      rintro rfl
      exact List.isPrefixOf_iff_prefix.mpr (List.dropLast_prefix name)
    simpa [last] using front
  · simp [last, eq_comm]

theorem answer_eq (path : Text) (words : List Text) :
    answer lib path words = (setDevicePermission lib words).bind fun dp =>
      if dp.attr.isNone ∧ dp.applies dp.name path then some (dp.perm, dp.uid, dp.gid) else none := by
  rcases words with _ | ⟨name, args⟩
  · rfl
  by_cases comment : name.head? = some '#'
  · rw [setDevicePermission, if_pos comment]
    unfold answer
    split <;> simp_all
  rw [setDevicePermission, if_neg comment]
  rcases args with _ | ⟨a, _ | ⟨b, _ | ⟨c, _ | ⟨d, _ | ⟨e, rest⟩⟩⟩⟩⟩
  case cons.cons.cons.nil =>
    cases named : names name path <;> cases valid : lib.fields a b c <;>
      simp [answer, comment, applies_names name path, named, valid]
  case cons.cons.cons.cons.nil =>
    cases valid : lib.fields b c d <;> cases "/sys/".toList.isPrefixOf name <;> simp [answer, valid]
  all_goals simp [answer]

/-- `get_device_perm` gives what the last valid rule for the path says, or the default. -/
theorem get_device_perm_last (lib : Library) (lines : List Line) (path : Text) :
    getDevicePerm (devPerms lib lines) path =
      ((lines.filterMap fun line => answer lib path line.words).getLast?).getD (0o600, 0, 0) := by
  rw [devPerms, perms, getDevicePerm, ← List.filter_reverse, List.find?_filter,
    ← List.filterMap_reverse, List.getLast?_eq_head?_reverse, ← List.filterMap_reverse,
    List.head?_filterMap]
  induction lines.reverse with
  | nil => rfl
  | cons line lines ih =>
    rw [List.filterMap_cons, List.findSome?_cons, answer_eq]
    cases setDevicePermission lib line.words with
    | none => exact ih
    | some dp =>
      dsimp only [Option.bind_some]
      rw [List.find?_cons]
      split_ifs with here
      · rw [decide_eq_true here]
        rfl
      · rw [decide_eq_false here]
        exact ih

def sysCall (upath : Text) (dp : Perms) : Text × Nat × Nat × Nat :=
  ("/sys".toList ++ upath ++ '/' :: dp.attr.getD [], dp.uid, dp.gid, dp.perm)

def fits (upath : Text) (dp : Perms) : Bool := upath.length + (dp.attr.getD []).length + 6 ≤ 512

/-- `fixup_sys_perms`; a name that does not fit ends the loop. -/
def fixupSysPerms (upath : Text) : List Perms → List (Text × Nat × Nat × Nat)
  | [] => []
  | dp :: rules =>
    if !dp.applies (dp.name.drop 4) upath then fixupSysPerms upath rules
    else if !fits upath dp then []
    else sysCall upath dp :: fixupSysPerms upath rules

theorem fixup_sys_perms_iff (upath : Text) (rules : List Perms) :
    fixupSysPerms upath rules = (rules.filter fun dp =>
        dp.applies (dp.name.drop 4) upath && fits upath dp).map (sysCall upath) ↔
      (rules.filter fun dp => dp.applies (dp.name.drop 4) upath).Pairwise fun dp later =>
        fits upath later = true → fits upath dp = true := by
  induction rules with
  | nil => simp [fixupSysPerms]
  | cons dp rules ih =>
    cases matching : dp.applies (dp.name.drop 4) upath with
    | false => simpa [fixupSysPerms, matching] using ih
    | true =>
      cases fit : fits upath dp with
      | true => simpa [fixupSysPerms, matching, fit] using ih
      | false =>
        have silent : [] = (rules.filter fun dp =>
            dp.applies (dp.name.drop 4) upath && fits upath dp).map (sysCall upath) ↔
            ∀ later ∈ rules.filter fun dp => dp.applies (dp.name.drop 4) upath,
              ¬ fits upath later = true := by
          simp
        simp only [fixupSysPerms, matching, fit, List.filter_cons, Bool.not_true, Bool.not_false,
          Bool.and_false, Bool.false_eq_true, if_false, if_true, List.pairwise_cons, imp_false]
        exact silent.trans (and_iff_left_of_imp fun none => List.pairwise_of_forall_mem_list
          fun _ _ later member fitting => absurd fitting (none later member)).symm

def longRule : Perms := ⟨"/sys/".toList, some (List.replicate 510 'a'), 0o600, 0, 0, true⟩

def shortRule : Perms := ⟨"/sys/".toList, some "a".toList, 0o660, 0, 0, true⟩

theorem rule_behind_long_lost :
    fixupSysPerms "/b".toList [longRule, shortRule] = [] ∧
      fixupSysPerms "/b".toList [shortRule] = [("/sys/b/a".toList, 0, 0, 0o660)] := by
  decide +kernel

end Permissions

section Platform

inductive Event where
  | add (path : Text)
  | remove (path : Text)

def covers (path bus : Text) : Bool :=
  bus.length < path.length && path[bus.length]? = some '/' && bus.isPrefixOf path

def platformNames (names : List Text) : Event → List Text
  | .add path => if names.any (covers path) then names else path :: names
  | .remove path => names.erase path

def findPlatformDevice (names : List Text) (path : Text) : Option Text := names.find? (covers path)

def after (events : List Event) : List Text := events.foldl platformNames []

def Gone (events : List Event) (path : Text) : Prop :=
  ∃ before later, events = before ++ .remove path :: later ∧ .add path ∉ later

theorem after_snoc (events : List Event) (event : Event) :
    after (events ++ [event]) = platformNames (after events) event := by
  rw [after, List.foldl_append]
  rfl

theorem absent_foldl {names : List Text} {path : Text} {events : List Event} (absent : path ∉ names)
    (unadded : .add path ∉ events) : path ∉ events.foldl platformNames names := by
  induction events generalizing names with
  | nil => exact absent
  | cons event events ih =>
    obtain ⟨other, unadded⟩ := List.ne_and_not_mem_of_not_mem_cons unadded
    refine ih ?_ unadded
    cases event with
    | add added =>
      rw [platformNames]
      split
      · exact absent
      · exact List.not_mem_cons_of_ne_of_not_mem (fun same => other (same ▸ rfl)) absent
    | remove removed => exact fun member => absent (List.mem_of_mem_erase member)

theorem nodup_step {names : List Text} {event : Event} (nodup : names.Nodup)
    (fresh : ∀ path, event = .add path → path ∈ names → names.any (covers path) = true) :
    (platformNames names event).Nodup := by
  cases event with
  | add path =>
    rw [platformNames]
    split
    · exact nodup
    · rename_i uncovered
      exact List.nodup_cons.mpr ⟨fun member => uncovered (fresh path rfl member), nodup⟩
  | remove path => exact nodup.erase path

/-- Along every sequence of events no path is listed twice and a removed one is not found again,
just when no path is added that is listed already and not below another one. -/
theorem platform_names_iff (events : List Event) :
    (∀ n, (after (events.take n)).Nodup ∧ ∀ path, Gone (events.take n) path →
      path ∉ after (events.take n) ∧
        ∀ device, findPlatformDevice (after (events.take n)) device ≠ some path) ↔
    ∀ n path, events[n]? = some (.add path) → path ∈ after (events.take n) →
      (after (events.take n)).any (covers path) = true := by
  constructor
  · intro kept n path added listed
    by_contra uncovered
    have next := (kept (n + 1)).1
    rw [List.take_add_one, added, Option.toList_some, after_snoc, platformNames,
      if_neg uncovered] at next
    exact (List.nodup_cons.mp next).1 listed
  · intro fresh n
    have nodup (n : Nat) : (after (events.take n)).Nodup := by
      induction n with
      | zero => exact List.nodup_nil
      | succ n ih =>
        rw [List.take_add_one]
        cases found : events[n]? with
        | none => rwa [Option.toList_none, List.append_nil]
        | some event =>
          rw [Option.toList_some, after_snoc]
          exact nodup_step ih fun path same => fresh n path (found.trans (congrArg some same))
    have absent : ∀ path, Gone (events.take n) path → path ∉ after (events.take n) := by
      rintro path ⟨before, later, same, unadded⟩
      have once : (after before).Nodup := by
        have front : events.take (min before.length n) = before := by
          rw [← List.take_take, same, List.take_left]
        exact front ▸ nodup _
      have erased : path ∉ platformNames (after before) (.remove path) := once.not_mem_erase
      rw [same, after, List.foldl_append]
      exact (absent_foldl erased unadded :)
    exact ⟨nodup n, fun path gone => ⟨absent path gone, fun device found =>
      absent path gone (List.mem_of_find?_eq_some found)⟩⟩

theorem platform_device_left :
    let path := "/devices/platform/mmc".toList
    let events : List Event := [.add path, .add path, .remove path]
    ¬ (after (events.take 2)).Nodup ∧
      findPlatformDevice (after events) (path ++ "/block".toList) = some path := by
  decide

end Platform

end AndroidBoot.Init.Devices
