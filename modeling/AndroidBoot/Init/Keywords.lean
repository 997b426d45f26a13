/- source: init/init/keywords.h, init/init/init_parser.c, init/init/builtins.c
   digest: The keywords of rc files, their names and counts, and the arguments commands read. -/

import AndroidBoot.Init.State

/-!
Of a built-in command only the places of its arguments matter here: a command is given by the
entries of `args` it may read when it is called with `nargs` of them, whatever the system answers.
-/

set_option autoImplicit false

namespace AndroidBoot.Init.Keywords

open State (Text)

inductive Keyword where
  | kUnknown
  | kCapability | kChdir | kChroot | kClass | kClassStart | kClassStop | kClassReset | kConsole
  | kCritical | kDisabled | kDomainname | kExec | kExport | kGroup | kHostname | kIfup | kInsmod
  | kImport | kKeycodes | kMkdir | kMountAll | kMount | kOn | kOneshot | kOnrestart | kPowerctl
  | kRestart | kRestorecon | kRm | kRmdir | kSeclabel | kService | kSetcon | kSetenforce | kSetenv
  | kSetkey | kSetprop | kSetrlimit | kSetsebool | kSocket | kStart | kStop | kSwaponAll | kTrigger
  | kSymlink | kSysclktz | kUser | kWait | kWrite | kCopy | kChown | kChmod | kLoglevel
  | kLoadPersistProps | kIoprio
  deriving DecidableEq, Repr

section Lookup

/-- The `strcmp`s of one `case`, in their order. -/
def firstMatch (s : Text) : List (String × Keyword) → Keyword
  | [] => .kUnknown
  | (word, keyword) :: rest => if s = word.toList then keyword else firstMatch s rest

def caseC : List (String × Keyword) :=
  [("opy", .kCopy), ("apability", .kCapability), ("hdir", .kChdir), ("hroot", .kChroot),
    ("lass", .kClass), ("lass_start", .kClassStart), ("lass_stop", .kClassStop),
    ("lass_reset", .kClassReset), ("onsole", .kConsole), ("hown", .kChown), ("hmod", .kChmod),
    ("ritical", .kCritical)]

def caseD : List (String × Keyword) := [("isabled", .kDisabled), ("omainname", .kDomainname)]

def caseE : List (String × Keyword) := [("xec", .kExec), ("xport", .kExport)]

def caseI : List (String × Keyword) :=
  [("oprio", .kIoprio), ("fup", .kIfup), ("nsmod", .kInsmod), ("mport", .kImport)]

def caseL : List (String × Keyword) :=
  [("oglevel", .kLoglevel), ("oad_persist_props", .kLoadPersistProps)]

def caseM : List (String × Keyword) :=
  [("kdir", .kMkdir), ("ount_all", .kMountAll), ("ount", .kMount)]

def caseO : List (String × Keyword) :=
  [("n", .kOn), ("neshot", .kOneshot), ("nrestart", .kOnrestart)]

def caseR : List (String × Keyword) :=
  [("estart", .kRestart), ("estorecon", .kRestorecon), ("mdir", .kRmdir), ("m", .kRm)]

/-- This case has no `break`. -/
def caseP : List (String × Keyword) := ("owerctl", .kPowerctl) :: caseR

def caseS : List (String × Keyword) :=
  [("eclabel", .kSeclabel), ("ervice", .kService), ("etcon", .kSetcon),
    ("etenforce", .kSetenforce), ("etenv", .kSetenv), ("etkey", .kSetkey), ("etprop", .kSetprop),
    ("etrlimit", .kSetrlimit), ("etsebool", .kSetsebool), ("ocket", .kSocket), ("tart", .kStart),
    ("top", .kStop), ("wapon_all", .kSwaponAll), ("ymlink", .kSymlink), ("ysclktz", .kSysclktz)]

def caseW : List (String × Keyword) := [("rite", .kWrite), ("ait", .kWait)]

def lookupKeyword : Text → Keyword
  | 'c' :: s => firstMatch s caseC
  | 'd' :: s => firstMatch s caseD
  | 'e' :: s => firstMatch s caseE
  | 'g' :: s => firstMatch s [("roup", .kGroup)]
  | 'h' :: s => firstMatch s [("ostname", .kHostname)]
  | 'i' :: s => firstMatch s caseI
  | 'k' :: s => firstMatch s [("eycodes", .kKeycodes)]
  | 'l' :: s => firstMatch s caseL
  | 'm' :: s => firstMatch s caseM
  | 'o' :: s => firstMatch s caseO
  | 'p' :: s => firstMatch s caseP
  | 'r' :: s => firstMatch s caseR
  | 's' :: s => firstMatch s caseS
  | 't' :: s => firstMatch s [("rigger", .kTrigger)]
  | 'u' :: s => firstMatch s [("ser", .kUser)]
  | 'w' :: s => firstMatch s caseW
  | _ => .kUnknown

end Lookup

section Names

def kwName : Keyword → String
  | .kUnknown => "unknown"
  | .kCapability => "capability"
  | .kChdir => "chdir"
  | .kChroot => "chroot"
  | .kClass => "class"
  | .kClassStart => "class_start"
  | .kClassStop => "class_stop"
  | .kClassReset => "class_reset"
  | .kConsole => "console"
  | .kCritical => "critical"
  | .kDisabled => "disabled"
  | .kDomainname => "domainname"
  | .kExec => "exec"
  | .kExport => "export"
  | .kGroup => "group"
  | .kHostname => "hostname"
  | .kIfup => "ifup"
  | .kInsmod => "insmod"
  | .kImport => "import"
  | .kKeycodes => "keycodes"
  | .kMkdir => "mkdir"
  | .kMountAll => "mount_all"
  | .kMount => "mount"
  | .kOn => "on"
  | .kOneshot => "oneshot"
  | .kOnrestart => "onrestart"
  | .kPowerctl => "powerctl"
  | .kRestart => "restart"
  | .kRestorecon => "restorecon"
  | .kRm => "rm"
  | .kRmdir => "rmdir"
  | .kSeclabel => "seclabel"
  | .kService => "service"
  | .kSetcon => "setcon"
  | .kSetenforce => "setenforce"
  | .kSetenv => "setenv"
  | .kSetkey => "setkey"
  | .kSetprop => "setprop"
  | .kSetrlimit => "setrlimit"
  | .kSetsebool => "setsebool"
  | .kSocket => "socket"
  | .kStart => "start"
  | .kStop => "stop"
  | .kSwaponAll => "swapon_all"
  | .kTrigger => "trigger"
  | .kSymlink => "symlink"
  | .kSysclktz => "sysclktz"
  | .kUser => "user"
  | .kWait => "wait"
  | .kWrite => "write"
  | .kCopy => "copy"
  | .kChown => "chown"
  | .kChmod => "chmod"
  | .kLoglevel => "loglevel"
  | .kLoadPersistProps => "load_persist_props"
  | .kIoprio => "ioprio"

theorem firstMatch_mem {s : Text} {table : List (String × Keyword)}
    (known : firstMatch s table ≠ .kUnknown) :
    ∃ word, (word, firstMatch s table) ∈ table ∧ s = word.toList := by
  induction table with
  | nil => exact absurd rfl known
  | cons entry rest ih =>
    obtain ⟨word, keyword⟩ := entry
    rw [firstMatch] at known ⊢
    split
    · next same => exact ⟨word, List.mem_cons_self, same⟩
    · next other =>
      rw [if_neg other] at known
      obtain ⟨word, member, same⟩ := ih known
      exact ⟨word, List.mem_cons_of_mem _ member, same⟩

/-- A `case` all of whose words complete its character to the name of their keyword. -/
theorem firstMatch_spelled {c : Char} {s : Text} {table : List (String × Keyword)}
    (spelled : ∀ entry ∈ table, (kwName entry.2).toList = c :: entry.1.toList)
    (known : firstMatch s table ≠ .kUnknown) :
    c :: s = (kwName (firstMatch s table)).toList := by
  obtain ⟨word, member, rfl⟩ := firstMatch_mem known
  exact (spelled _ member).symm

theorem lookupKeyword_kwName {kw : Keyword} (known : kw ≠ .kUnknown) :
    lookupKeyword (kwName kw).toList = kw := by
  cases kw
  case kUnknown => exact absurd rfl known
  all_goals decide

/-- The words that the missing `break` behind `case 'p'` lets through. -/
def misspelled : List Text := caseR.map fun entry => 'p' :: entry.1.toList

theorem lookupKeyword_spelled {s : Text} (known : lookupKeyword s ≠ .kUnknown)
    (rest : s ∉ misspelled) : s = (kwName (lookupKeyword s)).toList := by
  unfold lookupKeyword at known ⊢
  split at known
  case h_11 s =>
    obtain ⟨word, member, rfl⟩ := firstMatch_mem known
    rcases List.mem_cons.mp member with first | member
    · rw [(Prod.mk.inj first).2, (Prod.mk.inj first).1]
      decide
    · exact absurd (List.mem_map_of_mem member) rest
  case h_17 => exact absurd rfl known
  all_goals exact firstMatch_spelled (by decide) known

/-- A keyword is found for its name and for nothing else, unless it is one of the words that the
`case` of `'r'` has a keyword for, behind a `p`. -/
theorem keyword_exactly_iff (s : Text) :
    (∀ kw, kw ≠ .kUnknown → (lookupKeyword s = kw ↔ s = (kwName kw).toList)) ↔ s ∉ misspelled := by
  constructor
  · intro exactly_ wrong
    have all : ∀ s ∈ misspelled, lookupKeyword s ≠ .kUnknown ∧
        s ≠ (kwName (lookupKeyword s)).toList := by decide
    obtain ⟨known, other⟩ := all s wrong
    exact other ((exactly_ _ known).mp rfl)
  · intro right kw known
    constructor
    · rintro rfl
      exact lookupKeyword_spelled known right
    · rintro rfl
      exact lookupKeyword_kwName known

theorem pm_taken_for_rm :
    lookupKeyword "pm".toList = .kRm ∧ "pm".toList ≠ (kwName .kRm).toList := by
  decide

end Names

section Builtins

/-- The entries of `args` that a call with `nargs` arguments may read. -/
abbrev Reads := Nat → List Nat

/-- `args[1]` to `args[count]`, without a look at `nargs`. -/
def fixed (count : Nat) : Reads := fun _ => List.range' 1 count

/-- `args[start]` to `args[nargs - 1]`. -/
def onward (start : Nat) : Reads := fun nargs => List.range' start (nargs - start)

/-- As `func`, if there are exactly `count` arguments, and nothing read otherwise. -/
def exactly (count : Nat) (func : Reads) : Reads := fun nargs =>
  if nargs = count then func nargs else []

def doChdir : Reads := fixed 1
def doChroot : Reads := fixed 1
def doClassStart : Reads := fixed 1
def doClassStop : Reads := fixed 1
def doClassReset : Reads := fixed 1
def doDomainname : Reads := fixed 1
def doExec : Reads := fixed 0
def doExport : Reads := fixed 2
def doHostname : Reads := fixed 1
def doIfup : Reads := fixed 1
def doInsmod : Reads := fun nargs => onward 2 nargs ++ fixed 1 nargs

/-- The mode, the owner and the group are optional, and the group is read only if it is last. -/
def doMkdir : Reads := fun nargs =>
  (if 3 ≤ nargs then [2] else []) ++ [1] ++
    if 4 ≤ nargs then 3 :: (if nargs = 5 then [4] else []) else []

def doMount : Reads := fun nargs => onward 4 nargs ++ fixed 3 nargs
def doMountAll : Reads := exactly 2 (fixed 1)
def doSwaponAll : Reads := fixed 1
def doSetcon : Reads := fixed 1
def doSetenforce : Reads := fixed 1
def doSetkey : Reads := fixed 3
def doSetprop : Reads := fixed 2
def doSetrlimit : Reads := fixed 3
def doStart : Reads := fixed 1
def doStop : Reads := fixed 1
def doRestart : Reads := fixed 1
def doPowerctl : Reads := fixed 1
def doTrigger : Reads := fixed 1
def doSymlink : Reads := fixed 2
def doRm : Reads := fixed 1
def doRmdir : Reads := fixed 1
def doSysclktz : Reads := exactly 2 (fixed 1)
def doWrite : Reads := fixed 2
def doCopy : Reads := exactly 3 (fixed 2)
def doChown : Reads := fun nargs =>
  if nargs = 3 then [2, 1] else if nargs = 4 then [3, 1, 2] else []
def doChmod : Reads := fixed 2
def doRestorecon : Reads := onward 1
def doSetsebool : Reads := fixed 2
def doLoglevel : Reads := exactly 2 (fixed 1)
def doLoadPersistProps : Reads := fixed 0
def doWait : Reads := fun nargs => if nargs = 2 then [1] else if nargs = 3 then [1, 2] else []

end Builtins

section Table

/-- `SECTION`, `COMMAND` and `OPTION`, of which a keyword has at most one. -/
inductive Flag where
  | none | heading | command | option
  deriving DecidableEq, Repr

structure KeywordInfo where
  func : Reads
  nargs : Nat
  flags : Flag

/-- `KEYWORD(symbol, COMMAND, nargs, func)`: the stored count has one more, for the keyword. -/
def command (nargs : Nat) (func : Reads) : KeywordInfo := ⟨func, nargs + 1, .command⟩

def option (nargs : Nat) : KeywordInfo := ⟨fun _ => [], nargs + 1, .option⟩

def heading (nargs : Nat) : KeywordInfo := ⟨fun _ => [], nargs + 1, .heading⟩

def keywordInfo : Keyword → KeywordInfo
  | .kUnknown => ⟨fun _ => [], 0, .none⟩
  | .kCapability => option 0
  | .kChdir => command 1 doChdir
  | .kChroot => command 1 doChroot
  | .kClass => option 0
  | .kClassStart => command 1 doClassStart
  | .kClassStop => command 1 doClassStop
  | .kClassReset => command 1 doClassReset
  | .kConsole => option 0
  | .kCritical => option 0
  | .kDisabled => option 0
  | .kDomainname => command 1 doDomainname
  | .kExec => command 1 doExec
  | .kExport => command 2 doExport
  | .kGroup => option 0
  | .kHostname => command 1 doHostname
  | .kIfup => command 1 doIfup
  | .kInsmod => command 1 doInsmod
  | .kImport => heading 1
  | .kKeycodes => option 0
  | .kMkdir => command 1 doMkdir
  | .kMountAll => command 1 doMountAll
  | .kMount => command 3 doMount
  | .kOn => heading 0
  | .kOneshot => option 0
  | .kOnrestart => option 0
  | .kPowerctl => command 1 doPowerctl
  | .kRestart => command 1 doRestart
  | .kRestorecon => command 1 doRestorecon
  | .kRm => command 1 doRm
  | .kRmdir => command 1 doRmdir
  | .kSeclabel => option 0
  | .kService => heading 0
  | .kSetcon => command 1 doSetcon
  | .kSetenforce => command 1 doSetenforce
  | .kSetenv => option 2
  | .kSetkey => command 0 doSetkey
  | .kSetprop => command 2 doSetprop
  | .kSetrlimit => command 3 doSetrlimit
  | .kSetsebool => command 2 doSetsebool
  | .kSocket => option 0
  | .kStart => command 1 doStart
  | .kStop => command 1 doStop
  | .kSwaponAll => command 1 doSwaponAll
  | .kTrigger => command 1 doTrigger
  | .kSymlink => command 1 doSymlink
  | .kSysclktz => command 1 doSysclktz
  | .kUser => option 0
  | .kWait => command 1 doWait
  | .kWrite => command 2 doWrite
  | .kCopy => command 2 doCopy
  | .kChown => command 2 doChown
  | .kChmod => command 2 doChmod
  | .kLoglevel => command 1 doLoglevel
  | .kLoadPersistProps => command 0 doLoadPersistProps
  | .kIoprio => option 0

theorem nargs_pos {kw : Keyword} (command_ : (keywordInfo kw).flags = .command) :
    0 < (keywordInfo kw).nargs := by
  cases kw <;> first | exact Nat.succ_pos _ | cases command_

end Table

section Within

def Within (func : Reads) (nargs : Nat) : Prop := ∀ i ∈ func nargs, i < nargs

theorem within_fixed_iff (count nargs : Nat) (some_ : 0 < nargs) :
    Within (fixed count) nargs ↔ count < nargs := by
  simp only [Within, fixed, List.mem_range'_1]
  constructor
  · intro within
    rcases Nat.eq_zero_or_pos count with none_ | pos
    · omega
    · exact within count (by omega)
  · intro enough i between
    omega

theorem within_onward (start nargs : Nat) : Within (onward start) nargs := by
  intro i member
  have between := List.mem_range'_1.mp member
  omega

variable {nargs : Nat}

theorem within_append {first second : Reads} (one : Within first nargs)
    (two : Within second nargs) : Within (fun nargs => first nargs ++ second nargs) nargs :=
  List.forall_mem_append.mpr ⟨one, two⟩

theorem within_branch {c : Prop} [Decidable c] {yes no : List Nat}
    (first : c → ∀ i ∈ yes, i < nargs) (second : ¬ c → ∀ i ∈ no, i < nargs) :
    ∀ i ∈ if c then yes else no, i < nargs := by
  split
  · next holds => exact first holds
  · next fails => exact second fails

theorem within_exactly {func : Reads} {count : Nat} (within : Within func count) (nargs : Nat) :
    Within (exactly count func) nargs :=
  within_branch (fun same => same ▸ within) fun _ => by simp

theorem within_doMkdir (enough : 2 ≤ nargs) : Within doMkdir nargs := by
  refine List.forall_mem_append.mpr ⟨List.forall_mem_append.mpr ⟨?_, ?_⟩, ?_⟩
  · refine within_branch (fun three i member => ?_) fun _ => by simp
    have two := List.mem_singleton.mp member
    omega
  · intro i member
    have one := List.mem_singleton.mp member
    omega
  · refine within_branch (fun four => List.forall_mem_cons.mpr ⟨by omega, ?_⟩) fun _ => by simp
    refine within_branch (fun five i member => ?_) fun _ => by simp
    have last := List.mem_singleton.mp member
    omega

theorem within_doChown (nargs : Nat) : Within doChown nargs :=
  within_branch (fun three => by subst three; decide) fun _ =>
    within_branch (fun four => by subst four; decide) fun _ => by simp

theorem within_doWait (nargs : Nat) : Within doWait nargs :=
  within_branch (fun two => by subst two; decide) fun _ =>
    within_branch (fun three => by subst three; decide) fun _ => by simp

/-- The two commands whose count in the table is too small, with too few arguments. -/
def Overruns (kw : Keyword) (nargs : Nat) : Prop :=
  kw = .kSymlink ∧ nargs = 2 ∨ kw = .kSetkey ∧ nargs < 4

instance (kw : Keyword) (nargs : Nat) : Decidable (Overruns kw nargs) :=
  inferInstanceAs (Decidable (_ ∨ _))

theorem within_of_counted {kw : Keyword}
    (command_ : (keywordInfo kw).flags = .command) (enough : (keywordInfo kw).nargs ≤ nargs)
    (symlink : kw ≠ .kSymlink) (setkey : kw ≠ .kSetkey) :
    Within (keywordInfo kw).func nargs := by
  have one : Within (fixed 1) 2 := (within_fixed_iff 1 2 (by decide)).mpr (by decide)
  have two : Within (fixed 2) 3 := (within_fixed_iff 2 3 (by decide)).mpr (by decide)
  have all : ∀ count, count < nargs → Within (fixed count) nargs := fun count more =>
    (within_fixed_iff count nargs (Nat.zero_lt_of_lt more)).mpr more
  cases kw
  case kInsmod => exact within_append (within_onward 2 nargs) (all 1 enough)
  case kMount => exact within_append (within_onward 4 nargs) (all 3 enough)
  case kMkdir => exact within_doMkdir enough
  case kMountAll => exact within_exactly one nargs
  case kSysclktz => exact within_exactly one nargs
  case kLoglevel => exact within_exactly one nargs
  case kCopy => exact within_exactly two nargs
  case kChown => exact within_doChown nargs
  case kWait => exact within_doWait nargs
  case kRestorecon => exact within_onward 1 nargs
  case kExec => exact all 0 (Nat.lt_of_succ_lt enough)
  case kSymlink => exact absurd rfl symlink
  case kSetkey => exact absurd rfl setkey
  all_goals first | exact all _ enough | exact absurd command_ (by decide)

theorem within_iff {kw : Keyword} (command_ : (keywordInfo kw).flags = .command)
    (enough : (keywordInfo kw).nargs ≤ nargs) :
    Within (keywordInfo kw).func nargs ↔ ¬ Overruns kw nargs := by
  obtain rfl | symlink := eq_or_ne kw .kSymlink
  · have least : 2 ≤ nargs := enough
    refine (within_fixed_iff 2 nargs (by omega)).trans ?_
    simp only [Overruns, true_and, reduceCtorEq, false_and, or_false]
    omega
  obtain rfl | setkey := eq_or_ne kw .kSetkey
  · have least : 1 ≤ nargs := enough
    refine (within_fixed_iff 3 nargs (by omega)).trans ?_
    simp only [Overruns, true_and, reduceCtorEq, false_and, false_or]
    omega
  refine iff_of_true (within_of_counted command_ enough symlink setkey) ?_
  rintro (⟨same, -⟩ | ⟨same, -⟩)
  · exact symlink same
  · exact setkey same

end Within

end AndroidBoot.Init.Keywords
