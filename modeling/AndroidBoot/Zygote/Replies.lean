/- source: ZygoteInit/ZygoteConnection.java
   digest: The reply to a complete request, and which sockets are closed when their connection is dropped. -/

import AndroidBoot.Zygote.Survival
import Mathlib.Logic.Function.Iterate

set_option autoImplicit false

namespace AndroidBoot.Zygote.Replies

open Foundation.JavaText SpawnArguments SpawnRequest Survival

section Parents

variable (getParentPid : Int → Int)

/-- The loop of `handleParentProc` over `getParentPid`, for some rounds; `none` still
runs. -/
def parentLoop (pid : Int) : Nat → Int → Option Int
  | 0, _ => none
  | rounds + 1, parentPid =>
    if 0 < parentPid ∧ parentPid ≠ pid then parentLoop pid rounds (getParentPid parentPid)
    else some parentPid

def Accepts (pid innerPid : Int) : Prop :=
  ∃ rounds parentPid, parentLoop getParentPid pid rounds innerPid = some parentPid ∧ 0 < parentPid

/-- The parents that successive calls of `getParentPid` find. -/
inductive Ancestry : Int → List Int → Prop
  | root {pid : Int} : getParentPid pid ≤ 0 → Ancestry pid []
  | parent {pid : Int} {parents : List Int} : 0 < getParentPid pid →
      Ancestry (getParentPid pid) parents → Ancestry pid (getParentPid pid :: parents)

variable {getParentPid} {pid innerPid : Int} {parents : List Int}

theorem accepts_self (positive : 0 < pid) : Accepts getParentPid pid pid :=
  ⟨1, pid, if_neg fun other => other.2 rfl, positive⟩

theorem not_accepts_of_nonpos (gone : innerPid ≤ 0) : ¬ Accepts getParentPid pid innerPid := by
  rintro ⟨rounds, parentPid, ended, positive⟩
  cases rounds with
  | zero => cases ended
  | succ rounds =>
    rw [parentLoop, if_neg fun more => by omega] at ended
    cases ended
    omega

theorem accepts_parent_iff (positive : 0 < innerPid) (other : innerPid ≠ pid) :
    Accepts getParentPid pid innerPid ↔ Accepts getParentPid pid (getParentPid innerPid) := by
  have round (rounds : Nat) : parentLoop getParentPid pid (rounds + 1) innerPid =
      parentLoop getParentPid pid rounds (getParentPid innerPid) := if_pos ⟨positive, other⟩
  constructor
  · rintro ⟨rounds, parentPid, ended, found⟩
    cases rounds with
    | zero => cases ended
    | succ rounds => exact ⟨rounds, parentPid, round rounds ▸ ended, found⟩
  · rintro ⟨rounds, parentPid, ended, found⟩
    exact ⟨rounds + 1, parentPid, (round rounds).trans ended, found⟩

theorem Ancestry.accepts_iff (ancestry : Ancestry getParentPid innerPid parents)
    (running : 0 < innerPid) (child : 0 < pid) :
    Accepts getParentPid pid innerPid ↔ pid ∈ innerPid :: parents := by
  induction ancestry with
  | @root innerPid gone =>
    obtain rfl | same := eq_or_ne innerPid pid
    · exact iff_of_true (accepts_self running) List.mem_cons_self
    rw [accepts_parent_iff running same, List.mem_singleton]
    exact iff_of_false (not_accepts_of_nonpos gone) fun eq => same eq.symm
  | @parent innerPid parents found ancestry ih =>
    obtain rfl | same := eq_or_ne innerPid pid
    · exact iff_of_true (accepts_self running) List.mem_cons_self
    rw [accepts_parent_iff running same, ih found, List.mem_cons (a := pid) (b := innerPid)]
    constructor
    · exact .inr
    · rintro (eq | later)
      · exact absurd eq.symm same
      · exact later

theorem Ancestry.reaches (ancestry : Ancestry getParentPid innerPid parents)
    (member : pid ∈ innerPid :: parents) : ∃ n, getParentPid^[n] innerPid = pid := by
  induction ancestry with
  | root _ => exact ⟨0, (List.mem_singleton.mp member).symm⟩
  | parent _ _ ih =>
    rcases List.mem_cons.mp member with rfl | later
    · exact ⟨0, rfl⟩
    · obtain ⟨n, reached⟩ := ih later
      exact ⟨n + 1, reached⟩

end Parents

def written : Ending → List (Int × Bool)
  | .replied pid usingWrapper => [(pid, usingWrapper)]
  | .closed | .unanswered | .thrown _ | .child _ => []

def done : Ending → Bool
  | .closed | .unanswered => true
  | .replied _ _ | .thrown _ | .child _ => false

def Forked (world : World) (served : Served) : Prop :=
  served.forked.isSome ∧ 0 < world.fork

def Reports (world : World) (served : Served) (innerPid : Int) : Prop :=
  (∃ args, served.forked = some args ∧ args.runtimeInit = true ∧ args.invokeWith.isSome) ∧
    0 < world.fork ∧ world.innerPid = some innerPid

structure Reply (world : World) (getParentPid : Int → Int) (served : Served) (pid : Int)
    (usingWrapper : Bool) : Prop where
  failed : ¬ Forked world served → pid < 0
  forked : Forked world served → pid = world.fork ∨ ∃ n, getParentPid^[n] pid = world.fork
  wrapper : usingWrapper = true ↔
    ∃ innerPid, Reports world served innerPid ∧ Accepts getParentPid world.fork innerPid
  reported : usingWrapper = true → world.innerPid = some pid

section Call

variable {world : World} {connection : Connection}

/-- The pid of a wrapped process that `handleParentProc` takes. -/
def acceptedPid (world : World) (pid : Int) (piped : Bool) : Option Int :=
  if piped ∧ 0 < pid then
    world.innerPid.filter fun inner => 0 < inner ∧ pid ∈ inner :: world.parents inner
  else none

theorem handleParentProc_eq (pid : Int) (piped : Bool) : handleParentProc world pid piped =
    if world.replies then
      .replied ((acceptedPid world pid piped).getD pid) (acceptedPid world pid piped).isSome
    else .unanswered := rfl

def Listed (world : World) (getParentPid : Int → Int) : Prop :=
  ∀ innerPid, world.innerPid = some innerPid → 0 < innerPid →
    Ancestry getParentPid innerPid (world.parents innerPid)

variable {getParentPid : Int → Int}

theorem acceptedPid_eq_some_iff (listed : Listed world getParentPid)
    {pid innerPid : Int} {piped : Bool} :
    acceptedPid world pid piped = some innerPid ↔
      piped = true ∧ 0 < pid ∧ world.innerPid = some innerPid ∧
        Accepts getParentPid pid innerPid := by
  unfold acceptedPid
  by_cases asked : piped = true ∧ 0 < pid
  · rw [if_pos asked, Option.filter_eq_some_iff]
    simp only [asked.1, asked.2, true_and, decide_eq_true_eq]
    refine and_congr_right fun reported => ?_
    by_cases running : 0 < innerPid
    · rw [(listed innerPid reported running).accepts_iff running asked.2]
      exact and_iff_right running
    · refine iff_of_false (fun both => running both.1) (not_accepts_of_nonpos (by omega))
  · rw [if_neg asked]
    exact iff_of_false nofun fun all => asked ⟨all.1, all.2.1⟩

theorem reply_of_forked (listed : Listed world getParentPid)
    (parent : world.fork ≠ 0) {served : Served} {args : Arguments}
    (forked : served.forked = some args) :
    let accepted := acceptedPid world world.fork (args.runtimeInit && args.invokeWith.isSome)
    Reply world getParentPid served (accepted.getD world.fork) accepted.isSome := by
  intro accepted
  have found {innerPid : Int} : accepted = some innerPid ↔
      (args.runtimeInit && args.invokeWith.isSome) = true ∧ 0 < world.fork ∧
        world.innerPid = some innerPid ∧ Accepts getParentPid world.fork innerPid :=
    acceptedPid_eq_some_iff listed
  have reports {innerPid : Int} : Reports world served innerPid ↔
      (args.runtimeInit && args.invokeWith.isSome) = true ∧ 0 < world.fork ∧
        world.innerPid = some innerPid := by
    simp [Reports, forked]
  constructor
  · intro none
    have failed : ¬ 0 < world.fork := fun child => none ⟨by rw [forked]; rfl, child⟩
    have refused : accepted = .none := by
      rcases eq : accepted with _ | innerPid
      · rfl
      · exact absurd (found.mp eq).2.1 failed
    rw [refused, Option.getD_none]
    omega
  · intro child
    rcases eq : accepted with _ | innerPid
    · exact .inl rfl
    · obtain ⟨-, positive, reported, accepts⟩ := found.mp eq
      have running : 0 < innerPid := by
        by_contra gone
        exact not_accepts_of_nonpos (by omega) accepts
      have ancestry := listed innerPid reported running
      exact .inr (ancestry.reaches ((ancestry.accepts_iff running positive).mp accepts))
  · rw [Option.isSome_iff_exists]
    refine exists_congr fun innerPid => ?_
    rw [reports]
    exact found.trans ⟨fun ⟨a, b, c, d⟩ => ⟨⟨a, b, c⟩, d⟩, fun ⟨⟨a, b, c⟩, d⟩ => ⟨a, b, c, d⟩⟩
  · intro some
    obtain ⟨innerPid, eq⟩ := Option.isSome_iff_exists.mp some
    rw [eq, Option.getD_some]
    exact (found.mp eq).2.2.1

theorem reply_of_not_forked {served : Served}
    (none : served.forked = none) : Reply world getParentPid served (-1) false := by
  constructor
  · intro _
    omega
  · rintro ⟨some, -⟩
    rw [none] at some
    cases some
  · refine iff_of_false nofun ?_
    rintro ⟨innerPid, ⟨⟨args, some, -⟩, -⟩, -⟩
    rw [none] at some
    cases some
  · exact nofun

theorem runOnce_complete (parent : world.fork ≠ 0) (complete : Complete world connection) :
    (∃ args, (runOnce world connection).forked = some args ∧
      (runOnce world connection).ending =
        handleParentProc world world.fork (args.runtimeInit && args.invokeWith.isSome)) ∨
    ((runOnce world connection).forked = none ∧
      (runOnce world connection).ending = handleParentProc world (-1) false) := by
  obtain ⟨reader, ⟨incomplete, -⟩ | ⟨-, -, ⟨args, forked⟩ | failed⟩⟩ :=
    runOnce_cases world connection
  · exact absurd complete incomplete
  · rw [forked]
    exact .inl ⟨args, rfl, if_neg parent⟩
  · rw [failed]
    exact .inr ⟨rfl, rfl⟩

theorem runOnce_silent (parent : world.fork ≠ 0) (complete : Complete world connection)
    (fails : world.replies = false) : (runOnce world connection).ending = .unanswered := by
  have silent : ¬ world.replies = true := by simp [fails]
  rcases runOnce_complete parent complete with ⟨args, -, ending⟩ | ⟨-, ending⟩
  · rw [ending, handleParentProc_eq, if_neg silent]
  · rw [ending, handleParentProc_eq, if_neg silent]

end Call

/-- A complete request is answered with one pair, unless the reply cannot be written. The
pid is negative if there is no child; otherwise it is the child or a process from which
`getParentPid` leads to it, and the wrapper is reported just when its pid was accepted. -/
theorem one_reply_per_request (world : World) (connection : Connection) (parent : world.fork ≠ 0)
    (complete : Complete world connection) (getParentPid : Int → Int)
    (listed : Listed world getParentPid) :
    (world.replies = true →
      ∃ pid usingWrapper, written (runOnce world connection).ending = [(pid, usingWrapper)] ∧
        Reply world getParentPid (runOnce world connection) pid usingWrapper) ∧
    (world.replies = false → (runOnce world connection).ending = .unanswered) := by
  constructor
  · intro writes
    rcases runOnce_complete parent complete with ⟨args, forked, ending⟩ | ⟨none, ending⟩
    · rw [ending, handleParentProc_eq, if_pos writes]
      exact ⟨_, _, rfl, reply_of_forked listed parent forked⟩
    · rw [ending, handleParentProc_eq, if_pos writes]
      exact ⟨-1, false, rfl, reply_of_not_forked none⟩
  · exact runOnce_silent parent complete

def wrapping : World :=
  { Confinement.permissive with
    innerPid := some 9
    parents := fun pid => if pid = 9 then [7, 1] else if pid = 7 then [1] else [] }

def wrappedRequest : Connection :=
  { Confinement.applicationRequest with
    peer := ⟨0, 0, 0⟩
    reader := ⟨text "4\n--runtime-init\n--invoke-with\n/wrap\nMain\n", .eof⟩ }

theorem one_reply_per_request_wrapped :
    ∃ pid usingWrapper, written (runOnce wrapping wrappedRequest).ending = [(pid, usingWrapper)] ∧
      Reply wrapping (fun pid => if pid = 9 then 7 else if pid = 7 then 1 else 0)
        (runOnce wrapping wrappedRequest) pid usingWrapper := by
  have complete : Complete wrapping wrappedRequest :=
    complete_iff.mpr ⟨⟨[text "--runtime-init", text "--invoke-with", text "/wrap", text "Main"],
      ⟨[], .eof⟩, by rfl⟩, rfl⟩
  refine (one_reply_per_request wrapping wrappedRequest (by decide) complete _ ?_).1 rfl
  intro innerPid reported _
  obtain rfl : 9 = innerPid := Option.some.inj reported
  exact .parent (by decide) (.parent (by decide) (.root (by decide)))

section Sockets

variable {world : World} {connection : Connection}

theorem handleParentProc_ne_closed (pid : Int) (piped : Bool) :
    handleParentProc world pid piped ≠ .closed := by
  rw [handleParentProc_eq]
  split
  · exact nofun
  · exact nofun

theorem runOnce_fd : (runOnce world connection).connection.fd = connection.fd := by
  obtain ⟨reader, ⟨-, ⟨-, closed⟩ | ⟨-, thrown⟩⟩ | ⟨-, -, ⟨args, forked⟩ | failed⟩⟩ :=
    runOnce_cases world connection
  · rw [closed]
    rfl
  · rw [thrown]
  · rw [forked]
  · rw [failed]

theorem runOnce_closed_iff (opened : connection.closed = false) :
    (runOnce world connection).connection.closed = true ↔
      (runOnce world connection).ending = .closed := by
  obtain ⟨reader, ⟨-, ⟨-, closed⟩ | ⟨-, thrown⟩⟩ | ⟨-, -, ⟨args, forked⟩ | failed⟩⟩ :=
    runOnce_cases world connection
  · rw [closed]
    exact iff_of_true rfl rfl
  · rw [thrown]
    exact iff_of_false (by simp [opened]) nofun
  · rw [forked]
    refine iff_of_false (by simp [opened]) ?_
    split
    · exact nofun
    · exact handleParentProc_ne_closed _ _
  · rw [failed]
    exact iff_of_false (by simp [opened]) (handleParentProc_ne_closed _ _)

theorem handleParentProc_cases (pid : Int) (piped : Bool) :
    (∃ pid' usingWrapper, handleParentProc world pid piped = .replied pid' usingWrapper ∧
      world.replies = true) ∨
    (handleParentProc world pid piped = .unanswered ∧ world.replies = false) := by
  by_cases replies : world.replies = true
  · exact .inl ⟨_, _, if_pos replies, replies⟩
  · exact .inr ⟨if_neg replies, by simpa using replies⟩

theorem ending_of_complete (complete : Complete world connection) :
    (∃ args, (runOnce world connection).ending = .child args) ∨
    (∃ pid usingWrapper, (runOnce world connection).ending = .replied pid usingWrapper ∧
      world.replies = true) ∨
    ((runOnce world connection).ending = .unanswered ∧ world.replies = false) := by
  obtain ⟨reader, ⟨incomplete, -⟩ | ⟨-, -, ⟨args, forked⟩ | failed⟩⟩ :=
    runOnce_cases world connection
  · exact absurd complete incomplete
  · rw [forked]
    split
    · exact .inl ⟨args, rfl⟩
    · exact .inr (handleParentProc_cases _ _)
  · rw [failed]
    exact .inr (handleParentProc_cases _ _)

theorem ending_of_not_complete (incomplete : ¬ Complete world connection) :
    (runOnce world connection).ending = .closed ∨
      ∃ exception, (runOnce world connection).ending = .thrown exception := by
  obtain ⟨reader, ⟨-, ⟨-, closed⟩ | ⟨-, thrown⟩⟩ | ⟨complete, -⟩⟩ := runOnce_cases world connection
  · exact .inl (by rw [closed])
  · exact .inr ⟨_, by rw [thrown]⟩
  · exact absurd complete incomplete

theorem complete_of_unanswered (unanswered : (runOnce world connection).ending = .unanswered) :
    Complete world connection ∧ world.replies = false := by
  by_cases complete : Complete world connection
  · refine ⟨complete, ?_⟩
    rcases ending_of_complete complete with ⟨args, child⟩ | ⟨pid, wrapped, replied, -⟩ | ⟨-, fails⟩
    · rw [child] at unanswered
      cases unanswered
    · rw [replied] at unanswered
      cases unanswered
    · exact fails
  · rcases ending_of_not_complete complete with closed | ⟨exception, thrown⟩
    · rw [closed] at unanswered
      cases unanswered
    · rw [thrown] at unanswered
      cases unanswered

theorem closed_of_done_iff (opened : connection.closed = false) :
    (done (runOnce world connection).ending = true →
      (runOnce world connection).connection.closed = true) ↔
    (runOnce world connection).ending ≠ .unanswered := by
  rw [runOnce_closed_iff opened]
  cases (runOnce world connection).ending with
  | unanswered => exact iff_of_false (fun closes => by cases closes rfl) fun other => other rfl
  | closed => exact iff_of_true (fun _ => rfl) nofun
  | _ => exact iff_of_true nofun nofun

end Sockets

/-- When a call in the parent returns true and its connection is dropped, the socket has
been closed: this holds just when the reply to a complete request can be written. -/
theorem socket_released_iff (world : World) (connection : Connection) (parent : world.fork ≠ 0)
    (opened : connection.closed = false) :
    (done (runOnce world connection).ending = true →
      (runOnce world connection).connection.closed = true) ↔
    (Complete world connection → world.replies = true) := by
  rw [closed_of_done_iff opened]
  constructor
  · intro answered complete
    by_contra fails
    exact answered ((runOnce_silent parent complete) (by simpa using fails))
  · intro replies unanswered
    obtain ⟨complete, fails⟩ := complete_of_unanswered unanswered
    rw [replies complete] at fails
    cases fails

def hangup : Connection := { Confinement.applicationRequest with reader := ⟨[], .eof⟩ }

theorem socket_released_iff_hangup :
    done (runOnce Confinement.permissive hangup).ending = true ∧
      (runOnce Confinement.permissive hangup).connection.closed = true := by
  have dropped : done (runOnce Confinement.permissive hangup).ending = true := by decide +kernel
  refine ⟨dropped, ?_⟩
  exact (socket_released_iff Confinement.permissive hangup (by decide) rfl).mpr (fun _ => rfl) dropped

/-- A peer that has closed its side does not get the reply; the connection is dropped and
its socket stays open. -/
theorem failed_reply_leaks_socket :
    let served := runOnce { Confinement.permissive with replies := false }
      Confinement.applicationRequest
    done served.ending = true ∧ served.connection.closed = false := by
  decide +kernel

end AndroidBoot.Zygote.Replies
