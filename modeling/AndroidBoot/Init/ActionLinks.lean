/- source: init/init/init.c, init/init/init_parser.c, init/init/init.h
   digest: The linked lists of actions and commands simulate the action queue. -/

import AndroidBoot.Foundation.Ring
import AndroidBoot.Init.ActionQueue
import AndroidBoot.Init.BootTriggers

/-!
The source keeps its actions and commands in the lists of `cutils/list.h`, which is not part of
it: the results hold for any such library that is lawful. An action and a command are named by
their addresses; `node_to_item` is defined on the nodes that are members of the right structure.
-/

set_option autoImplicit false

namespace AndroidBoot.Init.ActionLinks

open State (Text InitState)
open Properties (runTest bootTest)
open Foundation.Ring ActionQueue BootTriggers

/-- The list nodes: the two global heads, and the members of `struct action` and
`struct command`. -/
inductive Node
  | actionList
  | actionQueue
  | alist (act : Nat)
  | qlist (act : Nat)
  | commands (act : Nat)
  | clist (cmd : Nat)
  deriving DecidableEq

/-- `cur_action` and `cur_command`, and memory. -/
structure Links (H : Type) where
  heap : H
  curAction : Option Nat
  curCommand : Option Nat

section Source

variable {H : Type} (lists : Lists H Node) (names : Nat → Text)

def actionAddQueueTail (p : Links H) (act : Nat) : Links H × List (Note Nat) :=
  if lists.next p.heap (.qlist act) = .qlist act then
    ({ p with heap := lists.addTail p.heap .actionQueue (.qlist act) }, [.queued act])
  else (p, [])

/-- `list_for_each` over `action_list`; the actions that pass a test are queued. -/
def forEachAction (test : Nat → Bool) : Nat → Node → Links H → Option (Links H × List (Note Nat))
  | 0, _, _ => none
  | fuel + 1, node, p =>
    if node = .actionList then some (p, [])
    else
      match node with
      | .alist act =>
        let (p, notes) := if test act then actionAddQueueTail lists p act else (p, [])
        (forEachAction test fuel (lists.next p.heap node) p).map fun more =>
          (more.1, notes ++ more.2)
      | _ => none

def actionForEachTrigger (fuel : Nat) (trigger : Text) (p : Links H) :
    Option (Links H × List (Note Nat)) :=
  forEachAction lists (fun act => names act = trigger) fuel (lists.next p.heap .actionList) p

def queuePropertyTriggers (fuel : Nat) (name value : Text) (p : Links H) :
    Option (Links H × List (Note Nat)) :=
  forEachAction lists (fun act => runTest name value ⟨names act, []⟩) fuel
    (lists.next p.heap .actionList) p

def queueAllPropertyTriggers (fuel : Nat) (s : InitState) (p : Links H) :
    Option (Links H × List (Note Nat)) :=
  forEachAction lists (fun act => bootTest s ⟨names act, []⟩) fuel
    (lists.next p.heap .actionList) p

def actionRemoveQueueHead (h : H) : Option (Option Nat × H) :=
  if lists.next h .actionQueue = .actionQueue then some (none, h)
  else
    match lists.next h .actionQueue with
    | .qlist act => some (some act, lists.init (lists.remove h (.qlist act)) (.qlist act))
    | _ => none

def getFirstCommand (h : H) (act : Nat) : Option (Option Nat) :=
  if lists.next h (.commands act) = .commands act then some none
  else
    match lists.next h (.commands act) with
    | .clist cmd => some (some cmd)
    | _ => none

def getNextCommand (h : H) (act cmd : Nat) : Option (Option Nat) :=
  if lists.next h (.clist cmd) = .commands act then some none
  else
    match lists.next h (.clist cmd) with
    | .clist next => some (some next)
    | _ => none

def isLastCommand (h : H) (act cmd : Nat) : Bool := lists.prev h (.commands act) = .clist cmd

def called (act : Nat) (cmd : Option Nat) : List (Note Nat) :=
  cmd.toList.map (Note.executed act)

/-- The first branch of `execute_one_command`. -/
def takeAction (h : H) : Option (Links H × List (Note Nat)) :=
  (actionRemoveQueueHead lists h).bind fun taken =>
    match taken with
    | (none, h) => some (⟨h, none, none⟩, [])
    | (some act, h) =>
      (getFirstCommand lists h act).map fun first =>
        (⟨h, some act, first⟩, .dequeued act :: called act first)

/-- `execute_one_command`, up to the call of the command: what that queues comes next. -/
def executeOneCommand (p : Links H) : Option (Links H × List (Note Nat)) :=
  match p.curAction, p.curCommand with
  | some act, some cmd =>
    if isLastCommand lists p.heap act cmd then takeAction lists p.heap
    else
      (getNextCommand lists p.heap act cmd).map fun next =>
        ({ p with curCommand := next }, called act next)
  | _, _ => takeAction lists p.heap

/-- What can happen. The commands that run trigger actions as anything else does. -/
inductive Event
  | addQueueTail (act : Nat)
  | trigger (name : Text)
  | property (name value : Text)
  | allProperties (s : InitState)
  | execute

def handle (fuel : Nat) (p : Links H) : Event → Option (Links H × List (Note Nat))
  | .addQueueTail act => some (actionAddQueueTail lists p act)
  | .trigger name => actionForEachTrigger lists names fuel name p
  | .property name value => queuePropertyTriggers lists names fuel name value p
  | .allProperties s => queueAllPropertyTriggers lists names fuel s p
  | .execute => executeOneCommand lists p

def run (fuel : Nat) : List Event → Links H → Option (Links H × List (Note Nat))
  | [], p => some (p, [])
  | event :: events, p =>
    (handle lists names fuel p event).bind fun first =>
      (run fuel events first.1).map fun more => (more.1, first.2 ++ more.2)

end Source

section Simulation

variable {H : Type} {lists : Lists H Node} {names : Nat → Text} {acts : List Nat}
  {cmds : Nat → List Nat} {p : Links H} {q : Queue Nat}

/-- `cur_action` and `cur_command` for the action that runs and the commands left of it. -/
def Current (acts : List Nat) (cmds : Nat → List Nat) :
    Option Nat → Option Nat → Option (Nat × List Nat) → Prop
  | none, _, running => running = none
  | some act, none, running => act ∈ acts ∧ running = some (act, [])
  | some act, some cmd, running =>
    act ∈ acts ∧ ∃ past rest, cmds act = past ++ cmd :: rest ∧ running = some (act, rest)

structure Represents (lists : Lists H Node) (acts : List Nat) (cmds : Nat → List Nat)
    (p : Links H) (q : Queue Nat) : Prop where
  list : lists.Holds p.heap .actionList (acts.map .alist)
  queue : lists.Holds p.heap .actionQueue (q.waiting.map .qlist)
  known : ∀ a ∈ q.waiting, a ∈ acts
  idle : ∀ a ∈ acts, a ∉ q.waiting → lists.Holds p.heap (.qlist a) []
  commands : ∀ a ∈ acts, lists.Holds p.heap (.commands a) ((cmds a).map .clist)
  current : Current acts cmds p.curAction p.curCommand q.running

def Node.lasting : Node → Prop
  | .actionQueue => False
  | .qlist _ => False
  | _ => True

variable {a : Nat}

theorem mem_qlist {waiting : List Nat} :
    Node.qlist a ∈ Node.actionQueue :: waiting.map Node.qlist ↔ a ∈ waiting := by
  simp

theorem Node.lasting.not_mem {n : Node} (lasting : n.lasting) (waiting : List Nat) :
    n ∉ Node.actionQueue :: waiting.map Node.qlist := by
  cases n <;> simp_all [Node.lasting]

variable (rep : Represents lists acts cmds p q)
include rep

theorem Represents.lasting {h : H}
    (same : ∀ n : Node, n.lasting → lists.SameAt p.heap h n) :
    lists.Holds h .actionList (acts.map .alist) ∧
      ∀ a ∈ acts, lists.Holds h (.commands a) ((cmds a).map .clist) := by
  constructor
  · refine rep.list.congr fun n member => same n ?_
    rcases List.mem_cons.mp member with rfl | member
    · trivial
    · obtain ⟨a, -, rfl⟩ := List.mem_map.mp member
      trivial
  · intro a inside
    refine (rep.commands a inside).congr fun n member => same n ?_
    rcases List.mem_cons.mp member with rfl | member
    · trivial
    · obtain ⟨c, -, rfl⟩ := List.mem_map.mp member
      trivial

theorem Represents.isQueued_iff (inside : a ∈ acts) :
    lists.next p.heap (.qlist a) = .qlist a ↔ a ∉ q.waiting := by
  constructor
  · intro alone member
    exact rep.queue.next_ne (List.mem_map_of_mem member) alone
  · intro fresh
    exact (rep.idle a inside fresh).next_head_iff.mpr rfl

variable (lawful : lists.Lawful)
include lawful

theorem Represents.add (inside : a ∈ acts) :
    Represents lists acts cmds (actionAddQueueTail lists p a).1 (q.add a).1 ∧
      (actionAddQueueTail lists p a).2 = (q.add a).2 := by
  unfold actionAddQueueTail Queue.add
  by_cases member : a ∈ q.waiting
  · have linked : ¬lists.next p.heap (.qlist a) = .qlist a := fun alone =>
      (rep.isQueued_iff inside).mp alone member
    rw [if_neg linked, if_pos member]
    exact ⟨rep, rfl⟩
  · rw [if_pos ((rep.isQueued_iff inside).mpr member), if_neg member]
    have fresh : Node.qlist a ∉ Node.actionQueue :: q.waiting.map Node.qlist :=
      mt mem_qlist.mp member
    have frame := lawful.addTail_frame p.heap _ _ _ rep.queue fresh
    have kept := rep.lasting fun n lasting => frame n (lasting.not_mem q.waiting) (by
      rintro rfl
      exact lasting)
    refine ⟨⟨kept.1, ?_, ?_, ?_, kept.2, rep.current⟩, rfl⟩
    · have holds := lawful.addTail_holds p.heap _ _ _ rep.queue fresh
      rwa [← List.map_singleton (f := Node.qlist), ← List.map_append] at holds
    · exact List.forall_mem_append.mpr ⟨rep.known, List.forall_mem_singleton.mpr inside⟩
    · intro b inside' fresh'
      obtain ⟨old, new⟩ := not_or.mp (mt List.mem_append.mpr fresh')
      refine (rep.idle b inside' old).congr fun n alone => ?_
      obtain rfl := List.mem_singleton.mp alone
      refine frame _ (mt mem_qlist.mp old) ?_
      rintro ⟨⟩
      exact new (List.mem_singleton_self _)

theorem Represents.forEach (test : Nat → Bool) (before left : List Nat)
    (whole : acts = before ++ left) (fuel : Nat) (enough : left.length < fuel) :
    ∃ p', forEachAction lists test fuel ((left.map Node.alist ++ [Node.actionList]).head (by simp)) p =
        some (p', (q.addAll (left.filter test)).2) ∧
      Represents lists acts cmds p' (q.addAll (left.filter test)).1 := by
  induction left generalizing before p q fuel with
  | nil =>
    obtain ⟨fuel, rfl⟩ : ∃ n, fuel = n + 1 := ⟨fuel - 1, by omega⟩
    exact ⟨p, rfl, rep⟩
  | cons a left ih =>
    obtain ⟨fuel, rfl⟩ : ∃ n, fuel = n + 1 := ⟨fuel - 1, by omega⟩
    have inside : a ∈ acts := whole ▸ List.mem_append_right before List.mem_cons_self
    have next : ∀ {p : Links H} {q : Queue Nat}, Represents lists acts cmds p q →
        lists.next p.heap (.alist a) = (left.map Node.alist ++ [Node.actionList]).head (by simp) := by
      intro p q rep
      have list := rep.list
      rw [whole, List.map_append, List.map_cons] at list
      cases left with
      | nil => exact list.end_
      | cons b left => exact list.following
    have shifted : acts = (before ++ [a]) ++ left := by rw [whole, List.append_assoc]; rfl
    have node : ((a :: left).map Node.alist ++ [Node.actionList]).head (by simp) = Node.alist a := rfl
    have other : Node.alist a ≠ Node.actionList := nofun
    rw [node, forEachAction, if_neg other]
    dsimp only
    by_cases passes : test a = true
    · obtain ⟨rep', notes⟩ := rep.add lawful inside
      rw [if_pos passes, List.filter_cons_of_pos passes, next rep']
      obtain ⟨p', ran, final⟩ := ih rep' (before ++ [a]) shifted fuel (Nat.lt_of_succ_lt_succ enough)
      rw [ran, notes]
      exact ⟨p', rfl, final⟩
    · rw [if_neg passes, List.filter_cons_of_neg passes, next rep]
      obtain ⟨p', ran, final⟩ := ih rep (before ++ [a]) shifted fuel (Nat.lt_of_succ_lt_succ enough)
      rw [ran]
      exact ⟨p', rfl, final⟩

theorem Represents.forEachAll (test : Nat → Bool) (fuel : Nat) (enough : acts.length < fuel) :
    ∃ p', forEachAction lists test fuel (lists.next p.heap .actionList) p =
        some (p', (q.addAll (acts.filter test)).2) ∧
      Represents lists acts cmds p' (q.addAll (acts.filter test)).1 := by
  have first : lists.next p.heap .actionList =
      (acts.map Node.alist ++ [Node.actionList]).head (by simp) := by
    have list := rep.list
    cases acts with
    | nil => exact list.next_head_iff.mpr rfl
    | cons a rest => exact list.first
  rw [first]
  exact rep.forEach lawful test [] acts rfl fuel enough

theorem Represents.dequeue {waiting : List Nat} (next : q.waiting = a :: waiting) :
    ∃ h, actionRemoveQueueHead lists p.heap = some (some a, h) ∧
      ∀ act cmd running, Current acts cmds act cmd running →
        Represents lists acts cmds ⟨h, act, cmd⟩ ⟨waiting, running⟩ := by
  have queue := rep.queue
  rw [next, List.map_cons] at queue
  have nonempty : lists.next p.heap .actionQueue ≠ .actionQueue := by
    rw [queue.first]
    nofun
  have once : a ∉ waiting := fun member =>
    (List.nodup_cons.mp (List.nodup_cons.mp queue.nodup).2).1 (List.mem_map_of_mem member)
  refine ⟨lists.init (lists.remove p.heap (.qlist a)) (.qlist a), ?_, fun act cmd running current => ?_⟩
  · rw [actionRemoveQueueHead, if_neg nonempty, queue.first]
  · have removed := lawful.remove_frame p.heap .actionQueue [] (.qlist a) _ queue
    have inited := lawful.init_frame (lists.remove p.heap (.qlist a)) (.qlist a)
    have frame : ∀ n, n ∉ Node.actionQueue :: (a :: waiting).map Node.qlist →
        lists.SameAt p.heap (lists.init (lists.remove p.heap (.qlist a)) (.qlist a)) n := by
      intro n outside
      have other : n ≠ .qlist a := fun same => outside (by rw [same]; exact mem_qlist.mpr List.mem_cons_self)
      have one := removed n outside
      have two := inited n other
      exact ⟨two.1.trans one.1, two.2.trans one.2⟩
    have kept := rep.lasting fun n lasting => frame n (lasting.not_mem _)
    refine ⟨kept.1, ?_, ?_, ?_, kept.2, current⟩
    · have rest := lawful.remove_holds p.heap .actionQueue [] (.qlist a) _ queue
      refine rest.congr fun n member => inited n ?_
      rintro rfl
      exact once (mem_qlist.mp member)
    · exact fun b waits => rep.known b (by rw [next]; exact List.mem_cons_of_mem a waits)
    · intro b inside fresh
      by_cases same : b = a
      · rw [same]
        exact lawful.init_holds _ _
      · have unqueued : b ∉ a :: waiting := by
          rintro (_ | ⟨_, member⟩)
          · exact same rfl
          · exact fresh member
        refine (rep.idle b inside (by rwa [next])).congr fun n alone => ?_
        obtain rfl := List.mem_singleton.mp alone
        exact frame _ (mt mem_qlist.mp unqueued)

theorem Represents.take (finished : ∀ a c rest, q.running ≠ some (a, c :: rest)) :
    ∃ p', takeAction lists p.heap = some (p', (q.execute cmds).2) ∧
      Represents lists acts cmds p' (q.execute cmds).1 := by
  rw [Queue.execute_finished cmds finished]
  cases next : q.waiting with
  | nil =>
    have empty : lists.next p.heap .actionQueue = .actionQueue :=
      rep.queue.next_head_iff.mpr (by rw [next]; rfl)
    have queue := rep.queue
    rw [next] at queue
    refine ⟨⟨p.heap, none, none⟩, ?_, rep.list, queue, ?_, ?_, rep.commands, rfl⟩
    · rw [takeAction, actionRemoveQueueHead, if_pos empty]
      rfl
    · exact fun a member => absurd member List.not_mem_nil
    · exact fun a inside _ => rep.idle a inside (by rw [next]; exact List.not_mem_nil)
  | cons a waiting =>
    have inside : a ∈ acts := rep.known a (by rw [next]; exact List.mem_cons_self)
    obtain ⟨h, taken, represents⟩ := rep.dequeue lawful next
    have own := (represents none none none rfl).commands a inside
    dsimp only
    rw [takeAction, taken, Option.bind_some, Queue.begin_]
    dsimp only
    rw [getFirstCommand]
    cases commands : cmds a with
    | nil =>
      rw [commands] at own
      rw [if_pos (own.next_head_iff.mpr rfl)]
      exact ⟨⟨h, some a, none⟩, rfl, represents _ _ _ ⟨inside, rfl⟩⟩
    | cons c rest =>
      rw [commands] at own
      have some_ : lists.next h (.commands a) ≠ .commands a := by
        rw [own.first]
        intro same
        cases same
      rw [if_neg some_, own.first]
      exact ⟨⟨h, some a, some c⟩, rfl, represents _ _ _ ⟨inside, [], rest, commands, rfl⟩⟩

omit lawful in
theorem Represents.isLast_iff {a c : Nat} {past rest : List Nat}
    (inside : a ∈ acts) (commands : cmds a = past ++ c :: rest) :
    isLastCommand lists p.heap a c = true ↔ rest = [] := by
  have own := rep.commands a inside
  rw [commands, List.map_append, List.map_cons] at own
  rw [isLastCommand, decide_eq_true_iff]
  rcases List.eq_nil_or_concat rest with rfl | ⟨front, z, rfl⟩
  · exact ⟨fun _ => rfl, fun _ => own.last⟩
  · rw [List.concat_eq_append, List.map_append] at own
    have regrouped : lists.Holds p.heap (.commands a)
        ((past.map Node.clist ++ Node.clist c :: front.map Node.clist) ++ [Node.clist z]) := by
      rwa [List.append_assoc]
    rw [regrouped.last]
    constructor
    · rintro ⟨⟩
      have twice := (List.nodup_append.mp (List.nodup_cons.mp own.nodup).2).2.1
      exact absurd (by simp) (List.nodup_cons.mp twice).1
    · exact fun none_ => absurd none_ (by simp)

theorem Represents.execute :
    ∃ p', executeOneCommand lists p = some (p', (q.execute cmds).2) ∧
      Represents lists acts cmds p' (q.execute cmds).1 := by
  have current := rep.current
  unfold executeOneCommand
  cases act : p.curAction with
  | none =>
    rw [act] at current
    have none_ : q.running = none := current
    exact rep.take lawful (by rw [none_]; nofun)
  | some a =>
    cases cmd : p.curCommand with
    | none =>
      rw [act, cmd] at current
      refine rep.take lawful ?_
      rw [current.2]
      nofun
    | some c =>
      rw [act, cmd] at current
      obtain ⟨inside, past, rest, commands, running⟩ := current
      dsimp only
      cases rest with
      | nil =>
        rw [if_pos ((rep.isLast_iff inside commands).mpr rfl)]
        refine rep.take lawful ?_
        rw [running]
        nofun
      | cons next rest =>
        have more : ¬isLastCommand lists p.heap a c = true := fun last =>
          List.cons_ne_nil next rest ((rep.isLast_iff inside commands).mp last)
        have own := rep.commands a inside
        rw [commands, List.map_append, List.map_cons, List.map_cons] at own
        have ahead : lists.next p.heap (.clist c) = .clist next := own.following
        rw [if_neg more, getNextCommand, ahead, if_neg nofun, Queue.execute_running cmds running]
        refine ⟨_, rfl, rep.list, rep.queue, rep.known, rep.idle, rep.commands, ?_⟩
        exact ⟨inside, past ++ [c], rest, by rw [commands, List.append_assoc]; rfl, rfl⟩

end Simulation

section Runs

variable {H : Type} {lists : Lists H Node} (names : Nat → Text) {acts : List Nat}
  {cmds : Nat → List Nat} {p : Links H} {q : Queue Nat}

def targets (names : Nat → Text) (acts : List Nat) : Event → List Nat
  | .addQueueTail act => [act]
  | .trigger name => acts.filter fun act => names act = name
  | .property name value => acts.filter fun act => runTest name value ⟨names act, []⟩
  | .allProperties s => acts.filter fun act => bootTest s ⟨names act, []⟩
  | .execute => []

def Known (acts : List Nat) : Event → Prop
  | .addQueueTail act => act ∈ acts
  | _ => True

def answer (names : Nat → Text) (acts : List Nat) (cmds : Nat → List Nat) (q : Queue Nat) :
    Event → Queue Nat × List (Note Nat)
  | .execute => q.execute cmds
  | event => q.addAll (targets names acts event)

theorem answer_of_ne {event : Event} (other : event ≠ .execute) :
    answer names acts cmds q event = q.addAll (targets names acts event) := by
  cases event with
  | execute => exact absurd rfl other
  | _ => rfl

theorem actionAddQueueTail_current (lists : Lists H Node) (p : Links H) (act : Nat) :
    (actionAddQueueTail lists p act).1.curAction = p.curAction ∧
      (actionAddQueueTail lists p act).1.curCommand = p.curCommand := by
  unfold actionAddQueueTail
  split <;> exact ⟨rfl, rfl⟩

theorem forEachAction_current {test : Nat → Bool} {fuel : Nat} {node : Node} {p p' : Links H}
    {notes : List (Note Nat)} (ran : forEachAction lists test fuel node p = some (p', notes)) :
    p'.curAction = p.curAction ∧ p'.curCommand = p.curCommand := by
  induction fuel generalizing node p p' notes with
  | zero => cases ran
  | succ fuel ih =>
    cases node with
    | actionList =>
      cases ran
      exact ⟨rfl, rfl⟩
    | alist act =>
      rw [forEachAction, if_neg nofun] at ran
      by_cases passes : test act = true
      · rw [if_pos passes] at ran
        obtain ⟨more, rest, same⟩ := Option.map_eq_some_iff.mp ran
        obtain ⟨rfl, -⟩ := Prod.mk.inj same
        obtain ⟨action, command⟩ := actionAddQueueTail_current lists p act
        exact ⟨(ih rest).1.trans action, (ih rest).2.trans command⟩
      · rw [if_neg passes] at ran
        obtain ⟨more, rest, same⟩ := Option.map_eq_some_iff.mp ran
        obtain ⟨rfl, -⟩ := Prod.mk.inj same
        exact ih rest
    | _ => cases ran

theorem handle_current {fuel : Nat} {event : Event} {p p' : Links H} {notes : List (Note Nat)}
    (other : event ≠ .execute) (ran : handle lists names fuel p event = some (p', notes)) :
    p'.curAction = p.curAction ∧ p'.curCommand = p.curCommand := by
  cases event with
  | addQueueTail act =>
    obtain ⟨rfl, -⟩ := Prod.mk.inj (Option.some.inj ran)
    exact actionAddQueueTail_current lists p act
  | trigger | property | allProperties => exact forEachAction_current ran
  | execute => exact absurd rfl other

theorem Represents.handle (lawful : lists.Lawful) (rep : Represents lists acts cmds p q) (fuel : Nat)
    (enough : acts.length < fuel) (event : Event) (known : Known acts event) :
    ∃ p', handle lists names fuel p event = some (p', (answer names acts cmds q event).2) ∧
      Represents lists acts cmds p' (answer names acts cmds q event).1 := by
  cases event with
  | addQueueTail act =>
    obtain ⟨rep', notes⟩ := rep.add lawful known
    refine ⟨(actionAddQueueTail lists p act).1, ?_, rep'⟩
    show some (actionAddQueueTail lists p act) = some (_, (q.add act).2 ++ [])
    rw [List.append_nil, ← notes]
  | trigger | property | allProperties => exact rep.forEachAll lawful _ fuel enough
  | execute => exact rep.execute lawful

variable {log : List (Note Nat)}

theorem disciplined_answer (acts : List Nat) (disciplined : Disciplined cmds q log)
    (event : Event) : Disciplined cmds (answer names acts cmds q event).1
      (log ++ (answer names acts cmds q event).2) := by
  cases event with
  | execute => exact disciplined.execute
  | _ => exact disciplined.addAll _

theorem Represents.run (lawful : lists.Lawful) (fuel : Nat) (enough : acts.length < fuel)
    (events : List Event) (known : ∀ event ∈ events, Known acts event)
    (rep : Represents lists acts cmds p q) (disciplined : Disciplined cmds q log) :
    ∃ p' q' more, run lists names fuel events p = some (p', more) ∧
      Represents lists acts cmds p' q' ∧ Disciplined cmds q' (log ++ more) := by
  induction events generalizing p q log with
  | nil =>
    refine ⟨p, q, [], rfl, rep, ?_⟩
    rwa [List.append_nil]
  | cons event events ih =>
    obtain ⟨p₁, first, rep₁⟩ := rep.handle names lawful fuel enough event
      (known event List.mem_cons_self)
    obtain ⟨p', q', more, rest, rep', disciplined'⟩ := ih
      (List.forall_mem_cons.mp known).2 rep₁
      (disciplined_answer names acts disciplined event)
    refine ⟨p', q', (answer names acts cmds q event).2 ++ more, ?_, rep', ?_⟩
    · rw [ActionLinks.run, first, Option.bind_some, rest]
      rfl
    · rwa [List.append_assoc] at disciplined'

structure Parsed (lists : Lists H Node) (acts : List Nat) (cmds : Nat → List Nat) (h : H) : Prop where
  list : lists.Holds h .actionList (acts.map .alist)
  queue : lists.Holds h .actionQueue []
  idle : ∀ a ∈ acts, lists.Holds h (.qlist a) []
  commands : ∀ a ∈ acts, lists.Holds h (.commands a) ((cmds a).map .clist)

theorem Parsed.represents {h : H} (parsed : Parsed lists acts cmds h) :
    Represents lists acts cmds ⟨h, none, none⟩ ⟨[], none⟩ :=
  ⟨parsed.list, parsed.queue, fun _ member => absurd member List.not_mem_nil,
    fun a inside _ => parsed.idle a inside, parsed.commands, rfl⟩

def Orderly (lists : Lists H Node) (cmds : Nat → List Nat) (p : Links H) (log : List (Note Nat)) :
    Prop :=
  ∃ waiting, lists.Holds p.heap .actionQueue (waiting.map .qlist) ∧ waiting.Nodup ∧
    queued log = dequeued log ++ waiting ∧ InOrder cmds log

theorem Represents.orderly (rep : Represents lists acts cmds p q)
    (disciplined : Disciplined cmds q log) : Orderly lists cmds p log :=
  ⟨q.waiting, rep.queue, disciplined.once, disciplined.fifo, disciplined.running.inOrder⟩

def Waits (lists : Lists H Node) (p : Links H) (act : Nat) : Prop :=
  ∃ waiting : List Nat, lists.Holds p.heap .actionQueue (waiting.map .qlist) ∧ act ∈ waiting

/-- Every run goes through and is orderly. An action that is triggered, whether it runs or not, is
in the queue afterwards, and what runs goes on. -/
theorem action_queue_discipline (lawful : lists.Lawful) {h : H} (parsed : Parsed lists acts cmds h)
    (events : List Event) (known : ∀ event ∈ events, Known acts event)
    (fuel : Nat) (enough : acts.length < fuel) :
    ∃ p log, run lists names fuel events ⟨h, none, none⟩ = some (p, log) ∧ Orderly lists cmds p log ∧
      ∀ event, Known acts event → ∀ act ∈ targets names acts event,
        ∃ p' more, handle lists names fuel p event = some (p', more) ∧ Waits lists p' act ∧
          Orderly lists cmds p' (log ++ more) ∧
          p'.curAction = p.curAction ∧ p'.curCommand = p.curCommand := by
  have start : Disciplined cmds ⟨[], none⟩ [] := ⟨List.nodup_nil, rfl, rfl⟩
  obtain ⟨p, q, log, ran, rep, disciplined⟩ :=
    parsed.represents.run names lawful fuel enough events known start
  refine ⟨p, log, ran, rep.orderly disciplined, fun event known act target => ?_⟩
  obtain ⟨p', next, rep'⟩ := rep.handle names lawful fuel enough event known
  have triggers : event ≠ .execute := by
    rintro rfl
    cases target
  refine ⟨p', _, next, ⟨_, rep'.queue, ?_⟩,
    rep'.orderly (disciplined_answer names acts disciplined event), handle_current names triggers next⟩
  rw [answer_of_ne names triggers]
  exact (q.addAll_waiting _).2.2 act target

def twoNames : Nat → Text
  | 0 => "boot".toList
  | _ => "charger".toList

def twoCommands : Nat → List Nat
  | 0 => [10, 11]
  | _ => []

def twoHeap : Pointers Node where
  next
    | .actionList => .alist 0
    | .alist 0 => .alist 1
    | .alist 1 => .actionList
    | .commands 0 => .clist 10
    | .clist 10 => .clist 11
    | .clist 11 => .commands 0
    | node => node
  prev
    | .actionList => .alist 1
    | .alist 1 => .alist 0
    | .alist 0 => .actionList
    | .commands 0 => .clist 11
    | .clist 11 => .clist 10
    | .clist 10 => .commands 0
    | node => node

theorem twoHeap_parsed : Parsed Pointers.lists [0, 1] twoCommands twoHeap where
  list := ⟨⟨⟨rfl, rfl⟩, ⟨rfl, rfl⟩, rfl, rfl⟩, by decide⟩
  queue := ⟨⟨rfl, rfl⟩, by decide⟩
  idle := fun a _ => ⟨⟨rfl, rfl⟩, List.nodup_singleton _⟩
  commands := by
    exact List.forall_mem_cons.mpr ⟨⟨⟨⟨rfl, rfl⟩, ⟨rfl, rfl⟩, rfl, rfl⟩, by decide⟩,
      List.forall_mem_singleton.mpr ⟨⟨rfl, rfl⟩, by decide⟩⟩

def twoEvents : List Event :=
  [.trigger "boot".toList, .execute, .trigger "charger".toList, .trigger "boot".toList,
    .addQueueTail 1, .execute, .execute, .execute]

theorem action_queue_discipline_two :
    Pointers.lists.Lawful (N := Node) ∧ Parsed Pointers.lists [0, 1] twoCommands twoHeap ∧
      (∃ p log, run Pointers.lists twoNames 3 twoEvents ⟨twoHeap, none, none⟩ = some (p, log) ∧
        Orderly Pointers.lists twoCommands p log) ∧
      (run Pointers.lists twoNames 3 twoEvents ⟨twoHeap, none, none⟩).map
          (fun result => executed result.2) = some [(0, 10), (0, 11), (0, 10)] := by
  have known : ∀ event ∈ twoEvents, Known [0, 1] event := by
    intro event member
    simp only [twoEvents, List.mem_cons, List.not_mem_nil, or_false] at member
    rcases member with rfl | rfl | rfl | rfl | rfl | rfl | rfl | rfl
    all_goals simp [Known]
  obtain ⟨p, log, ran, orderly, -⟩ := action_queue_discipline twoNames Pointers.lawful twoHeap_parsed
    twoEvents known 3 (by decide)
  exact ⟨Pointers.lawful, twoHeap_parsed, ⟨p, log, ran, orderly⟩, by decide +kernel⟩

end Runs

end AndroidBoot.Init.ActionLinks
