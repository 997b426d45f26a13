/- source: init/init/init.c, init/init/init_parser.c
   digest: What the action queue is for: each action waits once, in turn, and runs whole. -/

import Mathlib.Data.List.Nodup
import AndroidBoot.Init.Commands

set_option autoImplicit false

namespace AndroidBoot.Init.ActionQueue

variable {C : Type}

/-- An action is put in the queue or taken out of it, or a command of it is executed. -/
inductive Note (C : Type)
  | queued (a : Nat)
  | dequeued (a : Nat)
  | executed (a : Nat) (command : C)

structure Queue (C : Type) where
  waiting : List Nat
  /-- The action that runs, and the commands that are left of it. -/
  running : Option (Nat × List C)

namespace Queue

def add (q : Queue C) (a : Nat) : Queue C × List (Note C) :=
  if a ∈ q.waiting then (q, []) else ({ q with waiting := q.waiting ++ [a] }, [.queued a])

def addAll (q : Queue C) : List Nat → Queue C × List (Note C)
  | [] => (q, [])
  | a :: rest =>
    let first := q.add a
    let more := first.1.addAll rest
    (more.1, first.2 ++ more.2)

/-- An action that comes to run starts with its first command, if it has any. -/
def begin_ (commands : Nat → List C) (waiting : List Nat) (a : Nat) : Queue C × List (Note C) :=
  match commands a with
  | [] => (⟨waiting, some (a, [])⟩, [.dequeued a])
  | c :: rest => (⟨waiting, some (a, rest)⟩, [.dequeued a, .executed a c])

def execute (commands : Nat → List C) (q : Queue C) : Queue C × List (Note C) :=
  match q.running with
  | some (a, c :: rest) => ({ q with running := some (a, rest) }, [.executed a c])
  | _ =>
    match q.waiting with
    | [] => ({ q with running := none }, [])
    | a :: waiting => begin_ commands waiting a

theorem addAll_waiting (q : Queue C) (targets : List Nat) :
    q.waiting <+: (q.addAll targets).1.waiting ∧ (q.addAll targets).1.running = q.running ∧
      ∀ a ∈ targets, a ∈ (q.addAll targets).1.waiting := by
  induction targets generalizing q with
  | nil => exact ⟨List.prefix_refl _, rfl, fun _ member => absurd member List.not_mem_nil⟩
  | cons a targets ih =>
    obtain ⟨grows, same, each⟩ := ih (q.add a).1
    have first : q.waiting <+: (q.add a).1.waiting ∧ (q.add a).1.running = q.running ∧
        a ∈ (q.add a).1.waiting := by
      unfold add
      split
      · rename_i member
        exact ⟨List.prefix_refl _, rfl, member⟩
      · exact ⟨List.prefix_append _ _, rfl, List.mem_append_right _ (List.mem_singleton_self a)⟩
    exact ⟨first.1.trans grows, same.trans first.2.1,
      List.forall_mem_cons.mpr ⟨grows.subset first.2.2, each⟩⟩

variable (commands : Nat → List C) {q : Queue C}

theorem execute_running {a : Nat} {c : C} {rest : List C} (busy : q.running = some (a, c :: rest)) :
    q.execute commands = ({ q with running := some (a, rest) }, [.executed a c]) := by
  rw [execute, busy]

theorem execute_finished (finished : ∀ a c rest, q.running ≠ some (a, c :: rest)) :
    q.execute commands =
      match q.waiting with
      | [] => ({ q with running := none }, [])
      | a :: waiting => begin_ commands waiting a := by
  obtain ⟨waiting, running⟩ := q
  match running, finished with
  | none, _ => rfl
  | some (a, []), _ => rfl
  | some (a, c :: rest), finished => exact absurd rfl (finished a c rest)

end Queue

section Notes

def queued (log : List (Note C)) : List Nat :=
  log.filterMap fun note => match note with
    | .queued a => some a
    | _ => none

def dequeued (log : List (Note C)) : List Nat :=
  log.filterMap fun note => match note with
    | .dequeued a => some a
    | _ => none

def executed (log : List (Note C)) : List (Nat × C) :=
  log.filterMap fun note => match note with
    | .executed a c => some (a, c)
    | _ => none

variable (log more : List (Note C))

theorem queued_append : queued (log ++ more) = queued log ++ queued more := List.filterMap_append

theorem dequeued_append : dequeued (log ++ more) = dequeued log ++ dequeued more :=
  List.filterMap_append

theorem executed_append : executed (log ++ more) = executed log ++ executed more :=
  List.filterMap_append

end Notes

section Discipline

variable (commands : Nat → List C)

def entries (a : Nat) : List (Nat × C) := (commands a).map (a, ·)

/-- The actions that have been taken out of the queue have executed all their commands, the last
of them perhaps only the first ones. -/
def InOrder (log : List (Note C)) : Prop :=
  ∃ earlier current part, dequeued log = earlier ++ current ∧ current.length ≤ 1 ∧
    executed log = earlier.flatMap (entries commands) ++ part ∧
    part <+: current.flatMap (entries commands)

/-- What the notes say of the action that runs. -/
def Running (log : List (Note C)) : Option (Nat × List C) → Prop
  | none => executed log = (dequeued log).flatMap (entries commands)
  | some (a, rest) => ∃ earlier past, dequeued log = earlier ++ [a] ∧ commands a = past ++ rest ∧
      executed log = earlier.flatMap (entries commands) ++ past.map (a, ·)

structure Disciplined (q : Queue C) (log : List (Note C)) : Prop where
  once : q.waiting.Nodup
  fifo : queued log = dequeued log ++ q.waiting
  running : Running commands log q.running

variable {commands} {q : Queue C} {log : List (Note C)}

variable {running : Option (Nat × List C)}

section

variable (h : Running commands log running)
include h

theorem Running.inOrder : InOrder commands log := by
  cases running with
  | none => exact ⟨dequeued log, [], [], (List.append_nil _).symm, Nat.zero_le 1, by
      rw [List.append_nil]; exact h, List.nil_prefix⟩
  | some current =>
    obtain ⟨a, rest⟩ := current
    obtain ⟨earlier, past, taken, whole, ran⟩ := h
    refine ⟨earlier, [a], past.map (a, ·), taken, Nat.le_refl 1, ran, rest.map (a, ·), ?_⟩
    rw [List.flatMap_singleton, entries, whole, List.map_append]

theorem Running.whole (finished : ∀ a c rest, running ≠ some (a, c :: rest)) :
    executed log = (dequeued log).flatMap (entries commands) := by
  match running, h, finished with
  | none, h, _ => exact h
  | some (a, []), ⟨earlier, past, taken, whole, ran⟩, _ =>
    rw [taken, ran, List.flatMap_append, List.flatMap_singleton, entries, whole, List.append_nil]
  | some (a, c :: rest), _, finished => exact absurd rfl (finished a c rest)

theorem Running.congr {log' : List (Note C)} (taken : dequeued log' = dequeued log)
    (ran : executed log' = executed log) : Running commands log' running := by
  cases running with
  | none =>
    show executed log' = (dequeued log').flatMap (entries commands)
    rw [taken, ran]
    exact h
  | some current =>
    obtain ⟨earlier, past, before, whole, after⟩ := h
    exact ⟨earlier, past, taken.trans before, whole, ran.trans after⟩

end

section Disciplined

variable (h : Disciplined commands q log)
include h

theorem Disciplined.add (a : Nat) : Disciplined commands (q.add a).1 (log ++ (q.add a).2) := by
  unfold Queue.add
  by_cases member : a ∈ q.waiting
  · rwa [if_pos member, List.append_nil]
  · rw [if_neg member]
    have taken : dequeued (log ++ [Note.queued a]) = dequeued log :=
      (dequeued_append _ _).trans (List.append_nil _)
    have ran : executed (log ++ [Note.queued a]) = executed log :=
      (executed_append _ _).trans (List.append_nil _)
    refine ⟨List.nodup_append.mpr ⟨h.once, List.nodup_singleton a, ?_⟩, ?_, h.running.congr taken ran⟩
    · intro x inside y new same
      exact member (List.mem_singleton.mp new ▸ same ▸ inside)
    · rw [taken, queued_append, h.fifo, List.append_assoc]
      rfl

theorem Disciplined.addAll (targets : List Nat) :
    Disciplined commands (q.addAll targets).1 (log ++ (q.addAll targets).2) := by
  induction targets generalizing q log with
  | nil => rwa [Queue.addAll, List.append_nil]
  | cons a targets ih =>
    have more := ih (h.add a)
    rwa [List.append_assoc] at more

theorem Disciplined.begin_ {a : Nat} {waiting : List Nat} (next : q.waiting = a :: waiting)
    (whole : executed log = (dequeued log).flatMap (entries commands)) :
    Disciplined commands (Queue.begin_ commands waiting a).1
      (log ++ (Queue.begin_ commands waiting a).2) := by
  have once : waiting.Nodup := (List.nodup_cons.mp (next ▸ h.once)).2
  have fifo := h.fifo
  rw [next] at fifo
  unfold Queue.begin_
  cases own : commands a with
  | nil =>
    refine ⟨once, ?_, dequeued log, [], dequeued_append _ _, own, ?_⟩
    · rw [queued_append, dequeued_append, fifo, List.append_assoc, List.append_assoc]
      exact congrArg (dequeued log ++ ·) (List.append_nil (a :: waiting))
    · rw [executed_append, whole]
      rfl
  | cons c rest =>
    refine ⟨once, ?_, dequeued log, [c], dequeued_append _ _, own, ?_⟩
    · rw [queued_append, dequeued_append, fifo, List.append_assoc, List.append_assoc]
      exact congrArg (dequeued log ++ ·) (List.append_nil (a :: waiting))
    · rw [executed_append, whole]
      rfl

theorem Disciplined.execute :
    Disciplined commands (q.execute commands).1 (log ++ (q.execute commands).2) := by
  by_cases finished : ∀ a c rest, q.running ≠ some (a, c :: rest)
  · have whole := h.running.whole finished
    rw [Queue.execute_finished commands finished]
    cases next : q.waiting with
    | nil =>
      dsimp only
      rw [List.append_nil]
      exact ⟨List.nodup_nil, next ▸ h.fifo, whole⟩
    | cons a waiting => exact h.begin_ next whole
  · push Not at finished
    obtain ⟨a, c, rest, busy⟩ := finished
    obtain ⟨once, fifo, running⟩ := h
    rw [busy] at running
    obtain ⟨earlier, past, taken, own, ran⟩ := running
    have took : dequeued (log ++ [Note.executed a c]) = dequeued log :=
      (dequeued_append _ _).trans (List.append_nil _)
    rw [Queue.execute_running commands busy]
    refine ⟨once, ?_, earlier, past ++ [c], took.trans taken, ?_, ?_⟩
    · rw [took, queued_append, fifo]
      exact List.append_nil _
    · rw [own, List.append_assoc]
      rfl
    · rw [executed_append, ran, List.map_append, List.append_assoc]
      rfl

end Disciplined

end Discipline

section View

open State Properties Commands

def commandsOf (s : InitState) (a : Nat) : List Command :=
  (s.actions[a]?.map Action.commands).getD []

def view (s : InitState) : Queue Command :=
  ⟨s.actionQueue, s.current.map fun current =>
    (current.1, (commandsOf s current.1).drop (current.2 + 1))⟩

variable (s : InitState)

theorem view_actionAddQueueTail (a : Nat) : view (actionAddQueueTail s a) = ((view s).add a).1 := by
  unfold actionAddQueueTail Queue.add
  by_cases member : a ∈ s.actionQueue
  · have waits : a ∈ (view s).waiting := member
    rw [if_pos member, if_pos waits]
  · have fresh : a ∉ (view s).waiting := member
    rw [if_neg member, if_neg fresh]
    rfl

theorem view_foldl_actionAddQueueTail (places : List Nat) (s : InitState) :
    view (places.foldl actionAddQueueTail s) = ((view s).addAll places).1 := by
  induction places generalizing s with
  | nil => rfl
  | cons a places ih =>
    rw [List.foldl_cons, ih, view_actionAddQueueTail]
    rfl

theorem view_queueActions (test : Action → Bool) :
    view (queueActions s test) = ((view s).addAll
      ((List.range s.actions.length).filter fun a => s.actions[a]?.any test)).1 := by
  rw [queueActions_eq, view_foldl_actionAddQueueTail]

theorem commandsOf_getElem (a k : Nat) :
    (s.actions[a]?.bind fun act => act.commands[k]?) = (commandsOf s a)[k]? := by
  unfold commandsOf
  cases s.actions[a]? <;> rfl

theorem view_running {s : InitState} {a k : Nat} (current : s.current = some (a, k)) :
    (view s).running = some (a, (commandsOf s a).drop (k + 1)) := by
  rw [view, current]
  rfl

theorem finished_iff : finished s = true ↔ ∀ a c rest, (view s).running ≠ some (a, c :: rest) := by
  rcases current : s.current with _ | ⟨a, k⟩
  · have stopped : finished s = true := by rw [finished, current]
    have none_ : (view s).running = none := by rw [view, current]; rfl
    rw [none_]
    exact ⟨fun _ _ _ _ => nofun, fun _ => stopped⟩
  · have short : finished s = true ↔ (commandsOf s a).drop (k + 1) = [] := by
      rw [finished, current, List.drop_eq_nil_iff, commandsOf]
      dsimp only
      cases s.actions[a]? with
      | none => exact ⟨fun _ => Nat.zero_le _, fun _ => rfl⟩
      | some act => exact decide_eq_true_iff
    rw [short, view_running current]
    constructor
    · intro none_ a' c rest busy
      rw [none_] at busy
      cases busy
    · intro idle
      cases left : (commandsOf s a).drop (k + 1) with
      | nil => rfl
      | cons c rest => exact absurd (by rw [left]) (idle a c rest)

theorem view_nextCommand :
    ((view s).execute (commandsOf s)).1 = view (nextCommand s).2 ∧
      (executed ((view s).execute (commandsOf s)).2).map Prod.snd = (nextCommand s).1.toList := by
  unfold nextCommand
  by_cases done : finished s = true
  · rw [if_pos done, Queue.execute_finished _ ((finished_iff s).mp done)]
    have same : (view s).waiting = s.actionQueue := rfl
    rw [same]
    cases queue : s.actionQueue with
    | nil => exact ⟨rfl, rfl⟩
    | cons a waiting =>
      dsimp only
      rw [commandsOf_getElem, Queue.begin_]
      have started : view { s with actionQueue := waiting, current := some (a, 0) } =
          ⟨waiting, some (a, (commandsOf s a).drop 1)⟩ := rfl
      rw [started]
      cases commandsOf s a with
      | nil | cons => exact ⟨rfl, rfl⟩
  · have busy := mt (finished_iff s).mpr done
    push Not at busy
    obtain ⟨a, c, rest, busy⟩ := busy
    rw [if_neg done, Queue.execute_running _ busy]
    rcases current : s.current with _ | ⟨a', k⟩
    · rw [view, current] at busy
      cases busy
    · rw [view_running current] at busy
      obtain ⟨rfl, left⟩ := Prod.mk.inj (Option.some.inj busy)
      dsimp only
      rw [commandsOf_getElem]
      have here : (commandsOf s a')[k + 1]? = some c := by
        rw [← List.head?_drop, left]
        rfl
      have later : (commandsOf s a').drop (k + 2) = rest := by
        rw [← List.tail_drop, left]
        rfl
      rw [here]
      refine ⟨?_, rfl⟩
      rw [← later]
      rfl

end View

end AndroidBoot.Init.ActionQueue
