/- source: none
   digest: One offer at a time, its answer, and a signal that is taken back as it is received. -/

import Mathlib.Data.List.Basic
import Mathlib.Data.List.Count

/-!
A requester puts something on offer, goes to wait, and goes on when it is signalled. The other
side answers what is on offer: it takes the offer away and signals. If the requester waits already
it is released at once; if not, the signal stays until it is taken. The log has every offer, every
answer and every release, with the answer that the release is due to.
-/

set_option autoImplicit false

namespace AndroidBoot.Foundation.Handoff

universe u

variable {A : Type u}

inductive Note (A : Type u) where
  | offered (id : Nat) (a : A)
  | completed (id : Nat)
  | released (id due : Nat)
  deriving DecidableEq

inductive Phase (A : Type u) where
  | rest
  | onOffer (a : A)
  | parked (a : A)
  | answered
  deriving DecidableEq

structure Exchange (A : Type u) where
  phase : Phase A
  offers : Nat
  log : List (Note A)

def initial : Exchange A := ⟨.rest, 0, []⟩

def Phase.offer : Phase A → Option A
  | .onOffer a => some a
  | .parked a => some a
  | _ => none

theorem Phase.offer_cases {phase : Phase A} {a : A} (offer : phase.offer = some a) :
    phase = .onOffer a ∨ phase = .parked a := by
  cases phase with
  | rest | answered => cases offer
  | onOffer b => exact Or.inl (congrArg Phase.onOffer (Option.some.inj offer))
  | parked b => exact Or.inr (congrArg Phase.parked (Option.some.inj offer))

namespace Exchange

def last (h : Exchange A) : Nat := h.offers - 1

def put (h : Exchange A) (a : A) : Exchange A :=
  ⟨.onOffer a, h.offers + 1, h.log ++ [.offered h.offers a]⟩

def park (h : Exchange A) (a : A) : Exchange A := { h with phase := .parked a }

def take (h : Exchange A) : Exchange A :=
  { h with phase := .rest, log := h.log ++ [.released h.last h.last] }

/-- The answer to `a`; nothing happens if `a` is not on offer. -/
def answer [DecidableEq A] (h : Exchange A) (a : A) : Exchange A :=
  if h.phase = .onOffer a then { h with phase := .answered, log := h.log ++ [.completed h.last] }
  else if h.phase = .parked a then
    { h with phase := .rest, log := h.log ++ [.completed h.last, .released h.last h.last] }
  else h

end Exchange

section Discipline

/-- Offer, answer and release of the offers `0` to `n - 1`, in this order. -/
inductive Rounds : Nat → List (Note A) → Prop where
  | none : Rounds 0 []
  | more {n : Nat} {log : List (Note A)} (a : A) :
      Rounds n log → Rounds (n + 1) (log ++ [.offered n a, .completed n, .released n n])

/-- Full rounds, and then as much of one as the phase says. -/
def Sound (h : Exchange A) : Prop :=
  match h.phase with
  | .rest => Rounds h.offers h.log
  | .onOffer a => ∃ n log, h.offers = n + 1 ∧ Rounds n log ∧ h.log = log ++ [.offered n a]
  | .parked a => ∃ n log, h.offers = n + 1 ∧ Rounds n log ∧ h.log = log ++ [.offered n a]
  | .answered => ∃ n log a, h.offers = n + 1 ∧ Rounds n log ∧
      h.log = log ++ [.offered n a, .completed n]

variable {h : Exchange A}

theorem sound_initial : Sound (initial : Exchange A) := Rounds.none

section

variable (sound : Sound h)
include sound

theorem Sound.put (rest : h.phase = .rest) (a : A) : Sound (h.put a) := by
  simp only [Sound, rest] at sound
  exact ⟨h.offers, h.log, rfl, sound, rfl⟩

theorem Sound.park {a : A} (open_ : h.phase = .onOffer a) : Sound (h.park a) := by
  simp only [Sound, open_] at sound
  exact sound

theorem Sound.take (answered : h.phase = .answered) : Sound h.take := by
  simp only [Sound, answered] at sound
  obtain ⟨n, log, a, offers, rounds, logged⟩ := sound
  have last : h.last = n := by simp [Exchange.last, offers]
  have whole : h.take.log = log ++ [.offered n a, .completed n, .released n n] := by
    simp [Exchange.take, logged, last]
  change Rounds h.offers h.take.log
  rw [offers, whole]
  exact rounds.more a

theorem Sound.answer [DecidableEq A] (a : A) : Sound (h.answer a) := by
  unfold Exchange.answer
  split
  · next open_ =>
    simp only [Sound, open_] at sound
    obtain ⟨n, log, offers, rounds, logged⟩ := sound
    refine ⟨n, log, a, offers, rounds, ?_⟩
    simp [logged, Exchange.last, offers]
  · split
    · next parked =>
      simp only [Sound, parked] at sound
      obtain ⟨n, log, offers, rounds, logged⟩ := sound
      have last : h.last = n := by simp [Exchange.last, offers]
      have whole : h.log ++ [.completed h.last, .released h.last h.last] =
          log ++ [.offered n a, .completed n, .released n n] := by
        simp [logged, last]
      rw [offers, whole]
      exact rounds.more a
    · exact sound

end

variable {log : List (Note A)}

theorem Rounds.count [DecidableEq A] {n : Nat} (rounds : Rounds n log)
    (id : Nat) : log.count (.completed id) = if id < n then 1 else 0 := by
  induction rounds with
  | none => simp
  | @more n log a _ ih =>
    rw [List.count_append, ih]
    rcases Nat.lt_trichotomy id n with less | same | more
    · simp [less, Nat.lt_succ_of_lt less, Nat.ne_of_gt less]
    · simp [same]
    · have past : ¬ id < n + 1 := by omega
      simp [Nat.not_lt_of_gt more, past, Nat.ne_of_lt more]

/-- The last two notes in front of a release are the offer and the answer it belongs to. -/
def Due (log : List (Note A)) : Prop :=
  ∀ before id due after, log = before ++ .released id due :: after →
    due = id ∧ ∃ earlier a, before = earlier ++ [.offered id a, .completed id]

theorem Due.snoc {note : Note A} (due : Due log)
    (last : ∀ id cause, note = .released id cause →
      cause = id ∧ ∃ earlier a, log = earlier ++ [.offered id a, .completed id]) :
    Due (log ++ [note]) := by
  intro before id cause after split_
  rcases List.eq_nil_or_concat after with rfl | ⟨rest, final, rfl⟩
  · obtain ⟨same, note_⟩ := List.append_inj' split_ rfl
    obtain ⟨cause_, earlier, a, ends⟩ := last id cause (List.cons.inj note_).1
    exact ⟨cause_, earlier, a, same ▸ ends⟩
  · have regroup : log ++ [note] = (before ++ .released id cause :: rest) ++ [final] := by
      simpa using split_
    exact due before id cause rest (List.append_inj' regroup rfl).1

theorem Due.offered (due : Due log) (id : Nat) (a : A) : Due (log ++ [.offered id a]) :=
  due.snoc fun _ _ impossible => nomatch impossible

theorem Due.completed {id : Nat} {a : A}
    (due : Due (log ++ [.offered id a])) : Due (log ++ [.offered id a, .completed id]) := by
  have longer : Due ((log ++ [.offered id a]) ++ [.completed id]) :=
    due.snoc fun _ _ impossible => nomatch impossible
  simpa using longer

theorem Rounds.due {n : Nat} (rounds : Rounds n log) : Due log := by
  induction rounds with
  | none =>
    intro before id due after split_
    simp at split_
  | @more n log a _ ih =>
    have longer : Due ((log ++ [.offered n a, .completed n]) ++ [.released n n]) := by
      refine (ih.offered n a).completed.snoc fun id cause same => ?_
      obtain ⟨rfl, rfl⟩ := Note.released.inj same
      exact ⟨rfl, log, a, rfl⟩
    simpa using longer

theorem Sound.due (sound : Sound h) : Due h.log := by
  unfold Sound at sound
  split at sound
  · exact sound.due
  · obtain ⟨n, log, -, rounds, logged⟩ := sound
    exact logged ▸ rounds.due.offered n _
  · obtain ⟨n, log, -, rounds, logged⟩ := sound
    exact logged ▸ rounds.due.offered n _
  · obtain ⟨n, log, a, -, rounds, logged⟩ := sound
    exact logged ▸ (rounds.due.offered n a).completed

theorem Sound.count_offer [DecidableEq A] {a : A} (sound : Sound h)
    (offer : h.phase.offer = some a) : h.log.count (.completed h.last) = 0 := by
  have open_ : ∃ n log, h.offers = n + 1 ∧ Rounds n log ∧ h.log = log ++ [.offered n a] := by
    unfold Sound at sound
    rcases Phase.offer_cases offer with phase | phase
    · simpa [phase] using sound
    · simpa [phase] using sound
  obtain ⟨n, log, offers, rounds, logged⟩ := open_
  simp [logged, List.count_append, rounds.count, Exchange.last, offers]

theorem Sound.count_le [DecidableEq A] (sound : Sound h) (id : Nat) :
    h.log.count (.completed id) ≤ 1 := by
  unfold Sound at sound
  split at sound
  · rw [sound.count]
    split <;> omega
  · obtain ⟨n, log, -, rounds, logged⟩ := sound
    rw [logged, List.count_append, rounds.count]
    split <;> simp
  · obtain ⟨n, log, -, rounds, logged⟩ := sound
    rw [logged, List.count_append, rounds.count]
    split <;> simp
  · obtain ⟨n, log, a, -, rounds, logged⟩ := sound
    rw [logged, List.count_append, rounds.count]
    split
    · next less => simp [Nat.ne_of_gt less]
    · by_cases same : n = id <;> simp [same]

end Discipline

section Answers

variable [DecidableEq A] {h : Exchange A} {a : A}

theorem answer_of_ne (other : h.phase.offer ≠ some a) : h.answer a = h := by
  unfold Exchange.answer
  rw [if_neg, if_neg]
  · intro parked
    simp [parked, Phase.offer] at other
  · intro open_
    simp [open_, Phase.offer] at other

theorem offer_answer (offer : h.phase.offer = some a) : (h.answer a).phase.offer = none := by
  rcases Phase.offer_cases offer with phase | phase
  · simp [Exchange.answer, phase, Phase.offer]
  · simp [Exchange.answer, phase, Phase.offer]

theorem foldl_answer (as : List A) (h : Exchange A) :
    as.foldl Exchange.answer h =
      match h.phase.offer with
      | none => h
      | some a => if a ∈ as then h.answer a else h := by
  induction as generalizing h with
  | nil => cases h.phase.offer <;> simp
  | cons b as ih =>
    rw [List.foldl_cons, ih]
    cases offer : h.phase.offer with
    | none =>
      have same : h.answer b = h := answer_of_ne (by simp [offer])
      simp [same, offer]
    | some a =>
      obtain rfl | same := eq_or_ne a b
      · simp [offer_answer offer]
      · have other : h.answer b = h := answer_of_ne (by simp [offer, same])
        simp [other, offer, same]

end Answers

end AndroidBoot.Foundation.Handoff
