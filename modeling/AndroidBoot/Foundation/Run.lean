/- source: none
   digest: Labelled runs of a partial step function and their invariant rules. -/

import Mathlib.Algebra.Order.Ring.Int
import Mathlib.Logic.Basic

set_option autoImplicit false

namespace AndroidBoot.Foundation.Run

universe u v

variable {S : Type u} {L : Type v}

/-- The states reached from `start` by steps that each satisfy `allowed` in the
state they are taken from. -/
inductive Reach (step : S → L → Option S) (allowed : S → L → Prop) (start : S) : S → Prop
  | start : Reach step allowed start start
  | next {s t : S} {l : L} :
      Reach step allowed start s → allowed s l → step s l = some t →
        Reach step allowed start t

def guardedReplay (step : S → L → Option S) (allowed : S → L → Bool) : S → List L → Option S
  | s, [] => some s
  | s, l :: ls =>
    if allowed s l then (step s l).bind fun t => guardedReplay step allowed t ls else none

variable {step : S → L → Option S}

theorem Reach.trans {allowed : S → L → Prop} {a b c : S}
    (first : Reach step allowed a b) (second : Reach step allowed b c) :
    Reach step allowed a c := by
  induction second with
  | start => exact first
  | next _ ok taken ih => exact .next ih ok taken

theorem Reach.mono {allowed weaker : S → L → Prop} {a b : S}
    (imp : ∀ s l, allowed s l → weaker s l) (reach : Reach step allowed a b) :
    Reach step weaker a b := by
  induction reach with
  | start => exact .start
  | next _ ok taken ih => exact .next ih (imp _ _ ok) taken

theorem reach_of_guardedReplay {allowed : S → L → Bool}
    {labels : List L} {s t : S} (run : guardedReplay step allowed s labels = some t) :
    Reach step (fun s l => allowed s l = true) s t := by
  induction labels generalizing s with
  | nil =>
    cases run
    exact .start
  | cons l ls ih =>
    simp only [guardedReplay] at run
    split at run
    · rename_i ok
      obtain ⟨middle, taken, rest⟩ := Option.bind_eq_some_iff.mp run
      have first : Reach step (fun s l => allowed s l = true) s middle := .next .start ok taken
      exact first.trans (ih rest)
    · simp at run

section Replay

variable {allowed : S → L → Bool} {s : S} {q : S → Prop} (labels : List L) (p : S → Prop)
variable [DecidablePred p]

theorem exists_reach_of_replay
    (run : (guardedReplay step allowed s labels).any (fun t => p t) = true)
    (holds : ∀ t, Reach step (fun s l => allowed s l = true) s t → p t → q t) :
    ∃ t, Reach step (fun s l => allowed s l = true) s t ∧ q t := by
  obtain ⟨t, ended, passed⟩ := (Option.any_eq_true _ _).mp run
  have reach := reach_of_guardedReplay ended
  exact ⟨t, reach, holds t reach (of_decide_eq_true passed)⟩

theorem exists_run_of_replay
    (run : (guardedReplay step (fun _ _ => true) s labels).any (fun t => p t) = true)
    (holds : ∀ t, Reach step (fun _ _ => True) s t → p t → q t) :
    ∃ t, Reach step (fun _ _ => True) s t ∧ q t := by
  obtain ⟨t, reach, passed⟩ := exists_reach_of_replay labels p run fun _ _ => id
  have free : Reach step (fun _ _ => True) s t := reach.mono fun _ _ _ => trivial
  exact ⟨t, free, holds t free passed⟩

end Replay

theorem Reach.invariant {allowed : S → L → Prop} {start : S}
    (inv : S → Prop) (base : inv start)
    (preserved : ∀ s l t, inv s → allowed s l → step s l = some t → inv t) {s : S}
    (reach : Reach step allowed start s) : inv s := by
  induction reach with
  | start => exact base
  | next _ ok taken ih => exact preserved _ _ _ ih ok taken

end AndroidBoot.Foundation.Run
