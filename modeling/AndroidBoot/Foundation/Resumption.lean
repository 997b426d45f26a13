/- source: none
   digest: Functions that either return or are left at a switch point with pending frames. -/

import Mathlib.Logic.Basic

/-!
A function of cooperatively switched code either returns a value, or asks to be
switched away from and leaves behind the frames that are to be resumed later,
innermost first, or stops everything. `Sat` states what holds in the first two
cases; its rules follow the composition of calls.
-/

set_option autoImplicit false

namespace AndroidBoot.Foundation.Resumption

universe u v

variable {K : Type u} {F : Type v}

inductive Outcome (K : Type u) (F : Type v) where
  | done (k : K) (r : Int)
  | switch (k : K) (frames : List F)
  | halt

namespace Outcome

/-- Call a function and go on with `rest` when it returns. If it is left at a
switch point, the frame `f` stands for `rest`. -/
def andThen (o : Outcome K F) (f : F) (rest : K → Int → Outcome K F) : Outcome K F :=
  match o with
  | done k r => rest k r
  | switch k frames => switch k (frames ++ [f])
  | halt => halt

def absorb (o : Outcome K F) (f : F) (rest : K → Int → Outcome K F) : Outcome K F :=
  match o with
  | done k r => rest k r
  | switch k _ => switch k [f]
  | halt => halt

/-- Postconditions of a return and of a switch. Stopping satisfies both. -/
def Sat (o : Outcome K F) (returns : K → Int → Prop) (switches : K → List F → Prop) : Prop :=
  match o with
  | done k r => returns k r
  | switch k frames => switches k frames
  | halt => True

@[simp] theorem sat_done (k : K) (r : Int) (returns : K → Int → Prop)
    (switches : K → List F → Prop) :
    (done k r : Outcome K F).Sat returns switches ↔ returns k r := Iff.rfl

@[simp] theorem andThen_done (k : K) (r : Int) (f : F) (rest : K → Int → Outcome K F) :
    (done k r).andThen f rest = rest k r := rfl

variable {switches switches' : K → List F → Prop} {returns returns' : K → Int → Prop}
  {o : Outcome K F}

theorem Sat.mono (sat : o.Sat returns switches)
    (onReturn : ∀ k r, returns k r → returns' k r)
    (onSwitch : ∀ k frames, switches k frames → switches' k frames) :
    o.Sat returns' switches' := by
  cases o with
  | done k r => exact onReturn k r sat
  | switch k frames => exact onSwitch k frames sat
  | halt => trivial

theorem Sat.and (first : o.Sat returns switches)
    (second : o.Sat returns' switches') :
    o.Sat (fun k r => returns k r ∧ returns' k r)
      (fun k frames => switches k frames ∧ switches' k frames) := by
  cases o with
  | done | switch => exact ⟨first, second⟩
  | halt => trivial

variable {rest : K → Int → Outcome K F}

theorem Sat.andThen {f : F}
    (call : o.Sat returns switches) (goesOn : ∀ k r, returns k r → (rest k r).Sat returns' switches')
    (waits : ∀ k frames, switches k frames → switches' k (frames ++ [f])) :
    (o.andThen f rest).Sat returns' switches' := by
  cases o with
  | done k r => exact goesOn k r call
  | switch k frames => exact waits k frames call
  | halt => trivial

theorem Sat.absorb {f : F}
    (call : o.Sat returns switches) (goesOn : ∀ k r, returns k r → (rest k r).Sat returns' switches')
    (waits : ∀ k frames, switches k frames → switches' k [f]) :
    (o.absorb f rest).Sat returns' switches' := by
  cases o with
  | done k r => exact goesOn k r call
  | switch k frames => exact waits k frames call
  | halt => trivial

end Outcome

end AndroidBoot.Foundation.Resumption
