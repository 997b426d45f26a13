/- source: none
   digest: Working off a list from which entries are struck while others are worked on. -/

import Mathlib.Algebra.Order.Ring.Int
import Mathlib.Data.List.Basic

set_option autoImplicit false

namespace AndroidBoot.Foundation.Worklist

universe u

section Struck

variable {A : Type u}

def StruckBefore (a : A) : List (A × List A) → Prop
  | [] => False
  | (x, struck) :: log => x ≠ a ∧ (a ∈ struck ∨ StruckBefore a log)

theorem struckBefore_snoc {a x : A} {struck : List A} {log : List (A × List A)} :
    StruckBefore a (log ++ [(x, struck)]) ↔
      StruckBefore a log ∨ (a ∉ log.map Prod.fst ∧ x ≠ a ∧ a ∈ struck) := by
  induction log with
  | nil => simp [StruckBefore]
  | cons entry log ih =>
    obtain ⟨y, other⟩ := entry
    rw [List.cons_append, StruckBefore, StruckBefore, ih, List.map_cons, List.mem_cons, not_or]
    constructor
    · rintro ⟨differs, here | later | last⟩
      · exact Or.inl ⟨differs, Or.inl here⟩
      · exact Or.inl ⟨differs, Or.inr later⟩
      · exact Or.inr ⟨⟨fun same => differs same.symm, last.1⟩, last.2⟩
    · rintro (⟨differs, here | later⟩ | ⟨⟨differs, absent⟩, last⟩)
      · exact ⟨differs, Or.inl here⟩
      · exact ⟨differs, Or.inr (Or.inl later)⟩
      · exact ⟨fun same => differs same.symm, Or.inr (Or.inr ⟨absent, last⟩)⟩

end Struck

variable {A : Type u} [DecidableEq A]

/-- From the list `due` the entries of the log have been taken, each with what was struck while
it was worked on, and `rest` is left. -/
inductive Worked (due : List A) : List (A × List A) → List A → Prop
  | start : Worked due [] due
  | take {log : List (A × List A)} {a : A} {rest : List A} :
      Worked due log (a :: rest) → Worked due (log ++ [(a, [])]) rest
  | strike {log : List (A × List A)} {a : A} {struck rest : List A} (b : A) :
      Worked due (log ++ [(a, struck)]) rest →
        Worked due (log ++ [(a, struck ++ [b])]) (rest.erase b)

variable {due rest : List A} {log : List (A × List A)}

theorem Worked.sublist (worked : Worked due log rest) : (log.map Prod.fst ++ rest).Sublist due := by
  induction worked with
  | start => exact List.Sublist.refl _
  | take _ ih => simpa using ih
  | strike b _ ih =>
    rw [List.map_append] at ih ⊢
    exact ((List.erase_sublist).append_left _).trans ih

theorem Worked.mem_iff (nodup : due.Nodup) (worked : Worked due log rest) {a : A}
    (member : a ∈ due) : a ∈ log.map Prod.fst ++ rest ↔ ¬ StruckBefore a log := by
  induction worked with
  | start => simpa [StruckBefore] using member
  | take _ ih =>
    rw [struckBefore_snoc, not_or]
    simpa using ih
  | @strike log x struck rest b before ih =>
    have distinct := nodup.sublist before.sublist
    rw [struckBefore_snoc, not_or] at ih ⊢
    simp only [List.map_append, List.map_cons, List.map_nil] at ih ⊢
    rw [List.mem_append] at ih ⊢
    have left : a ∈ rest.erase b ↔ a ≠ b ∧ a ∈ rest :=
      (List.nodup_append.mp distinct).2.1.mem_erase_iff
    have grown : a ∈ struck ++ [b] ↔ a ∈ struck ∨ a = b := by simp
    by_cases taken : a ∈ log.map Prod.fst ++ [x]
    · have turned : ¬ (a ∉ log.map Prod.fst ∧ x ≠ a) := by
        rintro ⟨absent, differs⟩
        rcases List.mem_append.mp taken with earlier | now
        · exact absent earlier
        · exact differs (List.mem_singleton.mp now).symm
      have either (more : List A) (both : a ∉ log.map Prod.fst ∧ x ≠ a ∧ a ∈ more) : False :=
        turned ⟨both.1, both.2.1⟩
      exact iff_of_true (Or.inl taken) ⟨(ih.mp (Or.inl taken)).1, either _⟩
    · have absent : a ∉ log.map Prod.fst := fun earlier => taken (List.mem_append_left _ earlier)
      have differs : x ≠ a := fun same =>
        taken (List.mem_append_right _ (List.mem_singleton.mpr same.symm))
      rw [grown]
      by_cases same : a = b
      · refine iff_of_false ?_ fun kept => kept.2 ⟨absent, differs, Or.inr same⟩
        rintro (now | later)
        · exact taken now
        · exact (left.mp later).1 same
      · constructor
        · rintro (now | later)
          · exact absurd now taken
          · obtain ⟨earlier, never⟩ := ih.mp (Or.inr (left.mp later).2)
            refine ⟨earlier, fun struckNow => ?_⟩
            rcases struckNow.2.2 with before | last
            · exact never ⟨absent, differs, before⟩
            · exact same last
        · rintro ⟨earlier, never⟩
          refine Or.inr (left.mpr ⟨same, ?_⟩)
          have kept := ih.mpr ⟨earlier, fun struckThen =>
            never ⟨absent, differs, Or.inl struckThen.2.2⟩⟩
          rcases kept with now | later
          · exact absurd now taken
          · exact later

end AndroidBoot.Foundation.Worklist
