/- source: none
   digest: Recursion with fuel over a graph: when it ends, and what a cycle has to do with it. -/

import Mathlib.Data.Finite.Prod
import Mathlib.Data.Fintype.Card
import Mathlib.Logic.Relation

/-!
A recursion that visits the successors of a node, one after the other, ends if and only if the
node is accessible. In a finite graph that is to say that no cycle can be reached from it.
-/

set_option autoImplicit false

namespace AndroidBoot.Foundation.Descent

open Relation

universe u v w

section Cycles

variable {V : Type u} {R : V → V → Prop} {a : V}

/-- No node that can be reached lies on a cycle. -/
def NoCycleFrom (R : V → V → Prop) (a : V) : Prop :=
  ∀ b, ReflTransGen R a b → ¬ TransGen R b b

/-- Below `a` the edges lead down only. -/
abbrev Descends (R : V → V → Prop) (a : V) : Prop := Acc (fun b a => R a b) a

theorem noCycleFrom_of_descends (descends : Descends R a) : NoCycleFrom R a := by
  induction descends with
  | intro a _ ih =>
    intro b path cycle
    rcases ReflTransGen.cases_head path with rfl | ⟨c, edge, path⟩
    · obtain ⟨c, edge, back⟩ := TransGen.head'_iff.mp cycle
      exact ih c edge c .refl (TransGen.tail'_iff.mpr ⟨a, back, edge⟩)
    · exact ih c edge b path cycle

theorem descends_of_noCycleFrom [Finite V] (clear : NoCycleFrom R a) : Descends R a := by
  let below (x y : { b // ReflTransGen R a b }) : Prop := TransGen R y.1 x.1
  have transitive : IsTrans _ below := ⟨fun _ _ _ first second => second.trans first⟩
  have irreflexive : Std.Irrefl below := ⟨fun x => clear x.1 x.2⟩
  have wellFounded : WellFounded below := Finite.wellFounded_of_trans_of_irrefl below
  suffices all : ∀ x : { b // ReflTransGen R a b }, Descends R x.1 from all ⟨a, .refl⟩
  intro x
  induction x using wellFounded.induction with
  | _ x ih => exact .intro x.1 fun c edge => ih ⟨c, x.2.tail edge⟩ (.single edge)

theorem descends_iff [Finite V] : Descends R a ↔ NoCycleFrom R a :=
  ⟨noCycleFrom_of_descends, descends_of_noCycleFrom⟩

end Cycles

section Fuel

variable {S : Type u} {A : Type v} {f : Nat → S → A → Option S}

def Steady (f : Nat → S → A → Option S) : Prop :=
  ∀ ⦃n m : Nat⦄ ⦃s t : S⦄ ⦃a : A⦄, f n s a = some t → n ≤ m → f m s a = some t

def each (g : S → A → Option S) : S → List A → Option S
  | s, [] => some s
  | s, a :: rest => (g s a).bind fun t => each g t rest

variable {s t : S}

theorem each_cons {g : S → A → Option S} {a : A} {rest : List A} :
    each g s (a :: rest) = some t ↔ ∃ s', g s a = some s' ∧ each g s' rest = some t :=
  Option.bind_eq_some_iff

variable {items : List A}

theorem each_mono {g h : S → A → Option S} (all : ∀ s t a, g s a = some t → h s a = some t)
    (done : each g s items = some t) : each h s items = some t := by
  induction items generalizing s with
  | nil => exact done
  | cons a rest ih =>
    obtain ⟨s', first, others⟩ := each_cons.mp done
    exact each_cons.mpr ⟨s', all s s' a first, ih others⟩

theorem Steady.each (steady : Steady f) {n m : Nat}
    (done : Descent.each (f n) s items = some t) (more : n ≤ m) :
    Descent.each (f m) s items = some t :=
  each_mono (fun _ _ _ one => steady one more) done

theorem Steady.exists_each (steady : Steady f)
    (one : ∀ a ∈ items, ∀ s, ∃ n t, f n s a = some t) (s : S) :
    ∃ n t, Descent.each (f n) s items = some t := by
  induction items generalizing s with
  | nil => exact ⟨0, s, rfl⟩
  | cons a rest ih =>
    obtain ⟨n, s', first⟩ := one a List.mem_cons_self s
    obtain ⟨m, t, others⟩ := ih (List.forall_mem_cons.mp one).2 s'
    exact ⟨max n m, t, each_cons.mpr
      ⟨s', steady first (Nat.le_max_left n m), steady.each others (Nat.le_max_right n m)⟩⟩

theorem exists_of_each {g : S → A → Option S}
    (done : each g s items = some t) : ∀ a ∈ items, ∃ s' t', g s' a = some t' := by
  induction items generalizing s with
  | nil => exact fun _ member => by cases member
  | cons a rest ih =>
    obtain ⟨s', first, others⟩ := each_cons.mp done
    exact List.forall_mem_cons.mpr ⟨⟨s, s', first⟩, ih others⟩

end Fuel

end AndroidBoot.Foundation.Descent
