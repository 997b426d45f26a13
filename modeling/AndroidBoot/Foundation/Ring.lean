/- source: none
   digest: Circular doubly linked lists: what their operations promise, and pointers that keep it. -/

import Mathlib.Data.List.Nodup
import Mathlib.Logic.Function.Basic

/-!
A list is a ring of nodes through its head. `Lists` has the operations on a heap, `Lawful` what a
caller may rely on: an operation changes one ring and leaves the nodes of all others alone.
-/

set_option autoImplicit false

namespace AndroidBoot.Foundation.Ring

open Function

universe u v

variable {N : Type u} {H : Type v}

section Paths

variable {R R' : N → N → Prop}

/-- From one node through a list of nodes to another. -/
def Path (R : N → N → Prop) : N → List N → N → Prop
  | a, [], b => R a b
  | a, c :: rest, b => R a c ∧ Path R c rest b

theorem path_append (a b c : N) (before after : List N) :
    Path R a (before ++ b :: after) c ↔ Path R a before b ∧ Path R b after c := by
  induction before generalizing a with
  | nil => exact Iff.rfl
  | cons d before ih => exact (and_congr_right fun _ => ih d).trans and_assoc.symm

theorem Path.imp {a b : N} {nodes : List N} (path : Path R a nodes b)
    (each : ∀ x ∈ a :: nodes, ∀ y ∈ nodes ++ [b], R x y → R' x y) : Path R' a nodes b := by
  induction nodes generalizing a with
  | nil => exact each a List.mem_cons_self b (List.mem_singleton_self b) path
  | cons c nodes ih =>
    obtain ⟨here, path⟩ := path
    refine ⟨each a List.mem_cons_self c List.mem_cons_self here, ih path ?_⟩
    intro x inside y target
    exact each x (List.mem_cons_of_mem a inside) y (List.mem_cons_of_mem c target)

theorem Path.ends {a b : N} {nodes : List N} (path : Path R a nodes b) :
    (∀ x ∈ a :: nodes, ∃ y ∈ nodes ++ [b], R x y) ∧ ∀ y ∈ nodes ++ [b], ∃ x ∈ a :: nodes, R x y := by
  induction nodes generalizing a with
  | nil =>
    constructor
    · intro x inside
      exact ⟨b, List.mem_singleton_self b, List.mem_singleton.mp inside ▸ path⟩
    · intro y inside
      exact ⟨a, List.mem_singleton_self a, List.mem_singleton.mp inside ▸ path⟩
  | cons c nodes ih =>
    obtain ⟨here, path⟩ := path
    obtain ⟨sources, targets⟩ := ih path
    constructor
    · intro x inside
      rcases List.mem_cons.mp inside with rfl | inside
      · exact ⟨c, List.mem_cons_self, here⟩
      · obtain ⟨y, member, linked⟩ := sources x inside
        exact ⟨y, List.mem_cons_of_mem c member, linked⟩
    · intro y inside
      rcases List.mem_cons.mp inside with rfl | inside
      · exact ⟨a, List.mem_cons_self, here⟩
      · obtain ⟨x, member, linked⟩ := targets y inside
        exact ⟨x, List.mem_cons_of_mem a member, linked⟩

end Paths

/-- The operations of a library of lists. -/
structure Lists (H : Type v) (N : Type u) where
  next : H → N → N
  prev : H → N → N
  init : H → N → H
  /-- The head first, then the item. -/
  addTail : H → N → N → H
  remove : H → N → H

namespace Lists

variable (ops : Lists H N)

def Linked (h : H) (a b : N) : Prop := ops.next h a = b ∧ ops.prev h b = a

structure Holds (h : H) (head : N) (items : List N) : Prop where
  path : Path (ops.Linked h) head items head
  nodup : (head :: items).Nodup

def SameAt (h h' : H) (n : N) : Prop := ops.next h' n = ops.next h n ∧ ops.prev h' n = ops.prev h n

structure Lawful : Prop where
  init_holds : ∀ h n, ops.Holds (ops.init h n) n []
  init_frame : ∀ h n m, m ≠ n → ops.SameAt h (ops.init h n) m
  addTail_holds : ∀ h head items item, ops.Holds h head items → item ∉ head :: items →
    ops.Holds (ops.addTail h head item) head (items ++ [item])
  addTail_frame : ∀ h head items item, ops.Holds h head items → item ∉ head :: items →
    ∀ m, m ∉ head :: items → m ≠ item → ops.SameAt h (ops.addTail h head item) m
  remove_holds : ∀ h head before item after, ops.Holds h head (before ++ item :: after) →
    ops.Holds (ops.remove h item) head (before ++ after)
  remove_frame : ∀ h head before item after, ops.Holds h head (before ++ item :: after) →
    ∀ m, m ∉ head :: (before ++ item :: after) → ops.SameAt h (ops.remove h item) m

namespace Holds

variable {ops} {h h' : H} {head : N} {items : List N}

theorem first {a : N} {rest : List N} (holds : ops.Holds h head (a :: rest)) :
    ops.next h head = a := holds.path.1.1

theorem last {z : N} {front : List N} (holds : ops.Holds h head (front ++ [z])) :
    ops.prev h head = z := ((path_append head z head front []).mp holds.path).2.2

theorem following {a b : N} {before after : List N}
    (holds : ops.Holds h head (before ++ a :: b :: after)) : ops.next h a = b :=
  ((path_append head a head before (b :: after)).mp holds.path).2.1.1

theorem end_ {z : N} {front : List N} (holds : ops.Holds h head (front ++ [z])) :
    ops.next h z = head := ((path_append head z head front []).mp holds.path).2.1

section Holds

variable (holds : ops.Holds h head items)
include holds

theorem head_ne {a : N} (member : a ∈ items) : a ≠ head := by
  rintro rfl
  exact (List.nodup_cons.mp holds.nodup).1 member

theorem next_head_iff : ops.next h head = head ↔ items = [] := by
  cases items with
  | nil => exact ⟨fun _ => rfl, fun _ => holds.path.1⟩
  | cons a rest =>
    refine ⟨fun same => ?_, fun none_ => absurd none_ (List.cons_ne_nil a rest)⟩
    exact absurd (holds.first.symm.trans same) (holds.head_ne List.mem_cons_self)

theorem next_ne {a : N} (member : a ∈ items) : ops.next h a ≠ a := by
  obtain ⟨before, after, rfl⟩ := List.append_of_mem member
  cases after with
  | nil =>
    rw [holds.end_]
    exact (holds.head_ne member).symm
  | cons b after =>
    rw [holds.following]
    rintro rfl
    have twice := (List.nodup_cons.mp holds.nodup).2
    exact (List.nodup_cons.mp (List.nodup_append.mp twice).2.1).1 List.mem_cons_self

theorem links_mem {a : N} (member : a ∈ head :: items) :
    ops.next h a ∈ head :: items ∧ ops.prev h a ∈ head :: items := by
  have turned : ∀ x, x ∈ items ++ [head] ↔ x ∈ head :: items := fun x => by
    rw [List.mem_append, List.mem_singleton, List.mem_cons, or_comm]
  obtain ⟨sources, targets⟩ := holds.path.ends
  obtain ⟨y, ahead, linked⟩ := sources a member
  obtain ⟨x, behind, linked'⟩ := targets a ((turned a).mpr member)
  exact ⟨linked.1 ▸ (turned y).mp ahead, linked'.2 ▸ behind⟩

theorem prev_next {a : N} (member : a ∈ head :: items) : ops.prev h (ops.next h a) = a := by
  obtain ⟨y, -, linked⟩ := holds.path.ends.1 a member
  rw [linked.1]
  exact linked.2

end Holds

theorem visits {a b : N} {steps : List N} (path : Path (ops.Linked h) a items head)
    (walk : Path (fun x y => ops.next h x = y) a steps b) (away : head ∉ steps) :
    ∃ x ∈ a :: steps, x ∈ a :: items ∧ ops.next h x = b := by
  induction steps generalizing a items with
  | nil => exact ⟨a, List.mem_cons_self, List.mem_cons_self, walk⟩
  | cons c steps ih =>
    obtain ⟨here, walk⟩ := walk
    cases items with
    | nil => exact absurd (here.symm.trans path.1 ▸ List.mem_cons_self) away
    | cons d rest =>
      obtain rfl : c = d := here.symm.trans path.1.1
      obtain ⟨x, passed, member, last⟩ :=
        ih path.2 walk fun later => away (List.mem_cons_of_mem c later)
      exact ⟨x, List.mem_cons_of_mem a passed, List.mem_cons_of_mem a member, last⟩

theorem congr (holds : ops.Holds h head items)
    (same : ∀ n ∈ head :: items, ops.SameAt h h' n) : ops.Holds h' head items := by
  refine ⟨holds.path.imp fun x source y target linked => ?_, holds.nodup⟩
  have back : y ∈ head :: items := by
    rcases List.mem_append.mp target with inside | last
    · exact List.mem_cons_of_mem head inside
    · rw [List.mem_singleton.mp last]
      exact List.mem_cons_self
  exact ⟨(same x source).1.trans linked.1, (same y back).2.trans linked.2⟩

end Holds

end Lists

section Pointers

/-- A `next` and a `prev` for each node. -/
structure Pointers (N : Type u) where
  next : N → N
  prev : N → N

namespace Pointers

variable [DecidableEq N]

def listInit (h : Pointers N) (n : N) : Pointers N :=
  ⟨update h.next n n, update h.prev n n⟩

/-- The item gets its two links, then its neighbours get theirs. -/
def listAddTail (h : Pointers N) (head item : N) : Pointers N :=
  let h : Pointers N := { h with next := update h.next item head }
  let h : Pointers N := { h with prev := update h.prev item (h.prev head) }
  let h : Pointers N := { h with next := update h.next (h.prev head) item }
  { h with prev := update h.prev head item }

/-- The same behind the head. -/
def listAddHead (h : Pointers N) (head item : N) : Pointers N :=
  let h : Pointers N := { h with next := update h.next item (h.next head) }
  let h : Pointers N := { h with prev := update h.prev item head }
  let h : Pointers N := { h with prev := update h.prev (h.next head) item }
  { h with next := update h.next head item }

def listRemove (h : Pointers N) (item : N) : Pointers N :=
  let h : Pointers N := { h with prev := update h.prev (h.next item) (h.prev item) }
  { h with next := update h.next (h.prev item) (h.next item) }

def lists : Lists (Pointers N) N where
  next := Pointers.next
  prev := Pointers.prev
  init := listInit
  addTail := listAddTail
  remove := listRemove

def relink (h : Pointers N) (a b : N) : Pointers N :=
  ⟨update h.next a b, update h.prev b a⟩

variable {h : Pointers N} {a b c d head item : N} {nodes items : List N}

@[simp] theorem relink_next (h : Pointers N) (a b c : N) :
    lists.next (h.relink a b) c = if c = a then b else lists.next h c := update_apply _ _ _ _

@[simp] theorem relink_prev (h : Pointers N) (a b c : N) :
    lists.prev (h.relink a b) c = if c = b then a else lists.prev h c := update_apply _ _ _ _

theorem linked_relink (h : Pointers N) (a b : N) : lists.Linked (h.relink a b) a b := by
  simp [Lists.Linked]

theorem linked_relink_of_ne (linked : lists.Linked h c d) (source : c ≠ a) (target : d ≠ b) :
    lists.Linked (h.relink a b) c d := by
  simpa [Lists.Linked, source, target] using linked

theorem path_relink (path : Path (lists.Linked h) c nodes d) (source : a ∉ c :: nodes)
    (target : b ∉ nodes ++ [d]) : Path (lists.Linked (h.relink a b)) c nodes d :=
  path.imp fun _ from_ _ to_ linked => linked_relink_of_ne linked
    (fun same => source (same ▸ from_)) fun same => target (same ▸ to_)

theorem sameAt_relink (source : c ≠ a) (target : c ≠ b) : lists.SameAt h (h.relink a b) c := by
  simp [Lists.SameAt, source, target]

theorem listRemove_eq (h : Pointers N) (item : N) :
    h.listRemove item = h.relink (h.prev item) (h.next item) := by
  have same : update h.prev (h.next item) (h.prev item) item = h.prev item := by
    by_cases self : item = h.next item
    · rw [← self, update_self]
    · exact update_of_ne self _ _
  simp only [listRemove, relink, same]

theorem listAddTail_eq (h : Pointers N) {head item : N} (apart : item ≠ head)
    (unlinked : h.prev head ≠ item) :
    h.listAddTail head item = (h.relink (h.prev head) item).relink item head := by
  simp only [listAddTail, relink, update_of_ne apart.symm]
  rw [update_comm unlinked.symm]

theorem listAddHead_eq (h : Pointers N) {head item : N} (apart : item ≠ head) :
    h.listAddHead head item = (h.relink head item).relink item (h.next head) := by
  simp only [listAddHead, relink, update_of_ne apart.symm]
  rw [update_comm apart]

section Insert

variable (holds : lists.Holds h head items) (fresh : item ∉ head :: items)
include holds fresh

theorem addTail_holds : lists.Holds (h.listAddTail head item) head (items ++ [item]) := by
  obtain ⟨outside, once⟩ := List.nodup_cons.mp holds.nodup
  obtain ⟨apart, unlisted⟩ := not_or.mp (mt List.mem_cons.mpr fresh)
  have nodup : (head :: (items ++ [item])).Nodup := by
    rw [← List.cons_append, List.nodup_append]
    refine ⟨holds.nodup, List.nodup_singleton item, ?_⟩
    intro x inside y target same
    exact fresh (List.mem_singleton.mp target ▸ same ▸ inside)
  refine ⟨?_, nodup⟩
  rcases List.eq_nil_or_concat items with rfl | ⟨front, z, rfl⟩
  · have back : h.prev head = head := holds.path.2
    rw [listAddTail_eq h apart (by rw [back]; exact Ne.symm apart), back]
    exact ⟨linked_relink_of_ne (linked_relink h head item) (Ne.symm apart) apart,
      linked_relink _ item head⟩
  · rw [List.concat_eq_append] at *
    obtain ⟨path, last⟩ := (path_append head z head front []).mp holds.path
    have back : h.prev head = z := last.2
    have other : z ≠ item := by
      rintro rfl
      exact unlisted (by simp)
    rw [listAddTail_eq h apart (by rw [back]; exact other), back, List.append_assoc]
    have front_ : z ∉ head :: front := by
      intro member
      rcases List.mem_cons.mp member with same | member
      · exact outside (same ▸ by simp)
      · exact (List.nodup_append.mp once).2.2 z member z (List.mem_singleton_self z) rfl
    refine (path_append head z head front [item]).mpr ⟨?_, ?_, linked_relink _ item head⟩
    · refine path_relink (path_relink path front_ unlisted) ?_ outside
      intro member
      exact fresh (by rw [← List.cons_append]; exact List.mem_append_left _ member)
    · exact linked_relink_of_ne (linked_relink h z item) other apart

theorem addTail_frame {m : N} (outside : m ∉ head :: items) (other : m ≠ item) :
    lists.SameAt h (h.listAddTail head item) m := by
  have inside : h.prev head ∈ head :: items := (holds.links_mem List.mem_cons_self).2
  have apart : item ≠ head := fun same => fresh (same ▸ List.mem_cons_self)
  have ne_head : m ≠ head := fun same => outside (same ▸ List.mem_cons_self)
  rw [listAddTail_eq h apart fun same => fresh (same ▸ inside)]
  have first : lists.SameAt h (h.relink (h.prev head) item) m :=
    sameAt_relink (fun same => outside (same ▸ inside)) other
  have second : lists.SameAt (h.relink (h.prev head) item)
      ((h.relink (h.prev head) item).relink item head) m := sameAt_relink other ne_head
  exact ⟨second.1.trans first.1, second.2.trans first.2⟩

theorem addHead_holds : lists.Holds (h.listAddHead head item) head (item :: items) := by
  obtain ⟨outside, once⟩ := List.nodup_cons.mp holds.nodup
  obtain ⟨apart, unlisted⟩ := not_or.mp (mt List.mem_cons.mpr fresh)
  have nodup : (head :: item :: items).Nodup := by
    refine List.nodup_cons.mpr ⟨?_, List.nodup_cons.mpr ⟨unlisted, once⟩⟩
    intro member
    rcases List.mem_cons.mp member with same | member
    · exact apart same.symm
    · exact outside member
  refine ⟨?_, nodup⟩
  rw [listAddHead_eq h apart]
  cases items with
  | nil =>
    have ahead : h.next head = head := holds.path.1
    rw [ahead]
    exact ⟨linked_relink_of_ne (linked_relink h head item) (Ne.symm apart) apart,
      linked_relink _ item head⟩
  | cons a rest =>
    have ahead : h.next head = a := holds.first
    rw [ahead]
    refine ⟨linked_relink_of_ne (linked_relink h head item) (Ne.symm apart) ?_,
      linked_relink _ item a, path_relink (path_relink holds.path.2 outside ?_) unlisted ?_⟩
    all_goals grind

end Insert

/-- A node that is put on a second ring while it is on a first one leaves no first ring: the
way from its head leads to a node whose way back is the second ring. -/
theorem addHead_strays {head' : N} {before after others strays : List N}
    (holds : lists.Holds h head (before ++ item :: after)) (target : lists.Holds h head' others)
    (apart : ∀ n ∈ head :: (before ++ item :: after), n ∉ head' :: others) :
    ¬ lists.Holds (h.listAddHead head' item) head strays := by
  intro ring
  have inside : item ∈ head :: (before ++ item :: after) := by simp
  have differ : item ≠ head' := fun same => apart item inside (same ▸ List.mem_cons_self)
  have beyond : item ≠ h.next head' := fun same =>
    apart item inside (same ▸ (target.links_mem List.mem_cons_self).1)
  have early : ∀ x ∈ head :: before, x ∈ head :: (before ++ item :: after) := by
    intro x member
    exact List.mem_append_left _ member
  have walk : Path (fun x y => lists.next (h.listAddHead head' item) x = y) head before item := by
    refine ((path_append head item head before after).mp holds.path).1.imp ?_
    intro x member y _ linked
    have other : x ≠ head' := fun same => apart x (early x member) (same ▸ List.mem_cons_self)
    have earlier : x ≠ item := by
      rintro rfl
      have once := holds.nodup
      rw [← List.cons_append, List.nodup_append] at once
      exact once.2.2 x member x List.mem_cons_self rfl
    rw [listAddHead_eq h differ]
    simpa [other, earlier] using linked.1
  have away : head ∉ before := fun member =>
    (List.nodup_cons.mp holds.nodup).1 (List.mem_append_left _ member)
  obtain ⟨x, passed, member, last⟩ := Lists.Holds.visits ring.path walk away
  have back := ring.prev_next member
  rw [last, listAddHead_eq h differ] at back
  simp only [relink_prev, if_neg beyond, if_pos] at back
  exact apart x (early x passed) (back ▸ List.mem_cons_self)

theorem remove_holds {before after : List N} (holds : lists.Holds h head (before ++ item :: after)) :
    lists.Holds (h.listRemove item) head (before ++ after) := by
  obtain ⟨into, out⟩ := (path_append head item head before after).mp holds.path
  have nodup : (head :: (before ++ after)).Nodup :=
    holds.nodup.sublist (List.Sublist.cons_cons head
      ((List.Sublist.refl before).append (List.sublist_cons_self item after)))
  refine ⟨?_, nodup⟩
  rcases List.eq_nil_or_concat before with rfl | ⟨front, z, rfl⟩
  · have back : h.prev item = head := into.2
    rw [listRemove_eq, back]
    cases after with
    | nil =>
      have ahead : h.next item = head := out.1
      rw [ahead]
      exact linked_relink h head head
    | cons y after =>
      have ahead : h.next item = y := out.1.1
      rw [ahead]
      refine ⟨linked_relink h head y, path_relink out.2 ?_ ?_⟩
      all_goals grind
  · rw [List.concat_eq_append] at *
    obtain ⟨path, last⟩ := (path_append head z item front []).mp into
    have back : h.prev item = z := last.2
    rw [listRemove_eq, back, List.append_assoc]
    cases after with
    | nil =>
      have ahead : h.next item = head := out.1
      rw [ahead]
      refine (path_append head z head front []).mpr ⟨path_relink path ?_ ?_, linked_relink h z head⟩
      all_goals grind
    | cons y after =>
      have ahead : h.next item = y := out.1.1
      rw [ahead]
      refine (path_append head z head front (y :: after)).mpr
        ⟨path_relink path ?_ ?_, linked_relink h z y, path_relink out.2 ?_ ?_⟩
      all_goals grind

theorem remove_frame {before after : List N} (holds : lists.Holds h head (before ++ item :: after))
    {m : N} (outside : m ∉ head :: (before ++ item :: after)) :
    lists.SameAt h (h.listRemove item) m := by
  have inside : item ∈ head :: (before ++ item :: after) :=
    List.mem_cons_of_mem head (List.mem_append_right before List.mem_cons_self)
  obtain ⟨ahead, behind⟩ := holds.links_mem inside
  rw [listRemove_eq]
  exact sameAt_relink (fun same => outside (same ▸ behind)) fun same => outside (same ▸ ahead)

theorem lawful : (lists (N := N)).Lawful where
  init_holds := fun h n => ⟨linked_relink h n n, List.nodup_singleton n⟩
  init_frame := fun _ _ _ other => sameAt_relink other other
  addTail_holds := fun _ _ _ _ holds fresh => addTail_holds holds fresh
  addTail_frame := fun _ _ _ _ holds fresh _ outside other => addTail_frame holds fresh outside other
  remove_holds := fun _ _ _ _ _ holds => remove_holds holds
  remove_frame := fun _ _ _ _ _ holds _ outside => remove_frame holds outside

end Pointers

end Pointers

end AndroidBoot.Foundation.Ring
