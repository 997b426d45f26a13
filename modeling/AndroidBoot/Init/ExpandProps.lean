/- source: init/init/init_parser.c
   digest: What expand_props writes to its buffer, and when that is the whole expansion. -/

import AndroidBoot.Init.Machine

set_option autoImplicit false

namespace AndroidBoot.Init.ExpandProps

open State Properties Machine

inductive Reference
  | dollar (rest : Text)
  | single
  | named (prop rest : Text)
  | malformed

/-- Read from behind the `$`. A name without braces goes on to the end of the source. -/
def reference : Text → Reference
  | [] => .single
  | '$' :: rest => .dollar rest
  | '\x7b' :: c =>
    let prop := (c.take propNameMax).takeWhile (· ≠ '\x7d')
    match c.drop prop.length with
    | '\x7d' :: rest => .named prop rest
    | _ => .malformed
  | c => if c.drop propNameMax ≠ [] then .malformed else .named c []

/-- A call of `expand_props`: whether it returns 0, what it wrote in front of the NUL, the room
at each `$$`, and the part of the source that was not expanded. -/
structure Expansion where
  done : Bool
  dst : Text
  dollars : List Nat
  rest : Text

/-- The loop once more, with what it has written when it gives up. At a `$$` without room `left`
goes below 0, which ends the loop as 0 does. -/
def expandWrites (s : InitState) : Nat → Text → Nat → Expansion
  | 0, src, _ => ⟨true, [], [], src⟩
  | fuel + 1, src, left =>
    if src = [] || left = 0 then ⟨true, [], [], src⟩
    else
      let plain := src.takeWhile (· ≠ '$')
      match src.dropWhile (· ≠ '$') with
      | [] => ⟨true, src.take left, [], src.drop left⟩
      | _ :: c =>
        if left < plain.length then ⟨false, [], [], src⟩
        else match reference c with
          | .single => ⟨true, plain, [], ['$']⟩
          | .malformed => ⟨false, plain, [], src⟩
          | .dollar rest =>
            let e := expandWrites s fuel rest (left - plain.length - 1)
            ⟨e.done, plain ++ '$' :: e.dst, (left - plain.length) :: e.dollars, e.rest⟩
          | .named prop rest =>
            let value := propertyGet s prop
            if prop = [] || value = [] || left - plain.length < value.length then
              ⟨false, plain, [], src⟩
            else
              let e := expandWrites s fuel rest (left - plain.length - value.length)
              ⟨e.done, plain ++ value ++ e.dst, e.dollars, e.rest⟩

def expandCall (s : InitState) (src : Text) (dstSize : Nat) : Expansion :=
  if dstSize = 0 then ⟨false, [], [], src⟩
  else expandWrites s (src.length + 1) src (dstSize - 1)

def Expansion.result (e : Expansion) : Option Text := if e.done then some e.dst else none

attribute [local simp] Expansion.result

variable (s : InitState)

theorem expandLoop_eq (fuel : Nat) (src : Text) (left : Nat) (dst : Text) :
    expandLoop s fuel src left dst = (expandWrites s fuel src left).result.map (dst ++ ·) := by
  induction fuel generalizing src left dst with
  | zero => simp [expandLoop, expandWrites]
  | succ fuel ih =>
    unfold expandLoop expandWrites
    generalize src.takeWhile (· ≠ '$') = plain, src.dropWhile (· ≠ '$') = tail
    simp only [ih]
    by_cases stop : (decide (src = []) || decide (left = 0)) = true
    · simp [stop]
    rw [if_neg stop, if_neg stop]
    rcases tail with _ | ⟨d, c⟩
    · simp
    by_cases tight : left < plain.length
    · simp [tight]
    dsimp only
    rw [if_neg tight, if_neg tight]
    fun_cases reference c with
    | case1 => simp
    | case2 rest => simp [apply_ite]
    | case3 c prop rest closed =>
      simp only [closed, prop]
      split_ifs <;> simp [apply_ite]
    | case4 c prop unclosed =>
      simp only [Expansion.result]
      split
      · next closed => exact absurd closed (unclosed _)
      · rfl
    | case5 _ _ _ _ long => simp only [if_pos long, Expansion.result, Bool.false_eq_true, if_false,
        Option.map_none]
    | case6 _ _ _ _ short =>
      simp only [if_neg short]
      split_ifs <;> simp [apply_ite]

def Expansion.written (e : Expansion) : Text := e.dst ++ if e.done then ['\x00'] else []

theorem expandWrites_noRoom (fuel : Nat) (src : Text) :
    expandWrites s fuel src 0 = ⟨true, [], [], src⟩ := by
  cases fuel <;> simp [expandWrites]

theorem expandWrites_written (fuel : Nat) (src : Text) (left : Nat) :
    (expandWrites s fuel src left).written.length ≤ left + 1 ↔
      0 ∉ (expandWrites s fuel src left).dollars := by
  fun_induction expandWrites s fuel src left with
  | case1 | case2 | case3 | case4 => simp [Expansion.written]
  | case5 fuel src left _ plain _ _ _ fits | case6 fuel src left _ plain _ _ _ fits
  | case8 fuel src left _ plain _ _ _ fits =>
    simp [Expansion.written]
    omega
  | case7 fuel src left _ plain _ _ _ fits rest _ e ih =>
    by_cases full : left = plain.length
    · simp [e, full, expandWrites_noRoom, Expansion.written]
    · have room : 0 ≠ left - plain.length := by omega
      simp only [e, Expansion.written, List.length_append, List.length_cons] at ih ⊢
      rw [List.mem_cons, not_or, and_iff_right room, ← ih]
      omega
  | case9 fuel src left _ plain _ _ _ fits prop rest _ value ok e ih =>
    simp only [e, Expansion.written, List.length_append] at ih ⊢
    simp only [Bool.or_eq_true, decide_eq_true_eq, not_or, not_lt] at ok
    rw [← ih]
    omega

def Reference.value (s : InitState) : Reference → Option Text
  | .dollar _ | .single => some ['$']
  | .named prop _ => if prop = [] || propertyGet s prop = [] then none else some (propertyGet s prop)
  | .malformed => none

def Reference.rest : Reference → Text
  | .dollar rest | .named _ rest => rest
  | .single | .malformed => []

def expandAll (s : InitState) : Nat → Text → Option Text
  | _, [] => some []
  | skip + 1, _ :: c => expandAll s skip c
  | 0, d :: c =>
    if d ≠ '$' then (expandAll s 0 c).map (d :: ·)
    else ((reference c).value s).bind fun value =>
      (expandAll s (c.length - (reference c).rest.length) c).map (value ++ ·)

def fullExpansion (s : InitState) (src : Text) : Option Text := expandAll s 0 src

theorem expandAll_skip (skip : Nat) (src : Text) :
    expandAll s skip src = fullExpansion s (src.drop skip) := by
  induction src generalizing skip with
  | nil => simp [expandAll, fullExpansion]
  | cons d c ih => cases skip with
    | zero => rfl
    | succ skip => rw [expandAll, ih, List.drop_succ_cons]

theorem reference_suffix (c : Text) : (reference c).rest <:+ c := by
  fun_cases reference c with
  | case2 => exact List.suffix_cons _ _
  | case3 c prop rest closed =>
    have closing := (List.suffix_cons _ rest).trans (closed ▸ List.drop_suffix prop.length c)
    exact closing.trans (List.suffix_cons _ _)
  | _ => exact List.nil_suffix

theorem fullExpansion_plain (plain src : Text) (bare : '$' ∉ plain) :
    fullExpansion s (plain ++ src) = (fullExpansion s src).map (plain ++ ·) := by
  induction plain with
  | nil => simp
  | cons d plain ih =>
    rw [List.mem_cons, not_or] at bare
    rw [List.cons_append, fullExpansion, expandAll, if_pos (Ne.symm bare.1), ← fullExpansion,
      ih bare.2, Option.map_map]
    rfl

theorem fullExpansion_nonempty (src : Text)
    (nothing : fullExpansion s src = some []) : src = [] := by
  cases src with
  | nil => rfl
  | cons d c =>
    rw [fullExpansion, expandAll] at nothing
    split_ifs at nothing
    · simp at nothing
    · simp only [Option.bind_eq_some_iff, Option.map_eq_some_iff, List.append_eq_nil_iff] at nothing
      cases other : reference c <;> grind [Reference.value]

theorem fullExpansion_dollar {src c : Text} {d : Char} (found : src.dropWhile (· ≠ '$') = d :: c) :
    (reference c).rest.length < src.length ∧
      fullExpansion s src = ((reference c).value s).bind fun value =>
        (fullExpansion s (reference c).rest).map (src.takeWhile (· ≠ '$') ++ value ++ ·) := by
  have stop := List.head_dropWhile_not (· ≠ '$') (List.ne_nil_of_mem (found ▸ List.mem_cons_self))
  simp only [found, List.head_cons] at stop
  obtain rfl : d = '$' := by simpa using stop
  have whole := List.takeWhile_append_dropWhile (p := (· ≠ '$')) (l := src)
  have bare : '$' ∉ src.takeWhile (· ≠ '$') := fun inside => by
    simpa using List.mem_takeWhile_imp inside
  have suffix := reference_suffix c
  rw [found] at whole
  generalize src.takeWhile (· ≠ '$') = plain at whole bare
  subst whole
  refine ⟨by have := suffix.length_le; simp; omega, ?_⟩
  rw [fullExpansion_plain s _ _ bare, fullExpansion, expandAll, if_neg (by simp), expandAll_skip,
    ← List.suffix_iff_eq_drop.1 suffix]
  cases (reference c).value s <;> simp [Function.comp_def]

theorem expandWrites_full (fuel : Nat) (src : Text) (left : Nat)
    (enough : src.length < fuel) (done : (expandWrites s fuel src left).done = true) :
    fullExpansion s src = (fullExpansion s (expandWrites s fuel src left).rest).map
      ((expandWrites s fuel src left).dst ++ ·) := by
  fun_induction expandWrites s fuel src left with
  | case1 => exact absurd enough (Nat.not_lt_zero _)
  | case2 => simp
  | case3 fuel src left _ found =>
    have bare : '$' ∉ src.take left := fun inside => by
      simpa using List.dropWhile_eq_nil_iff.1 found _ (List.mem_of_mem_take inside)
    rw [← fullExpansion_plain s _ _ bare, List.take_append_drop]
  | case4 | case6 | case8 => cases done
  | case5 fuel src left _ plain _ c found fits is =>
    rw [(fullExpansion_dollar s found).2, is]
    simp [plain, Reference.value, Reference.rest, fullExpansion, expandAll, reference]
  | case7 fuel src left _ plain _ c found fits rest is e ih =>
    have here := fullExpansion_dollar s found
    rw [is, Reference.rest] at here
    rw [here.2, ih (by omega) done]
    simp [Reference.value, Function.comp_def, plain, e]
  | case9 fuel src left _ plain _ c found fits prop rest is value ok e ih =>
    have here := fullExpansion_dollar s found
    have set : ¬(prop = [] || propertyGet s prop = []) = true := fun unset =>
      ok (by rw [Bool.or_eq_true]; exact .inl unset)
    rw [is, Reference.value, Reference.rest, if_neg set] at here
    rw [here.2, ih (by omega) done]
    simp [Function.comp_def, plain, e, value]

/-- A source in its parts: ordinary text, each with the reference behind it if there is one. -/
def parts : Nat → Text → List (Text × Option Reference)
  | 0, _ => []
  | fuel + 1, src =>
    if src = [] then []
    else match src.dropWhile (· ≠ '$') with
      | [] => [(src, none)]
      | _ :: c =>
        (src.takeWhile (· ≠ '$'), some (reference c)) :: parts fuel (reference c).rest

/-- The parts that a source can be expanded up to, each with the length of the expansion in front
of it. -/
def places (s : InitState) : Nat → List (Text × Option Reference) →
    List (Nat × Text × Option Reference)
  | _, [] => []
  | n, (plain, ref) :: rest =>
    (n, plain, ref) :: match ref.bind (·.value s) with
      | some value => places s (n + plain.length + value.length) rest
      | none => []

def placesOf (s : InitState) (src : Text) : List (Nat × Text × Option Reference) :=
  places s 0 (parts (src.length + 1) src)

/-- A `$$` behind ordinary text that ends with the buffer. -/
def FullAtDollar (size : Nat) (place : Nat × Text × Option Reference) : Prop :=
  (∃ rest, place.2.2 = some (.dollar rest)) ∧ place.2.1 ≠ [] ∧ place.1 + place.2.1.length = size

/-- A part is expanded with room for more in front of it, or refused: ordinary text at the end of
the source fits, a `$` at its end is not reached, and a `$$` is not where the buffer ends. -/
def Room (size : Nat) (place : Nat × Text × Option Reference) : Prop :=
  place.1 < size ∧ match place.2.2 with
    | none => place.1 + place.2.1.length ≤ size
    | some .single => size < place.1 + place.2.1.length
    | some (.dollar _) => place.1 + place.2.1.length ≠ size
    | some _ => True

section Places

variable {s}
variable {n : Nat} {list : List (Text × Option Reference)} {place : Nat × Text × Option Reference}

theorem le_of_mem_places (member : place ∈ places s n list) : n ≤ place.1 := by
  induction list generalizing n with
  | nil => cases member
  | cons head rest ih =>
    rw [places] at member
    rcases List.mem_cons.mp member with rfl | later
    · exact Nat.le_refl n
    · split at later
      · have := ih later
        omega
      · cases later

theorem parts_cons {fuel : Nat} {src c : Text} {d : Char}
    (found : src.dropWhile (· ≠ '$') = d :: c) :
    parts (fuel + 1) src =
      (src.takeWhile (· ≠ '$'), some (reference c)) :: parts fuel (reference c).rest := by
  have some_ : src ≠ [] := by
    rintro rfl
    cases found
  rw [parts, if_neg some_, found]

theorem parts_plain {fuel : Nat} {src : Text} (some_ : src ≠ [])
    (bare : src.dropWhile (· ≠ '$') = []) : parts (fuel + 1) src = [(src, none)] := by
  rw [parts, if_neg some_, bare]

theorem parts_nil (fuel : Nat) : parts fuel [] = [] := by
  cases fuel <;> simp [parts]

theorem FullAtDollar.past {m : Nat} (full : FullAtDollar m place) : ¬ m < place.1 := by
  have := full.2.2
  omega

theorem refused_past {left : Nat} {plain prop rest : Text} (fits : ¬ left < plain.length)
    (refused : (prop = [] || propertyGet s prop = [] ||
      left - plain.length < (propertyGet s prop).length) = true) :
    ∀ value, (some (Reference.named prop rest)).bind (·.value s) = some value →
      n + left < n + plain.length + value.length := by
  intro value known
  simp only [Option.bind_some, Reference.value] at known
  split_ifs at known with unset
  obtain rfl := Option.some.inj known
  simp only [Bool.not_eq_true] at unset
  rw [unset, Bool.false_or, decide_eq_true_eq] at refused
  omega

theorem accepted_value {room : Nat} {prop : Text} (rest : Text)
    (accepted : ¬ (prop = [] || propertyGet s prop = [] ||
      room < (propertyGet s prop).length) = true) :
    Reference.value s (.named prop rest) = some (propertyGet s prop) ∧
      (propertyGet s prop).length ≤ room := by
  rw [Bool.or_eq_true, not_or, decide_eq_true_eq, not_lt] at accepted
  exact ⟨if_neg accepted.1, accepted.2⟩

theorem places_past {m : Nat} {plain : Text} {ref : Option Reference}
    (past : ∀ value, ref.bind (·.value s) = some value → m < n + plain.length + value.length) :
    ∀ place ∈ (places s n ((plain, ref) :: list)).tail, m < place.1 := by
  intro place member
  rw [places, List.tail_cons] at member
  split at member
  · rename_i value found
    exact Nat.lt_of_lt_of_le (past value found) (le_of_mem_places member)
  · cases member

theorem goes {src : Text} {left : Nat} (go : ¬ (decide (src = []) || decide (left = 0)) = true) :
    src ≠ [] ∧ left ≠ 0 := by
  simpa using go

theorem room_tight {left : Nat} {plain : Text} (pos : left ≠ 0) (tight : left < plain.length)
    (ref : Reference) : Room (n + left) (n, plain, some ref) := by
  refine ⟨Nat.lt_add_of_pos_right (Nat.pos_of_ne_zero pos), ?_⟩
  cases ref with
  | single => exact Nat.add_lt_add_left tight n
  | dollar rest =>
    show n + plain.length ≠ n + left
    omega
  | named | malformed => trivial

end Places

theorem dollars_iff (fuel : Nat) (src : Text) (left : Nat) : ∀ n,
    0 ∈ (expandWrites s fuel src left).dollars ↔
      ∃ place ∈ places s n (parts fuel src), FullAtDollar (n + left) place := by
  fun_induction expandWrites s fuel src left with
  | case1 src left => simp [parts, places]
  | case2 fuel src left stop =>
    intro n
    refine iff_of_false (by simp) ?_
    rintro ⟨place, member, -, some_, full⟩
    have low := le_of_mem_places member
    have := List.length_pos_iff.mpr some_
    simp at stop
    rcases stop with rfl | rfl
    · simp [parts, places] at member
    · omega
  | case3 fuel src left go found =>
    intro n
    simp [parts_plain (goes go).1 found, places, FullAtDollar]
  | case4 fuel src left go plain _ c found tight =>
    intro n
    rw [parts_cons found]
    refine iff_of_false (by simp) ?_
    rintro ⟨place, member, full⟩
    rcases List.mem_cons.mp member with rfl | later
    · have ends : n + plain.length = n + left := full.2.2
      omega
    · exact full.past (places_past
        (fun _ _ => Nat.lt_add_right _ (Nat.add_lt_add_left tight n)) place later)
  | case5 fuel src left go plain _ c found fits is
  | case6 fuel src left go plain _ c found fits is =>
    intro n
    rw [parts_cons found, is, Reference.rest, parts_nil]
    simp [places, FullAtDollar, Reference.value]
  | case7 fuel src left go plain _ c found fits rest is e ih =>
    intro n
    have some_ := (goes go).2
    rw [parts_cons found, is, Reference.rest]
    simp only [places, Option.bind_some, Reference.value, List.mem_cons, exists_eq_or_imp,
      List.length_singleton]
    refine or_congr ⟨fun none_ => ?_, fun full => ?_⟩ ?_
    · have ends : n + plain.length = n + left := by omega
      exact ⟨⟨rest, rfl⟩, List.length_pos_iff.mp (show 0 < plain.length by omega), ends⟩
    · have ends : n + plain.length = n + left := full.2.2
      omega
    · by_cases full : left = plain.length
      · refine iff_of_false ?_ ?_
        · simp [e, full, expandWrites_noRoom]
        · rintro ⟨place, member, full'⟩
          exact full'.past (Nat.lt_of_lt_of_le (by rw [full]; exact Nat.lt_succ_self _)
            (le_of_mem_places member))
      · rw [ih (n + plain.length + 1), show n + plain.length + 1 + (left - plain.length - 1) =
          n + left by omega]
  | case8 fuel src left go plain _ c found fits prop rest is value bad =>
    intro n
    rw [parts_cons found, is]
    refine iff_of_false (by simp) ?_
    rintro ⟨place, member, full⟩
    rcases List.mem_cons.mp member with rfl | later
    · obtain ⟨⟨_, other⟩, -⟩ := full
      cases other
    · exact full.past (places_past (refused_past fits bad) place later)
  | case9 fuel src left go plain _ c found fits prop rest is value ok e ih =>
    intro n
    obtain ⟨known, room⟩ := accepted_value rest ok
    rw [parts_cons found, is, Reference.rest, ih (n + plain.length + value.length),
      show n + plain.length + value.length + (left - plain.length - value.length) = n + left by
        simp only [value]
        omega]
    simp only [places, Option.bind_some, known, List.mem_cons, exists_eq_or_imp]
    refine (or_iff_right ?_).symm
    rintro ⟨⟨_, other⟩, -⟩
    cases other

theorem complete_iff (fuel : Nat) (src : Text) (left : Nat) (enough : src.length < fuel) : ∀ n,
    ((expandWrites s fuel src left).done = true →
        (expandWrites s fuel src left).rest = [] ∧ 0 ∉ (expandWrites s fuel src left).dollars) ↔
      ∀ place ∈ places s n (parts fuel src), place.1 ≤ n + left → Room (n + left) place := by
  fun_induction expandWrites s fuel src left with
  | case1 => exact absurd enough (Nat.not_lt_zero _)
  | case2 fuel src left stop =>
    intro n
    obtain rfl | some_ := eq_or_ne src []
    · simp [parts, places]
    obtain rfl : left = 0 := by simpa [some_] using stop
    refine iff_of_false (fun whole => some_ (whole rfl).1) fun room => ?_
    obtain ⟨head, rest, split⟩ : ∃ head rest, parts (fuel + 1) src = head :: rest := by
      rw [parts, if_neg some_]
      split <;> exact ⟨_, _, rfl⟩
    rw [split] at room
    exact absurd (room _ List.mem_cons_self (Nat.le_refl n)).1 (Nat.lt_irrefl n)
  | case3 fuel src left go found =>
    intro n
    obtain ⟨some_, pos⟩ := goes go
    simp [parts_plain some_ found, places, Room]
    omega
  | case4 fuel src left go plain _ c found tight =>
    intro n
    rw [parts_cons found]
    refine iff_of_true (by simp) fun place member low => ?_
    rcases List.mem_cons.mp member with rfl | later
    · exact room_tight (goes go).2 tight _
    · exact absurd low (Nat.not_le.mpr (places_past
        (fun _ _ => Nat.lt_add_right _ (Nat.add_lt_add_left tight n)) place later))
  | case5 fuel src left go plain _ c found fits is =>
    intro n
    rw [parts_cons found, is]
    refine iff_of_false (fun whole => absurd (whole rfl).1 (by simp)) fun room => ?_
    have dropped : n + left < n + plain.length :=
      (room _ List.mem_cons_self (Nat.le_add_right n left)).2
    omega
  | case6 fuel src left go plain _ c found fits is =>
    intro n
    rw [parts_cons found, is, Reference.rest, parts_nil]
    refine iff_of_true (by simp) fun place member _ => ?_
    obtain rfl : place = (n, plain, some .malformed) := List.mem_singleton.mp member
    exact ⟨Nat.lt_add_of_pos_right (Nat.pos_of_ne_zero (goes go).2), trivial⟩
  | case7 fuel src left go plain _ c found fits rest is e ih =>
    intro n
    have shorter := (fullExpansion_dollar s found).1
    rw [is, Reference.rest] at shorter
    rw [parts_cons found, is, Reference.rest]
    simp only [places, Option.bind_some, Reference.value, List.forall_mem_cons,
      List.length_singleton]
    by_cases full : left = plain.length
    · refine iff_of_false (fun whole => ?_) fun room => ?_
      · have done : e.done = true := by simp [e, full, expandWrites_noRoom]
        exact (whole done).2 (by simp [full])
      · exact (room.1 (Nat.le_add_right n left)).2 (by rw [full])
    · have here : Room (n + left) (n, plain, some (.dollar rest)) := by
        refine ⟨Nat.lt_add_of_pos_right (Nat.pos_of_ne_zero (goes go).2), ?_⟩
        show n + plain.length ≠ n + left
        omega
      have next := ih (by omega) (n + plain.length + 1)
      rw [show n + plain.length + 1 + (left - plain.length - 1) = n + left by omega] at next
      rw [← next, and_iff_right fun _ => here]
      refine imp_congr_right fun _ => and_congr_right fun _ => ?_
      rw [List.mem_cons, not_or, and_iff_right (by omega)]
  | case8 fuel src left go plain _ c found fits prop rest is value bad =>
    intro n
    rw [parts_cons found, is]
    refine iff_of_true (by simp) fun place member low => ?_
    rcases List.mem_cons.mp member with rfl | later
    · exact ⟨Nat.lt_add_of_pos_right (Nat.pos_of_ne_zero (goes go).2), trivial⟩
    · exact absurd low (Nat.not_le.mpr (places_past (refused_past fits bad) place later))
  | case9 fuel src left go plain _ c found fits prop rest is value ok e ih =>
    intro n
    have shorter := (fullExpansion_dollar s found).1
    obtain ⟨known, room⟩ := accepted_value rest ok
    rw [is, Reference.rest] at shorter
    rw [parts_cons found, is, Reference.rest, ih (by omega) (n + plain.length + value.length),
      show n + plain.length + value.length + (left - plain.length - value.length) = n + left by
        simp only [value]
        omega]
    simp only [places, Option.bind_some, known, List.forall_mem_cons]
    refine (and_iff_right fun _ => ?_).symm
    exact ⟨Nat.lt_add_of_pos_right (Nat.pos_of_ne_zero (goes go).2), trivial⟩

theorem expandCall_written (src : Text) (dstSize : Nat) :
    (expandCall s src dstSize).written.length ≤ dstSize ↔
      0 ∉ (expandCall s src dstSize).dollars := by
  unfold expandCall
  split_ifs with none
  · simp [Expansion.written]
  · rw [← expandWrites_written, Nat.sub_add_cancel (by omega)]

theorem expandProps_some {s : InitState} {src dst : Text} {dstSize : Nat} :
    expandProps s src dstSize = some dst ↔
      (expandCall s src dstSize).done = true ∧ (expandCall s src dstSize).dst = dst := by
  unfold expandProps expandCall
  split_ifs
  · simp
  · simp [expandLoop_eq]

/-- A call writes into its buffer only, and ends what it wrote there, exactly if no `$$` stands
behind ordinary text with whose expansion the buffer is full. The `$` takes the place of the NUL
there, which then goes behind the buffer. -/
theorem expand_props_inside_iff (s : InitState) (src : Text) (dstSize : Nat) :
    ((expandCall s src dstSize).written.length ≤ dstSize ∧
        ∀ dst, expandProps s src dstSize = some dst →
          dst.length < dstSize ∧ (expandCall s src dstSize).written = dst ++ ['\x00']) ↔
      ∀ place ∈ placesOf s src, ¬ FullAtDollar (dstSize - 1) place := by
  have dollars : 0 ∉ (expandCall s src dstSize).dollars ↔
      ∀ place ∈ placesOf s src, ¬ FullAtDollar (dstSize - 1) place := by
    unfold expandCall
    split_ifs with none
    · refine iff_of_true (by simp) fun place _ full => full.2.1 (List.length_eq_zero_iff.mp ?_)
      have := full.2.2
      omega
    · rw [dollars_iff s _ src _ 0, Nat.zero_add]
      exact not_exists.trans (forall_congr' fun place => not_and)
  rw [← dollars, ← expandCall_written, and_iff_left_iff_imp]
  intro inside dst returned
  obtain ⟨done, rfl⟩ := expandProps_some.1 returned
  rw [Expansion.written, if_pos done] at inside ⊢
  exact ⟨by rwa [List.length_append] at inside, rfl⟩

theorem last_dollar_outside :
    ¬((expandCall (booting [] []) "a$$".toList 2).written.length ≤ 2) := by
  decide

/-- What is returned is the whole expansion and fits, so that a call without one, or with one that
does not fit, is refused: exactly if every part of the source that begins inside of the buffer has
room there, or is one that the call gives up at. -/
theorem expand_props_complete_iff (s : InitState) (src : Text) (dstSize : Nat) :
    (∀ dst, expandProps s src dstSize = some dst →
        fullExpansion s src = some dst ∧ dst.length < dstSize) ↔
      (dstSize ≠ 0 → ∀ place ∈ placesOf s src, place.1 < dstSize → Room (dstSize - 1) place) := by
  have parts : ((expandCall s src dstSize).done = true →
        (expandCall s src dstSize).rest = [] ∧ 0 ∉ (expandCall s src dstSize).dollars) ↔
      (dstSize ≠ 0 → ∀ place ∈ placesOf s src, place.1 < dstSize → Room (dstSize - 1) place) := by
    unfold expandCall
    split_ifs with none
    · simp [none]
    · rw [complete_iff s _ src _ (Nat.lt_succ_self _) 0, Nat.zero_add, forall_prop_of_true none]
      refine forall₂_congr fun place _ => imp_congr_left ?_
      omega
  rw [← parts]
  simp only [expandProps_some, ← expandCall_written, and_imp]
  rw [forall_comm]
  refine forall_congr' fun done => ?_
  have full : fullExpansion s src = (fullExpansion s (expandCall s src dstSize).rest).map
      ((expandCall s src dstSize).dst ++ ·) := by
    unfold expandCall at done ⊢
    split_ifs at done ⊢
    exact expandWrites_full s _ src _ (Nat.lt_succ_self _) done
  rw [forall_eq', full, Expansion.written, if_pos done, List.length_append]
  refine and_congr ⟨fun whole => ?_, fun nothing => ?_⟩ Iff.rfl
  · obtain ⟨more, isSome, same⟩ := Option.map_eq_some_iff.1 whole
    obtain rfl : more = [] := by simpa using same
    exact fullExpansion_nonempty s _ isSome
  · simp [nothing, fullExpansion, expandAll]

theorem short_buffer_truncates :
    expandProps (booting [] []) "ab".toList 2 = some ['a'] ∧
      fullExpansion (booting [] []) "ab".toList = some "ab".toList := by
  decide

end AndroidBoot.Init.ExpandProps
