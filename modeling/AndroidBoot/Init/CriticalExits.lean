/- source: init/init/signal_handler.c
   digest: The crash counter of critical services against the exits of the last four minutes. -/

import AndroidBoot.Init.EachService

set_option autoImplicit false

namespace AndroidBoot.Init.CriticalExits

open State Properties Services Machine EachService Foundation.Run

/-- The exits of the last four minutes, this one included. -/
def recent (times : List Nat) (now : Nat) : Nat :=
  (times ++ [now]).countP fun t => now ≤ t + 240 && t ≤ now

/-- The exit that opened the latest window of four minutes. The first window opens with the
clock, and an exit opens a window when it falls into none. -/
def lastOpening (times : List Nat) : Nat :=
  times.foldl (fun opening t => if opening + 240 < t then t else opening) 0

/-- The opening of the latest window and the number of exits in it. -/
def window (times : List Nat) : Nat × Nat :=
  times.foldl (fun w t => if w.1 + 240 < t then (t, 1) else (w.1, w.2 + 1)) (0, 0)

theorem window_snoc (times : List Nat) (t : Nat) :
    window (times ++ [t]) =
      if (window times).1 + 240 < t then (t, 1) else ((window times).1, (window times).2 + 1) := by
  unfold window
  rw [List.foldl_append]
  rfl

theorem lastOpening_snoc (times : List Nat) (t : Nat) :
    lastOpening (times ++ [t]) = if lastOpening times + 240 < t then t else lastOpening times := by
  unfold lastOpening
  rw [List.foldl_append]
  rfl

theorem window_fst (times : List Nat) : (window times).1 = lastOpening times := by
  induction times using List.reverseRecOn with
  | nil => rfl
  | append_singleton times t ih =>
    rw [window_snoc, lastOpening_snoc, ← ih]
    split_ifs <;> rfl

theorem window_snd_le (times : List Nat) : (window times).2 ≤ times.length := by
  induction times using List.reverseRecOn with
  | nil => exact Nat.le_refl _
  | append_singleton times t ih =>
    rw [window_snoc, List.length_append, List.length_singleton]
    split_ifs
    · exact Nat.le_add_left _ _
    · exact Nat.add_le_add_right ih 1

variable {times : List Nat} {now : Nat}

theorem lastOpening_le (past : ∀ t ∈ times, t ≤ now) : lastOpening times ≤ now := by
  induction times using List.reverseRecOn with
  | nil => exact Nat.zero_le _
  | append_singleton times t ih =>
    rw [lastOpening_snoc]
    split_ifs
    · exact past t (by simp)
    · exact ih (List.forall_mem_append.mp past).1

theorem exists_last_four (long : 4 ≤ times.length) :
    ∃ before a b c d, times = before ++ [a, b, c, d] := by
  obtain ⟨a, b, c, d, last⟩ : ∃ a b c d, times.drop (times.length - 4) = [a, b, c, d] := by
    have size : (times.drop (times.length - 4)).length = 4 := by
      rw [List.length_drop]
      omega
    match times.drop (times.length - 4), size with
    | [a, b, c, d], _ => exact ⟨a, b, c, d, rfl⟩
  exact ⟨times.take (times.length - 4), a, b, c, d, by rw [← last, List.take_append_drop]⟩

section LastFour

variable {before : List Nat} {a b c d now : Nat}

section Sorted

variable (sorted : (before ++ [a, b, c, d]).Pairwise (· ≤ ·))
include sorted

theorem recent_iff (past : ∀ t ∈ before ++ [a, b, c, d], t ≤ now) :
    4 < recent (before ++ [a, b, c, d]) now ↔ now ≤ a + 240 := by
  obtain ⟨-, ordered, crossing⟩ := List.pairwise_append.mp sorted
  simp only [List.pairwise_cons, List.mem_cons, List.not_mem_nil, or_false, forall_eq_or_imp,
    forall_eq] at ordered
  have last : d ≤ now := past d (by simp)
  unfold recent
  rw [List.countP_append, List.countP_append]
  constructor
  · intro many
    by_contra late
    have none : before.countP (fun t => decide (now ≤ t + 240) && decide (t ≤ now)) = 0 := by
      rw [List.countP_eq_zero]
      intro t member
      have := crossing t member a List.mem_cons_self
      simp
      omega
    have few : [b, c, d].countP (fun t => decide (now ≤ t + 240) && decide (t ≤ now)) ≤ 3 :=
      List.countP_le_length
    rw [none, List.countP_cons_of_neg (by simp; omega)] at many
    simp at many few
    omega
  · intro early
    have all : [a, b, c, d].countP (fun t => decide (now ≤ t + 240) && decide (t ≤ now)) = 4 := by
      rw [List.countP_eq_length.mpr]
      · rfl
      · intro t member
        simp only [List.mem_cons, List.not_mem_nil, or_false] at member
        simp
        omega
    rw [all]
    simp

theorem window_iff (past : ∀ t ∈ before ++ [a, b, c, d], t ≤ now) :
    (now ≤ (window (before ++ [a, b, c, d])).1 + 240 ∧ 4 ≤ (window (before ++ [a, b, c, d])).2) ↔
      now ≤ lastOpening (before ++ [a]) + 240 := by
  obtain ⟨-, ordered, -⟩ := List.pairwise_append.mp sorted
  simp only [List.pairwise_cons, List.mem_cons, List.not_mem_nil, or_false, forall_eq_or_imp,
    forall_eq] at ordered
  have last : d ≤ now := past d (by simp)
  have counted : 1 ≤ (window (before ++ [a])).2 := by
    rw [window_snoc]
    split_ifs
    · exact Nat.le_refl 1
    · exact Nat.le_add_left 1 _
  have split : before ++ [a, b, c, d] = before ++ [a] ++ [b] ++ [c] ++ [d] := by simp
  rw [split, window_snoc (before ++ [a] ++ [b] ++ [c]), window_snoc (before ++ [a] ++ [b]),
    window_snoc (before ++ [a]), ← window_fst]
  generalize window (before ++ [a]) = w at counted ⊢
  split_ifs <;> dsimp only at * <;> omega

theorem lastOpening_le_fourth : lastOpening (before ++ [a]) ≤ a := by
  obtain ⟨-, -, crossing⟩ := List.pairwise_append.mp sorted
  apply lastOpening_le
  exact List.forall_mem_append.mpr ⟨fun t member => crossing t member a List.mem_cons_self,
    List.forall_mem_singleton.mpr (Nat.le_refl a)⟩

end Sorted

end LastFour

theorem recent_le (times : List Nat) (now : Nat) : recent times now ≤ times.length + 1 := by
  rw [← List.length_singleton (a := now), ← List.length_append]
  exact List.countP_le_length

def Counts (now : Nat) (svc : Service) : Prop :=
  svc.crashes.Pairwise (· ≤ ·) ∧ (∀ t ∈ svc.crashes, t ≤ now) ∧
    (svc.critical = true → svc.oneshot = false →
      (svc.timeCrashed, svc.nrCrashed) = window svc.crashes)

theorem pairwise_snoc (sorted : times.Pairwise (· ≤ ·))
    (past : ∀ t ∈ times, t ≤ now) : (times ++ [now]).Pairwise (· ≤ ·) := by
  rw [List.pairwise_append]
  refine ⟨sorted, List.pairwise_singleton _ _, fun t member now' last => ?_⟩
  rw [List.mem_singleton.mp last]
  exact past t member

variable {svc : Service}

theorem reap_counters (now : Nat) (critical : svc.critical = true)
    (oneshot : svc.oneshot = false) :
    ((svc.reap now).2.timeCrashed, (svc.reap now).2.nrCrashed) =
      if svc.unrequested then
        if svc.timeCrashed + 240 < now then (now, 1) else (svc.timeCrashed, svc.nrCrashed + 1)
      else (svc.timeCrashed, svc.nrCrashed) := by
  have disabled : (svc.exited now).disabled = svc.disabled := by simp [Service.exited, oneshot]
  have counters : (((svc.exited now).counted now).timeCrashed,
      ((svc.exited now).counted now).nrCrashed) =
      if svc.restart then (svc.timeCrashed, svc.nrCrashed)
      else if svc.timeCrashed + 240 < now then (now, 1)
      else (svc.timeCrashed, svc.nrCrashed + 1) := by
    have kept : (svc.exited now).critical = true := critical
    have same : (svc.exited now).restart = svc.restart := rfl
    unfold Service.counted
    rw [kept, same]
    cases svc.restart with
    | true => rfl
    | false =>
      by_cases late : svc.timeCrashed + 240 < now
      · have outside : ¬ now ≤ svc.timeCrashed + Service.criticalCrashWindow := Nat.not_le.mpr late
        simp [Service.exited, outside, late]
      · have inside : now ≤ svc.timeCrashed + Service.criticalCrashWindow := Nat.not_lt.mp late
        simp [Service.exited, inside, late]
  rcases svc.reap_cases now with ⟨halted, reaped⟩ | ⟨enabled, reset, reaped⟩
  · rw [disabled] at halted
    have requested : svc.unrequested = false := by
      rcases halted with halted | halted <;> simp [Service.unrequested, halted]
    rw [reaped, requested]
    rfl
  · rw [disabled] at enabled
    have asked : svc.unrequested = !svc.restart := by simp [Service.unrequested, enabled, reset]
    rw [asked]
    rcases reaped with reaped | reaped
    · rw [reaped, counters]
      cases svc.restart <;> rfl
    · rw [reaped, counters]
      cases svc.restart <;> rfl

theorem kept_counts : Kept fun now _ svc => Counts now svc where
  later := fun _ _ _ _ order h =>
    ⟨h.1, fun t member => Nat.le_trans (h.2.1 t member) order, h.2.2⟩
  start := fun _ _ svc haveConsole dynamicArgs _ _ h => by
    cases svc.outcome haveConsole dynamicArgs <;> exact h
  stop := fun _ _ svc how _ h => by
    obtain ⟨disabled, reset, restart, killed⟩ := svc.stopOrReset_eq how
    rw [killed]
    exact h
  reap := fun now _ svc _ h => by
    obtain ⟨sorted, past, counters⟩ := h
    have exit := svc.reap_exit now
    unfold Counts
    rw [exit.oneshot, exit.critical, exit.crashes]
    split_ifs with asked
    · refine ⟨pairwise_snoc sorted past, ?_, ?_⟩
      · exact List.forall_mem_append.mpr ⟨past, List.forall_mem_singleton.mpr (Nat.le_refl _)⟩
      · intro isCritical repeats
        rw [reap_counters now isCritical repeats, if_pos asked, window_snoc,
          ← counters isCritical repeats]
    · refine ⟨sorted, past, fun isCritical repeats => ?_⟩
      rw [reap_counters now isCritical repeats, if_neg asked]
      exact counters isCritical repeats

def Steady (svc : Service) (now : Nat) : Prop :=
  ∀ before a b c d, svc.crashes = before ++ [a, b, c, d] → now ≤ a + 240 →
    svc.oneshot = false ∧ now ≤ lastOpening (before ++ [a]) + 240

theorem steady_iff {before : List Nat} {a b c d : Nat}
    (last : svc.crashes = before ++ [a, b, c, d]) :
    Steady svc now ↔ (now ≤ a + 240 →
      svc.oneshot = false ∧ now ≤ lastOpening (before ++ [a]) + 240) := by
  constructor
  · exact fun h => h before a b c d last
  · intro h before' a' b' c' d' last'
    obtain ⟨rfl, same⟩ := List.append_inj' (last.symm.trans last') rfl
    obtain ⟨rfl, -⟩ := List.cons.inj same
    exact h

theorem reboot_reap_iff (critical : svc.critical = true) (asked : svc.unrequested = true) :
    (svc.reap now).1 = .reboot ↔
      svc.oneshot = false ∧ now ≤ svc.timeCrashed + 240 ∧ 4 ≤ svc.nrCrashed := by
  obtain ⟨⟨disabled, reset⟩, restart⟩ :
      (svc.disabled = false ∧ svc.reset = false) ∧ svc.restart = false := by
    simpa [Service.unrequested] using asked
  cases oneshot : svc.oneshot with
  | true =>
    have stopped := (svc.stopped_reap_iff now).mpr (Or.inr (Or.inl ⟨oneshot, restart⟩))
    simp [stopped]
  | false =>
    unfold Service.reap
    simp only [Service.exited, disabled, reset, restart, critical, oneshot, Bool.or_false,
      Bool.false_eq_true, if_false, Bool.not_false, Bool.and_true, Bool.true_and,
      Service.criticalCrashWindow, Service.criticalCrashThreshold]
    split_ifs with counter
    · simpa [Nat.lt_succ_iff] using counter
    · simpa [Nat.lt_succ_iff] using counter

/-- In every run, an unrequested exit of a critical service reboots the device exactly for the
fifth exit of the last four minutes, if and only if no window of the counter is opened between
these exits and the service is not a one-shot. -/
theorem reboot_iff_recent {start s : InitState} (fresh : ∀ svc ∈ start.services, Fresh svc)
    (run : Reach step (fun _ _ => True) start s) {svc : Service} (member : svc ∈ s.services)
    (critical : svc.critical = true) (asked : svc.unrequested = true) {now : Nat}
    (later : s.clock ≤ now) :
    ((svc.reap now).1 = .reboot ↔ 4 < recent svc.crashes now) ↔ Steady svc now := by
  have base : ∀ now svc, Fresh svc → Counts now svc := by
    rintro now svc ⟨-, -, -, -, time, number, -, -, crashes⟩
    unfold Counts
    rw [crashes, time, number]
    exact ⟨List.Pairwise.nil, nofun, fun _ _ => rfl⟩
  obtain ⟨sorted, past, counters⟩ := kept_counts.later _ _ 0 _ later
    (kept_counts.mem_reach base fresh run member)
  rw [reboot_reap_iff critical asked]
  by_cases long : 4 ≤ svc.crashes.length
  · obtain ⟨before, a, b, c, d, last⟩ := exists_last_four long
    rw [last] at sorted past counters
    have opened := lastOpening_le_fourth sorted
    rw [steady_iff last, last, recent_iff sorted past]
    cases oneshot : svc.oneshot with
    | true => simp
    | false =>
      obtain ⟨time, number⟩ := Prod.ext_iff.mp (counters critical oneshot)
      have open_iff := window_iff sorted past
      simp only [true_and]
      omega
  · have few := recent_le svc.crashes now
    have short (repeats : svc.oneshot = false) : ¬ 4 ≤ svc.nrCrashed := by
      obtain ⟨-, number⟩ := Prod.ext_iff.mp (counters critical repeats)
      have := window_snd_le svc.crashes
      omega
    have steady : Steady svc now := by
      intro before a b c d last
      simp [last] at long
    constructor
    · exact fun _ => steady
    · refine fun _ => ⟨fun h => absurd h.2.2 (short h.1), fun many => ?_⟩
      omega

def criticalBoot (passing : List Nat) : InitState :=
  clocked [{ parseService "servicemanager".toList with critical := true }]
    fun n => passing[n]?.getD 0

def rounds : Nat → List Event
  | 0 => [.serviceStart 0 false]
  | n + 1 => .serviceStart 0 false :: .childExit 1 :: rounds n

theorem reboot_iff_recent_servicemanager :
    ∃ s svc, Reach step (fun _ _ => True) (criticalBoot [0, 0, 200, 0, 10, 0, 10, 0, 10]) s ∧
      s.services = [svc] ∧ ((svc.reap 240).1 = .reboot ↔ 4 < recent svc.crashes 240) := by
  obtain ⟨s, reached, clock, fields⟩ : ∃ s, Reach step (fun _ _ => True)
      (criticalBoot [0, 0, 200, 0, 10, 0, 10, 0, 10]) s ∧ s.clock = 230 ∧ (s.services.map fun svc =>
        (svc.critical && svc.unrequested && !svc.oneshot, svc.crashes)) =
          [(true, [200, 210, 220, 230])] :=
    exists_run_of_replay (rounds 4) _ (by decide +kernel) fun _ _ => id
  obtain ⟨svc, services, flags⟩ := List.map_eq_singleton_iff.mp fields
  obtain ⟨flags, crashes⟩ := Prod.mk.inj flags
  obtain ⟨⟨critical, asked⟩, oneshot⟩ :
      (svc.critical = true ∧ svc.unrequested = true) ∧ svc.oneshot = false := by
    simpa using flags
  refine ⟨s, svc, reached, services, ?_⟩
  apply (reboot_iff_recent (by decide) reached (by simp [services]) critical asked
    (by rw [clock]; decide)).mpr
  rw [← List.nil_append [200, 210, 220, 230]] at crashes
  exact (steady_iff crashes).mpr fun _ => ⟨oneshot, by decide⟩

theorem straddling_exits_do_not_reboot :
    (guardedReplay step (fun _ _ => true)
        (criticalBoot [0, 0, 200, 0, 10, 0, 10, 0, 21, 0, 1]) (rounds 4)).map
          (fun s => s.services.map fun svc =>
            (svc.critical, svc.unrequested, recent svc.crashes 242, (svc.reap 242).1)) =
        some [(true, true, 5, .restarting)] ∧
      (guardedReplay step (fun _ _ => true)
        (criticalBoot [0, 0, 200, 0, 10, 0, 10, 0, 21, 0, 1]) (rounds 5)).map
          (fun s => (s.rebooting, s.services.map fun svc => svc.crashes)) =
        some (false, [[200, 210, 220, 241, 242]]) := by
  constructor
  · decide +kernel
  · decide +kernel

end AndroidBoot.Init.CriticalExits
