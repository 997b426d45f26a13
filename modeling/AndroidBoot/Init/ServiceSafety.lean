/- source: init/init/init.c, init/init/signal_handler.c
   digest: The flags and the pid of every service agree, and no two services share a process. -/

import AndroidBoot.Init.EachService

set_option autoImplicit false

namespace AndroidBoot.Init.ServiceSafety

open State Properties Services Machine EachService Foundation.Run

/-- The flags agree with the pid and with each other. -/
def Coherent (svc : Service) : Prop :=
  (svc.pid ≠ 0 ↔ svc.running = true) ∧ ¬ (svc.running = true ∧ svc.restarting = true) ∧
    ¬ (svc.restarting = true ∧ (svc.disabled = true ∨ svc.reset = true))

/-- No two places in the list have one non-zero pid. -/
def DistinctPids (s : InitState) : Prop :=
  ∀ (i j : Nat) (a b : Service), s.services[i]? = some a → s.services[j]? = some b →
    a.pid = b.pid → a.pid ≠ 0 → i = j

variable {svc : Service}

theorem coherent_start {pid now : Nat} {haveConsole dynamicArgs : Bool}
    (nonzero : pid ≠ 0) (h : Coherent svc) :
    Coherent (svc.start pid now (svc.outcome haveConsole dynamicArgs)) := by
  obtain ⟨child, -, -⟩ := h
  have stopped : svc.running = false → svc.pid = 0 := by
    intro idle
    by_contra live
    simp [child.mp live] at idle
  cases running : svc.running with
  | true =>
    rw [Service.outcome_of_running running]
    simp_all [Coherent, Service.start, Service.cleared]
  | false =>
    cases svc.outcome haveConsole dynamicArgs <;>
      simp_all [Coherent, Service.start, Service.cleared]

theorem coherent_stopOrReset {how : How} (h : Coherent svc) : Coherent (svc.stopOrReset how) := by
  obtain ⟨child, -, -⟩ := h
  obtain ⟨disabled, reset, restart, killed⟩ := svc.stopOrReset_eq how
  rw [killed]
  simp [Coherent, child]

theorem coherent_reap {now : Nat} (child : svc.pid ≠ 0) (h : Coherent svc) :
    Coherent (svc.reap now).2 := by
  obtain ⟨pid, running, -⟩ := h
  have settled : svc.restarting = false := by
    by_contra restarting
    exact running ⟨pid.mp child, by simpa using restarting⟩
  obtain ⟨time, number, counted⟩ := (svc.exited now).counted_eq now
  rcases svc.reap_cases now with ⟨-, reaped⟩ | ⟨disabled, reset, reaped | reaped⟩
  · rw [reaped]
    simp [Coherent, Service.exited, settled]
  · rw [reaped, counted]
    simp [Coherent, Service.exited, settled]
  · rw [reaped, counted]
    have kept : (svc.exited now).reset = false := reset
    simp [Coherent, disabled, kept]
    simp [Service.exited]

theorem kept_coherent : Kept fun _ _ svc => Coherent svc where
  later := fun _ _ _ _ _ h => h
  start := fun _ _ _ _ _ _ nonzero h => coherent_start nonzero h
  stop := fun _ _ _ _ _ h => coherent_stopOrReset h
  reap := fun _ _ _ child h => coherent_reap child h

theorem distinctPids_of_set {s t : InitState} {i : Nat} {old new : Service}
    (found : s.services[i]? = some old) (services : t.services = s.services.set i new)
    (pid : new.pid = 0 ∨ new.pid = old.pid ∨ new.pid ∉ s.services.map Service.pid)
    (h : DistinctPids s) : DistinctPids t := by
  have alone : ∀ (j : Nat) (b : Service), s.services[j]? = some b → new.pid = b.pid →
      new.pid ≠ 0 → j = i := by
    intro j b at_j same nonzero
    rcases pid with none | kept | fresh
    · exact absurd none nonzero
    · exact h j i b old at_j found (same.symm.trans kept) (same ▸ nonzero)
    · exact absurd (same ▸ List.mem_map_of_mem (List.mem_of_getElem? at_j)) fresh
  intro j k a b at_j at_k same nonzero
  rw [services, List.getElem?_set] at at_j at_k
  split_ifs at at_j at_k with onJ inside onK onK
  · exact onJ.symm.trans onK
  · cases at_j
    exact onJ.symm.trans (alone k b at_k same nonzero).symm
  · cases at_k
    exact (alone j a at_j same.symm (same ▸ nonzero)).trans onK
  · exact h j k a b at_j at_k same nonzero

theorem start_pid (svc : Service) (pid now : Nat) (outcome : Service.Outcome) :
    (svc.start pid now outcome).pid = 0 ∨ (svc.start pid now outcome).pid = svc.pid ∨
      (svc.start pid now outcome).pid = pid := by
  cases outcome with
  | noFork => exact Or.inl rfl
  | launched wanted => exact Or.inr (Or.inr rfl)
  | alreadyRunning | refused | noContext => exact Or.inr (Or.inl rfl)

theorem stopOrReset_pid (svc : Service) (how : How) : (svc.stopOrReset how).pid = svc.pid := by
  obtain ⟨disabled, reset, restart, killed⟩ := svc.stopOrReset_eq how
  rw [killed]

theorem distinctPids_serviceStart (s : InitState) (i : Nat) (dynamicArgs : Bool)
    (h : DistinctPids s) : DistinctPids (serviceStart s i dynamicArgs) := by
  cases found : s.services[i]? with
  | none =>
    rw [serviceStart_of_missing found]
    exact h
  | some svc =>
    obtain ⟨pid, now, -, fresh, -, -, services⟩ := serviceStart_spec found dynamicArgs
    apply distinctPids_of_set found services _ h
    rcases start_pid svc pid now (svc.outcome s.haveConsole dynamicArgs) with none | kept | new
    · exact Or.inl none
    · exact Or.inr (Or.inl kept)
    · exact Or.inr (Or.inr (new.symm ▸ fresh))

theorem distinctPids_serviceStopOrReset (s : InitState) (i : Nat) (how : How)
    (h : DistinctPids s) : DistinctPids (serviceStopOrReset s i how) := by
  cases found : s.services[i]? with
  | none =>
    rw [serviceStopOrReset_of_missing found]
    exact h
  | some svc =>
    obtain ⟨-, services⟩ := serviceStopOrReset_spec found how
    exact distinctPids_of_set found services (Or.inr (Or.inl (stopOrReset_pid svc how))) h

theorem distinctPids_quiet {s t : InitState} (quiet : InitState.Quiet s t) (h : DistinctPids s) :
    DistinctPids t := by
  unfold DistinctPids
  rw [quiet.services]
  exact h

theorem keeps_distinctPids : KeepsAny (fun _ => True) DistinctPids where
  ordinary := fun _ _ => trivial
  files := fun _ _ _ _ _ _ _ => trivial
  aside := fun _ _ aside h => distinctPids_quiet aside.toQuiet h
  write := fun s name value _ h => distinctPids_quiet (propertySet_quiet s name value) h
  start := fun s i _ h => distinctPids_serviceStart s i false h
  stop := fun s i how _ h => distinctPids_serviceStopOrReset s i how h

theorem distinctPids_handle {s : InitState} (event : Event) (h : DistinctPids s) :
    DistinctPids (handle s event) := by
  apply KeepsAny.handle keeps_distinctPids
  · exact fun s i h => distinctPids_serviceStart s i true h
  · intro i svc found _
    exact distinctPids_of_set found (reaped_services s i svc).1 (Or.inl (svc.reap_exit _).pid) h
  · exact h

theorem coherent_of_fresh (fresh : Fresh svc) : Coherent svc := by
  obtain ⟨running, restarting, -, pid, -⟩ := fresh
  simp [Coherent, running, restarting, pid]

/-- In every run the flags and the pid of every service agree, and no two services have the
same process. -/
theorem services_coherent {start s : InitState} (fresh : ∀ svc ∈ start.services, Fresh svc)
    (run : Reach step (fun _ _ => True) start s) :
    (∀ svc ∈ s.services, Coherent svc) ∧ DistinctPids s := by
  constructor
  · intro svc
    exact kept_coherent.mem_reach (fun _ _ => coherent_of_fresh) fresh run
  · refine run.invariant DistinctPids ?_ ?_
    · intro i j a b at_i _ _ nonzero
      obtain ⟨-, -, -, pid, -⟩ := fresh a (List.mem_of_getElem? at_i)
      exact absurd pid nonzero
    · intro s event t h _ next
      obtain ⟨rfl, -⟩ := step_eq_some next
      exact distinctPids_handle event h

def surfaceflinger : Service :=
  { parseService "surfaceflinger".toList with onrestart := [.restart "zygote".toList] }

def zygote : Service := parseService "zygote".toList

theorem services_coherent_zygote :
    ∃ s, Reach step (fun _ _ => True) (booting [surfaceflinger, zygote] []) s ∧
      (s.services.map fun svc => (svc.pid, svc.running, svc.restarting)) =
        [(0, false, true), (2, true, false)] ∧
      (∀ svc ∈ s.services, Coherent svc) ∧ DistinctPids s :=
  exists_run_of_replay [.serviceStart 0 false, .serviceStart 1 false, .childExit 1]
    (fun s => (s.services.map fun svc => (svc.pid, svc.running, svc.restarting)) =
      [(0, false, true), (2, true, false)])
    (by decide +kernel) fun _ reached shape => ⟨shape, services_coherent (by decide) reached⟩

end AndroidBoot.Init.ServiceSafety
