/- source: init/init/init.c, init/init/signal_handler.c
   digest: Facts about each service by itself, lifted from the service functions to runs of init. -/

import AndroidBoot.Init.Machine

set_option autoImplicit false

namespace AndroidBoot.Init.EachService

open State Properties Services Machine Foundation.Run

theorem alive_before {s t : InitState} (ends : s.rebooting = true → t.rebooting = true)
    (alive : t.rebooting = false) : s.rebooting = false := by
  by_contra reboots
  rw [ends (by simpa using reboots)] at alive
  cases alive

def Each (Q : Nat → Nat → Service → Prop) (s : InitState) : Prop :=
  ∀ i svc, s.services[i]? = some svc → Q s.clock i svc

/-- `Q` survives the calls of init on a service. -/
structure Calls (Q : Nat → Nat → Service → Prop) : Prop where
  later : ∀ c d i svc, c ≤ d → Q c i svc → Q d i svc
  start : ∀ now i svc haveConsole dynamicArgs pid, pid ≠ 0 → Q now i svc →
    Q now i (svc.start pid now (svc.outcome haveConsole dynamicArgs))
  stop : ∀ now i svc how, (how = .restart → svc.running = true) → Q now i svc →
    Q now i (svc.stopOrReset how)

namespace Calls

variable {Q : Nat → Nat → Service → Prop}

section

variable (calls : Calls Q)
include calls

theorem of_set {s t : InitState} {i : Nat} {svc : Service} (h : Each Q s)
    (services : t.services = s.services.set i svc) (clock : s.clock ≤ t.clock)
    (replaced : Q t.clock i svc) : Each Q t := by
  intro j other found
  rw [services, List.getElem?_set] at found
  split_ifs at found with same inside
  · cases found
    exact same ▸ replaced
  · exact calls.later _ _ _ _ clock (h j other found)

theorem quiet {s t : InitState} (quiet : InitState.Quiet s t) (h : Each Q s) : Each Q t := by
  intro i svc found
  rw [quiet.services] at found
  exact calls.later _ _ _ _ quiet.clock (h i svc found)

theorem serviceStart (s : InitState) (i : Nat) (dynamicArgs : Bool)
    (h : Each Q s) : Each Q (serviceStart s i dynamicArgs) := by
  cases found : s.services[i]? with
  | none =>
    rw [serviceStart_of_missing found]
    exact h
  | some svc =>
    obtain ⟨pid, now, nonzero, -, past, future, services⟩ := serviceStart_spec found dynamicArgs
    apply calls.of_set h services (Nat.le_trans past future)
    apply calls.later now _ _ _ future
    exact calls.start _ _ _ _ _ _ nonzero (calls.later _ _ _ _ past (h i svc found))

theorem serviceStopOrReset (s : InitState) (i : Nat) (how : How)
    (running : ∀ svc, s.services[i]? = some svc → how = .restart → svc.running = true)
    (h : Each Q s) :
    Each Q (serviceStopOrReset s i how) := by
  cases found : s.services[i]? with
  | none =>
    rw [serviceStopOrReset_of_missing found]
    exact h
  | some svc =>
    obtain ⟨future, services⟩ := serviceStopOrReset_spec found how
    apply calls.of_set h services future
    apply calls.later _ _ _ _ future
    exact calls.stop _ _ _ _ (running svc found) (h i svc found)

theorem keeps_unless : KeepsAny (fun _ => True) fun s => s.rebooting = false → Each Q s where
  ordinary := fun _ _ => trivial
  files := fun _ _ _ _ _ _ _ => trivial
  aside := fun _ _ aside h alive =>
    calls.quiet aside.toQuiet (h (alive_before aside.rebooting alive))
  write := fun s name value _ h alive =>
    have quiet := propertySet_quiet s name value
    calls.quiet quiet (h (alive_before quiet.rebooting alive))
  start := fun s i _ h alive =>
    calls.serviceStart s i false (h (alive_before (serviceStart_rebooting s i false) alive))
  stop := fun s i how fits h alive =>
    calls.serviceStopOrReset s i how (fun svc found => (fits svc found).2)
      (h (alive_before (serviceStopOrReset_rebooting s i how) alive))

theorem keeps : KeepsAny (fun _ => True) (Each Q) where
  ordinary := fun _ _ => trivial
  files := fun _ _ _ _ _ _ _ => trivial
  aside := fun _ _ aside h => calls.quiet aside.toQuiet h
  write := fun s name value _ h => calls.quiet (propertySet_quiet s name value) h
  start := fun s i _ h => calls.serviceStart s i false h
  stop := fun s i how fits h =>
    calls.serviceStopOrReset s i how (fun svc found => (fits svc found).2) h

end

end Calls

/-- `Q` survives the exit of a process too. -/
structure Kept (Q : Nat → Nat → Service → Prop) : Prop extends Calls Q where
  reap : ∀ now i svc, svc.pid ≠ 0 → Q now i svc → Q now i (svc.reap now).2

namespace Kept

variable {Q : Nat → Nat → Service → Prop}

theorem reaped (kept : Kept Q) {s : InitState} {i : Nat} {svc : Service}
    (found : s.services[i]? = some svc) (child : svc.pid ≠ 0) (h : Each Q s) :
    Each Q (reaped s i svc) := by
  obtain ⟨services, clock⟩ := reaped_services s i svc
  have later : s.clock ≤ s.gettime.1 := Nat.le_add_right _ _
  apply kept.toCalls.of_set h services (clock ▸ later)
  rw [clock]
  exact kept.reap _ _ _ child (kept.later _ _ _ _ later (h i svc found))

theorem handle (kept : Kept Q) {s : InitState} (event : Event) (h : Each Q s) :
    Each Q (handle s event) := by
  apply KeepsAny.handle kept.toCalls.keeps
  · exact fun s i h => kept.toCalls.serviceStart s i true h
  · exact fun i svc found child => kept.reaped found child h
  · exact h

variable {allowed : InitState → Event → Prop}

theorem reach (kept : Kept Q) {start s : InitState}
    (base : Each Q start) (run : Reach step allowed start s) : Each Q s := by
  refine run.invariant (Each Q) base ?_
  intro s event t h _ next
  obtain ⟨rfl, -⟩ := step_eq_some next
  exact kept.handle event h

theorem mem_reach {Q : Nat → Service → Prop} (kept : Kept fun now _ svc => Q now svc)
    (base : ∀ now svc, Fresh svc → Q now svc)
    {start s : InitState} (fresh : ∀ svc ∈ start.services, Fresh svc)
    (run : Reach step allowed start s) {svc : Service} (member : svc ∈ s.services) :
    Q s.clock svc := by
  obtain ⟨i, found⟩ := List.getElem?_of_mem member
  exact kept.reach (fun _ _ at_ => base _ _ (fresh _ (List.mem_of_getElem? at_))) run i svc found

end Kept

end AndroidBoot.Init.EachService
