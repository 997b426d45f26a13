/- source: ZygoteInit/ZygoteConnection.java
   digest: A request of an application never gives its child more than the application has. -/

import AndroidBoot.Zygote.SpawnRequest

set_option autoImplicit false

namespace AndroidBoot.Zygote.Confinement

open Foundation.JavaText SpawnArguments SpawnRequest

def Application (peer : Peer) : Prop := peer.uid ≠ 0 ∧ peer.uid ≠ systemUid

def Subset (set within : BitVec 64) : Prop := ~~~within &&& set = 0

theorem Subset.zero (within : BitVec 64) : Subset 0 within := by
  simp [Subset]

theorem Subset.trans {a b c : BitVec 64} (first : Subset a b) (second : Subset b c) :
    Subset a c := by
  ext i bound
  have one := congrArg (fun set : BitVec 64 => set.getLsbD i) first
  have two := congrArg (fun set : BitVec 64 => set.getLsbD i) second
  grind

/-- The child gets nothing that its application does not have. -/
structure Confined (world : World) (peer : Peer) (args : Arguments) : Prop where
  uid : args.uid = peer.uid
  gid : args.gid = peer.gid
  gids : args.gids = none
  rlimits : args.rlimits = none
  seInfo : args.seInfo = none
  permitted : Subset args.permittedCapabilities peer.permitted
  effective : Subset args.effectiveCapabilities peer.permitted
  invokeWith : args.invokeWith = none ∨
    ∃ name, text "wrap." <+: name ∧ args.invokeWith = some (world.property name)

section Policy

variable {world : World} {peer : Peer} {args out : Arguments}

section Application

variable (app : Application peer)
include app

theorem applyUidSecurityPolicy_application
    (passed : applyUidSecurityPolicy world peer args = .ok out) :
    args.gids = none ∧ out = { args with
      uid := peer.uid, uidSpecified := true, gid := peer.gid, gidSpecified := true } := by
  unfold applyUidSecurityPolicy at passed
  rw [if_neg fun system => app.2 system.1] at passed
  split at passed
  · cases passed
  · rename_i unspecified
    have none : ¬ (args.uidSpecified || args.gidSpecified || args.gids.isSome) := fun specified =>
      unspecified ⟨app.1, app.2, specified⟩
    rw [Bool.not_eq_true, Bool.or_eq_false_iff, Bool.or_eq_false_iff] at none
    obtain ⟨⟨noUid, noGid⟩, noGids⟩ := none
    rw [Option.isSome_eq_false_iff, Option.isNone_iff_eq_none] at noGids
    simp only [noUid, noGid, noGids, Bool.or_self, Option.isSome_none, Bool.false_eq_true,
      false_and, if_false, Except.ok.injEq] at passed
    refine ⟨noGids, ?_⟩
    rw [← passed, noGids]

theorem applyRlimitSecurityPolicy_application
    (passed : applyRlimitSecurityPolicy world peer args = .ok out) :
    args.rlimits = none ∧ out = args := by
  unfold applyRlimitSecurityPolicy at passed
  split at passed
  · cases passed
  · rename_i permitted
    have none : args.rlimits = none := by
      by_contra some
      exact permitted ⟨fun either => either.elim app.1 app.2, Option.isSome_iff_ne_none.mpr some⟩
    simp only [none, Option.isSome_none, Bool.false_eq_true, false_and, if_false,
      Except.ok.injEq] at passed
    exact ⟨none, passed.symm⟩

theorem applyCapabilitiesSecurityPolicy_application
    (passed : applyCapabilitiesSecurityPolicy world peer args = .ok out) :
    Subset args.permittedCapabilities peer.permitted ∧
      Subset args.effectiveCapabilities peer.permitted ∧ out = args := by
  unfold applyCapabilitiesSecurityPolicy at passed
  split at passed
  · rename_i empty
    rw [empty.1, empty.2]
    exact ⟨.zero _, .zero _, (Except.ok.inj passed).symm⟩
  · split at passed
    · cases passed
    · rw [if_neg app.1] at passed
      split at passed
      · cases passed
      · split at passed
        · cases passed
        · rename_i effective
          split at passed
          · cases passed
          · rename_i permitted
            have within : Subset args.permittedCapabilities peer.permitted := not_not.mp permitted
            have inner : Subset args.effectiveCapabilities args.permittedCapabilities :=
              not_not.mp effective
            exact ⟨within, inner.trans within, (Except.ok.inj passed).symm⟩

theorem applyInvokeWithSecurityPolicy_application
    (passed : applyInvokeWithSecurityPolicy world peer args = .ok out) :
    args.invokeWith = none ∧ out = args := by
  unfold applyInvokeWithSecurityPolicy at passed
  split at passed
  · cases passed
  · rename_i permitted
    refine ⟨?_, (Except.ok.inj passed).symm⟩
    by_contra some
    exact permitted ⟨Option.isSome_iff_ne_none.mpr some, .inl app.1⟩

theorem applyseInfoSecurityPolicy_application
    (passed : applyseInfoSecurityPolicy world peer args = .ok out) :
    args.seInfo = none ∧ out = args := by
  unfold applyseInfoSecurityPolicy at passed
  split at passed
  · rename_i none
    exact ⟨Option.isNone_iff_eq_none.mp none, (Except.ok.inj passed).symm⟩
  · rw [if_pos fun either => either.elim app.1 app.2] at passed
    cases passed

end Application

theorem wrapProperty_wrap (niceName : Text) : text "wrap." <+: wrapProperty niceName := by
  exact List.prefix_append _ _

theorem openPipe_unchanged (opened : openPipe world args = .ok out) : out = args := by
  unfold openPipe at opened
  split at opened
  · split at opened
    · cases opened
    · split at opened
      · cases opened
      · exact (Except.ok.inj opened).symm
  · exact (Except.ok.inj opened).symm

theorem Confined.properties (confined : Confined world peer args) (none : args.invokeWith = none) :
    Confined world peer
      (applyInvokeWithSystemProperty world (applyDebuggerSystemProperty world args)) := by
  have flags : Confined world peer (applyDebuggerSystemProperty world args) ∧
      (applyDebuggerSystemProperty world args).invokeWith = .none := by
    unfold applyDebuggerSystemProperty
    split
    · exact ⟨{ confined with }, none⟩
    · exact ⟨confined, none⟩
  generalize applyDebuggerSystemProperty world args = flagged at flags
  obtain ⟨confined, none⟩ := flags
  unfold applyInvokeWithSystemProperty
  split
  · rename_i niceName _ named
    refine { confined with invokeWith := ?_ }
    dsimp only
    split
    · exact .inl rfl
    · exact .inr ⟨_, wrapProperty_wrap niceName, rfl⟩
  · exact confined

theorem prepare_confined (app : Application peer) {request : List Text}
    (prepared : prepare world peer request = .ok out) : Confined world peer out := by
  obtain ⟨parsed, -, prepared⟩ := bind_passes prepared
  obtain ⟨owned, ids, prepared⟩ := bind_passes prepared
  obtain ⟨limited, limits, prepared⟩ := bind_passes prepared
  obtain ⟨capable, sets, prepared⟩ := bind_passes prepared
  obtain ⟨unwrapped, wrapper, prepared⟩ := bind_passes prepared
  obtain ⟨labelled, label, prepared⟩ := bind_passes prepared
  obtain ⟨noGids, rfl⟩ := applyUidSecurityPolicy_application app ids
  obtain ⟨noRlimits, rfl⟩ := applyRlimitSecurityPolicy_application app limits
  obtain ⟨permitted, effective, rfl⟩ := applyCapabilitiesSecurityPolicy_application app sets
  obtain ⟨noWrapper, rfl⟩ := applyInvokeWithSecurityPolicy_application app wrapper
  obtain ⟨noSeInfo, rfl⟩ := applyseInfoSecurityPolicy_application app label
  rw [openPipe_unchanged prepared]
  exact Confined.properties
    ⟨rfl, rfl, noGids, noRlimits, noSeInfo, permitted, effective, .inl noWrapper⟩ noWrapper

end Policy

/-- Whatever an application sends and the system answers, a child that is forked for it
has the application's own ids, no groups, limits or label, no capability beyond the
application's permitted set, and no wrapper command but one of a `wrap.` property. -/
theorem application_requests_confined (world : World) (connection : Connection) (args : Arguments)
    (app : connection.peer.uid ≠ 0 ∧ connection.peer.uid ≠ systemUid)
    (forked : (runOnce world connection).forked = some args) :
    Confined world connection.peer args := by
  unfold runOnce at forked
  split at forked
  · cases forked
  · cases forked
  · cases forked
  · rename_i request rest read
    dsimp only at forked
    split at forked
    · cases forked
    · split at forked
      · rename_i parsed prepared
        have confined := prepare_confined app prepared
        split at forked
        · cases forked
          exact confined
        · cases forked
          exact confined
      · split at forked
        · cases forked
        · cases forked

def permissive : World where
  otherDigits := fun _ => none
  descriptors := some none
  allowed := fun _ => true
  property := fun _ => []
  capget := true
  pipe := true
  setCloseOnExec := true
  fork := 7
  innerPid := none
  parents := fun _ => []
  replies := true

def applicationRequest : Connection where
  fd := 5
  peer := ⟨10001, 10001, 0⟩
  reader := ⟨text "1\nMain\n", .eof⟩
  closed := false

def wrapping : World :=
  { permissive with property := fun name =>
      if name = text "wrap.app" then text "logwrapper" else [] }

def wrappedRequest : Connection :=
  { applicationRequest with
    peer := ⟨10001, 10001, 3⟩
    reader := ⟨text "3\n--nice-name=app\n--capabilities=3,1\nMain\n", .eof⟩ }

theorem application_requests_confined_main :
    ∃ args, (runOnce wrapping wrappedRequest).forked = some args ∧
      args.effectiveCapabilities = 1 ∧ args.invokeWith = some (text "logwrapper") ∧
      Confined wrapping wrappedRequest.peer args := by
  have forked : (runOnce wrapping wrappedRequest).forked =
      some { uid := 10001, uidSpecified := true, gid := 10001, gidSpecified := true,
             niceName := some (text "app"), capabilitiesSpecified := true,
             permittedCapabilities := 3, effectiveCapabilities := 1,
             invokeWith := some (text "logwrapper"), remainingArgs := [text "Main"] } := by
    decide +kernel
  exact ⟨_, forked, rfl, rfl,
    application_requests_confined wrapping wrappedRequest _ (by decide) forked⟩

end AndroidBoot.Zygote.Confinement
