/- source: ZygoteInit/ZygoteConnection.java, ZygoteInit.java
   digest: What a forked child does in `handleChildProc`, and which one gets back into the select loop. -/

import AndroidBoot.Zygote.Confinement
import AndroidBoot.Zygote.SelectLoop

/-!
The child loads its main class through a class loader, hands over to the runtime, or runs a
wrapper. The loaders and what lies outside of the two classes are a record of their own:
`WrapperInit` replaces the process image or throws, and `RuntimeInit` may also return.
-/

set_option autoImplicit false

namespace AndroidBoot.Zygote.ChildProcess

open Foundation.JavaText SpawnArguments SpawnRequest SelectLoop

inductive ClassLookup
  | classNotFound
  | noSuchMethod
  | securityException
  | method (isStatic isPublic : Bool)

/-- What `invokeStaticMain` throws; `RuntimeInit.zygoteInit` may also return. -/
inductive Start
  | methodAndArgsCaller (className : Text) (args : List Text)
  | runtimeException (message : Text)
  | returned

structure ChildSystem where
  loadClass : Option Text → Text → ClassLookup
  exec : Bool
  zygoteInit : Int → List Text → Start

inductive ChildEnding
  | methodAndArgsCaller (className : Text) (args : List Text)
  | replaced
  | thrown
  | returned

def invokeStaticMain (loader : Text → ClassLookup) (className : Text) (argv : List Text) : Start :=
  match loader className with
  | .classNotFound =>
    .runtimeException (text "Missing class when invoking static main " ++ className)
  | .noSuchMethod => .runtimeException (text "Missing static main on " ++ className)
  | .securityException => .runtimeException (text "Problem getting static main on " ++ className)
  | .method isStatic isPublic =>
    if !(isStatic && isPublic) then
      .runtimeException (text "Main method is not public and static on " ++ className)
    else .methodAndArgsCaller className argv

def execWrapper (system : ChildSystem) : ChildEnding :=
  if system.exec then .replaced else .thrown

/-- `handleChildProc` behind the closing of the sockets. An `IOException` of `reopenStdio` is
logged, but three descriptors must be there. -/
def handleChildProc (system : ChildSystem) (args : Arguments) (descriptors : Option (List Int)) :
    ChildEnding :=
  if descriptors.any fun fds => fds.length < 3 then .thrown
  else if args.runtimeInit then
    if args.invokeWith.isSome then execWrapper system
    else
      match system.zygoteInit args.targetSdkVersion args.remainingArgs with
      | .methodAndArgsCaller className argv => .methodAndArgsCaller className argv
      | .runtimeException _ => .thrown
      | .returned => .returned
  else
    match args.remainingArgs with
    | [] => .returned
    | className :: mainArgs =>
      if args.invokeWith.isSome then execWrapper system
      else
        match invokeStaticMain (system.loadClass args.classpath) className mainArgs with
        | .methodAndArgsCaller className argv => .methodAndArgsCaller className argv
        | .runtimeException _ | .returned => .returned

def runOnceInChild (system : ChildSystem) (world : World) (connection : Connection) :
    Option ChildEnding :=
  match (runOnce world connection).ending with
  | .child args => some (handleChildProc system args world.descriptors.join)
  | _ => none

def loopInChild (system : ChildSystem) (loop : Loop) (index : Nat) (world : World)
    (connection : Connection) : Option Loop :=
  match runOnceInChild system world connection with
  | some .returned => some (removePeer loop index)
  | _ => none

def Startable (system : ChildSystem) (args : Arguments) : Prop :=
  if args.runtimeInit then
    args.invokeWith.isSome ∨
      system.zygoteInit args.targetSdkVersion args.remainingArgs ≠ .returned
  else
    ∃ className mainArgs, args.remainingArgs = className :: mainArgs ∧
      (args.invokeWith.isSome ∨ system.loadClass args.classpath className = .method true true)

section Child

variable {system : ChildSystem} {args : Arguments}

theorem execWrapper_ne_returned : execWrapper system ≠ .returned := by
  unfold execWrapper
  split
  · exact nofun
  · exact nofun

theorem invokeStaticMain_cases (loader : Text → ClassLookup) (className : Text)
    (argv : List Text) :
    (loader className = .method true true ∧
      invokeStaticMain loader className argv = .methodAndArgsCaller className argv) ∨
    (loader className ≠ .method true true ∧
      ∃ message, invokeStaticMain loader className argv = .runtimeException message) := by
  unfold invokeStaticMain
  rcases loader className with _ | _ | _ | ⟨_ | _, _ | _⟩
  case method.true.true => exact .inl ⟨rfl, rfl⟩
  all_goals exact .inr ⟨nofun, _, rfl⟩

theorem runtime_ne_returned_iff (started : args.runtimeInit = true) :
    handleChildProc system args none ≠ .returned ↔ Startable system args := by
  unfold handleChildProc Startable
  rw [if_neg (by simp), if_pos started, if_pos started]
  split_ifs with wrapped
  · exact iff_of_true execWrapper_ne_returned (.inl wrapped)
  rcases system.zygoteInit args.targetSdkVersion args.remainingArgs with _ | _ | _
  · exact iff_of_true nofun (.inr nofun)
  · exact iff_of_true nofun (.inr nofun)
  · refine iff_of_false (fun other => other rfl) ?_
    rintro (asked | other)
    · exact wrapped asked
    · exact other rfl

theorem standalone_ne_returned_iff (plain : ¬ args.runtimeInit = true) :
    handleChildProc system args none ≠ .returned ↔ Startable system args := by
  unfold handleChildProc Startable
  rw [if_neg (by simp), if_neg plain, if_neg plain]
  rcases args.remainingArgs with _ | ⟨className, mainArgs⟩
  · exact iff_of_false (fun other => other rfl) nofun
  dsimp only
  split_ifs with wrapped
  · exact iff_of_true execWrapper_ne_returned ⟨className, mainArgs, rfl, .inl wrapped⟩
  obtain ⟨found, throws⟩ | ⟨missing, message, throws⟩ :=
    invokeStaticMain_cases (system.loadClass args.classpath) className mainArgs
  · rw [throws]
    exact iff_of_true nofun ⟨className, mainArgs, rfl, .inr found⟩
  · rw [throws]
    refine iff_of_false (fun other => other rfl) ?_
    rintro ⟨name, others, same, asked | found⟩
    · exact wrapped asked
    · cases same
      exact missing found

theorem handleChildProc_ne_returned_iff (descriptors : Option (List Int)) :
    handleChildProc system args descriptors ≠ .returned ↔
      (∃ fds, descriptors = some fds ∧ fds.length < 3) ∨ Startable system args := by
  have inherited : handleChildProc system args none ≠ .returned ↔ Startable system args := by
    by_cases started : args.runtimeInit = true
    · exact runtime_ne_returned_iff started
    · exact standalone_ne_returned_iff started
  rcases descriptors with _ | fds
  · rw [inherited]
    exact ⟨.inr, fun either => either.resolve_left nofun⟩
  by_cases short : fds.length < 3
  · have thrown : handleChildProc system args (some fds) = .thrown := if_pos (by simpa using short)
    rw [thrown]
    exact iff_of_true nofun (.inl ⟨fds, rfl, short⟩)
  · have same : handleChildProc system args (some fds) = handleChildProc system args none := by
      have enough : ¬ ((some fds).any fun fds => fds.length < 3) = true := by simpa using short
      exact (if_neg enough).trans (if_neg (by simp)).symm
    rw [same, inherited]
    refine ⟨.inr, fun either => either.resolve_left ?_⟩
    rintro ⟨others, eq, few⟩
    cases eq
    exact short few

end Child

/-- In the child of a request `runOnce` does not return, and the select loop does not go on:
this holds just when there are too few descriptors for its stdio, or it has something to
run. -/
theorem child_leaves_loop_iff (system : ChildSystem) (world : World) (connection : Connection)
    (args : Arguments) (forks : (runOnce world connection).ending = .child args) :
    (runOnceInChild system world connection ≠ some .returned ∧
      ∀ loop index, loopInChild system loop index world connection = none) ↔
    (∃ fds, world.descriptors = some (some fds) ∧ fds.length < 3) ∨ Startable system args := by
  have ending : runOnceInChild system world connection =
      some (handleChildProc system args world.descriptors.join) := by
    simp only [runOnceInChild, forks]
  have given (fds : List Int) :
      world.descriptors.join = some fds ↔ world.descriptors = some (some fds) := by
    simp [Option.join_eq_some_iff]
  have returned : handleChildProc system args world.descriptors.join ≠ .returned ↔
      (∃ fds, world.descriptors = some (some fds) ∧ fds.length < 3) ∨ Startable system args := by
    rw [handleChildProc_ne_returned_iff]
    simp only [given]
  rw [← returned]
  constructor
  · rintro ⟨leaves, -⟩ eq
    exact leaves (by rw [ending, eq])
  · intro leaves
    have other : runOnceInChild system world connection ≠ some .returned := by
      rw [ending]
      exact fun eq => leaves (Option.some.inj eq)
    refine ⟨other, fun loop index => ?_⟩
    unfold loopInChild
    split
    · rename_i eq
      exact absurd eq other
    · rfl

def complete : ChildSystem where
  loadClass := fun _ _ => .method true true
  exec := true
  zygoteInit := fun _ args => .methodAndArgsCaller (args.headD []) args.tail

def inChild : World := { Confinement.permissive with fork := 0 }

theorem child_leaves_loop_iff_main :
    runOnceInChild complete inChild Confinement.applicationRequest ≠ some .returned :=
  ((child_leaves_loop_iff complete inChild Confinement.applicationRequest
    { uid := 10001, uidSpecified := true, gid := 10001, gidSpecified := true,
      remainingArgs := [text "Main"] } (by decide +kernel)).mpr
    (.inr ⟨text "Main", [], rfl, .inr rfl⟩)).1

theorem child_without_class_stays :
    let connection := { Confinement.applicationRequest with reader := ⟨text "0\n", .eof⟩ }
    let loop : Loop := ⟨[3, 5], [none, some connection], [some 3, some 5, none, none]⟩
    runOnceInChild complete inChild connection = some .returned ∧
      loopInChild complete loop 1 inChild connection =
        some ⟨[3], [none], [some 3, some 5, none, none]⟩ :=
  ⟨rfl, rfl⟩

end AndroidBoot.Zygote.ChildProcess
