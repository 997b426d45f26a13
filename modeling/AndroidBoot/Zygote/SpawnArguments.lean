/- source: ZygoteInit/ZygoteConnection.java
   digest: The arguments of a spawn request and their parser. -/

import AndroidBoot.Foundation.JavaText
import Mathlib.Data.Finset.Insert

set_option autoImplicit false

namespace AndroidBoot.Zygote.SpawnArguments

open Foundation.JavaText

inductive Thrown
  | io (message : String)
  | errno
  | illegalArgument (message : String)
  | numberFormat
  | security (message : String)
  | negativeArraySize
  deriving DecidableEq

section Exceptions

variable {ε α β : Type} {x : Except ε α} {f : α → Except ε β}

theorem bind_passes {result : β} (passed : (x >>= f) = .ok result) :
    ∃ value, x = .ok value ∧ f value = .ok result := by
  cases x with
  | error exception => cases passed
  | ok value => exact ⟨value, rfl, passed⟩

theorem bind_throws {exception : ε} (thrown : (x >>= f) = .error exception) :
    x = .error exception ∨ ∃ value, x = .ok value ∧ f value = .error exception := by
  cases x with
  | error other => exact .inl (by cases thrown; rfl)
  | ok value => exact .inr ⟨value, rfl, thrown⟩

end Exceptions

inductive Mount
  | none
  | multiuser
  | multiuserAll
  deriving DecidableEq

/-- The flags that are or-ed together; their values are not part of these sources. -/
inductive DebugFlag
  | debugger
  | safemode
  | checkjni
  | jniLogging
  | assert
  deriving DecidableEq

/-- `Arguments`; `none` is `null`. -/
structure Arguments where
  uid : Int := 0
  uidSpecified : Bool := false
  gid : Int := 0
  gidSpecified : Bool := false
  gids : Option (List Int) := none
  debugFlags : Finset DebugFlag := ∅
  mountExternal : Mount := .none
  targetSdkVersion : Int := 0
  targetSdkVersionSpecified : Bool := false
  classpath : Option Text := none
  runtimeInit : Bool := false
  niceName : Option Text := none
  capabilitiesSpecified : Bool := false
  permittedCapabilities : BitVec 64 := 0
  effectiveCapabilities : BitVec 64 := 0
  seInfoSpecified : Bool := false
  seInfo : Option Text := none
  rlimits : Option (List (List Int)) := none
  invokeWith : Option Text := none
  remainingArgs : List Text := []
  deriving DecidableEq

def valueOf (arg : Text) : Text := (arg.dropWhile (· ≠ unit '=')).drop 1

def startsWith (arg : Text) (start : String) : Bool := (text start).isPrefixOf arg

def parseIntArg (others : OtherDigits) (s : Text) : Except Thrown Int :=
  match parseInt others s with
  | some value => .ok value
  | none => .error .numberFormat

def decodeLongArg (others : OtherDigits) (s : Text) : Except Thrown (BitVec 64) :=
  match decodeLong others s with
  | some value => .ok (BitVec.ofInt 64 value)
  | none => .error .numberFormat

def once {α : Type} (specified : Bool) (message : String) (parse : Except Thrown α) :
    Except Thrown α :=
  if specified then .error (.illegalArgument message) else parse

def parseCapabilities (others : OtherDigits) (value : Text) :
    Except Thrown (BitVec 64 × BitVec 64) :=
  match splitTwo (unit ',') value with
  | [both] => (decodeLongArg others both).map fun set => (set, set)
  | permitted :: effective :: _ => do
      let permitted ← decodeLongArg others permitted
      let effective ← decodeLongArg others effective
      return (permitted, effective)
  | [] => .error .numberFormat

def parseRlimit (others : OtherDigits) (value : Text) : Except Thrown (List Int) :=
  if (split (unit ',') value).length ≠ 3 then
    .error (.illegalArgument "--rlimit= should have 3 comma-delimited ints")
  else (split (unit ',') value).mapM (parseIntArg others)

def finish (args : Arguments) (remaining : List Text) : Except Thrown Arguments :=
  if args.runtimeInit && args.classpath.isSome then
    .error (.illegalArgument "--runtime-init and -classpath are incompatible")
  else .ok { args with remainingArgs := remaining }

/-- The options that stand in one argument; `none` ends the options. -/
def parseOption (others : OtherDigits) (args : Arguments) (arg : Text) :
    Option (Except Thrown Arguments) :=
  if startsWith arg "--setuid=" then
    some <| once args.uidSpecified "Duplicate arg specified" <|
      (parseIntArg others (valueOf arg)).map fun uid => { args with uidSpecified := true, uid }
  else if startsWith arg "--setgid=" then
    some <| once args.gidSpecified "Duplicate arg specified" <|
      (parseIntArg others (valueOf arg)).map fun gid => { args with gidSpecified := true, gid }
  else if startsWith arg "--target-sdk-version=" then
    some <| once args.targetSdkVersionSpecified "Duplicate target-sdk-version specified" <|
      (parseIntArg others (valueOf arg)).map fun targetSdkVersion =>
        { args with targetSdkVersionSpecified := true, targetSdkVersion }
  else if arg = text "--enable-debugger" then
    some (.ok { args with debugFlags := insert .debugger args.debugFlags })
  else if arg = text "--enable-safemode" then
    some (.ok { args with debugFlags := insert .safemode args.debugFlags })
  else if arg = text "--enable-checkjni" then
    some (.ok { args with debugFlags := insert .checkjni args.debugFlags })
  else if arg = text "--enable-jni-logging" then
    some (.ok { args with debugFlags := insert .jniLogging args.debugFlags })
  else if arg = text "--enable-assert" then
    some (.ok { args with debugFlags := insert .assert args.debugFlags })
  else if arg = text "--runtime-init" then
    some (.ok { args with runtimeInit := true })
  else if startsWith arg "--seinfo=" then
    some <| once args.seInfoSpecified "Duplicate arg specified" <|
      .ok { args with seInfoSpecified := true, seInfo := some (valueOf arg) }
  else if startsWith arg "--capabilities=" then
    some <| once args.capabilitiesSpecified "Duplicate arg specified" <|
      (parseCapabilities others (valueOf arg)).map fun sets =>
        { args with
          capabilitiesSpecified := true
          permittedCapabilities := sets.1
          effectiveCapabilities := sets.2 }
  else if startsWith arg "--rlimit=" then
    some <| (parseRlimit others (valueOf arg)).map fun limit =>
      { args with rlimits := some (args.rlimits.getD [] ++ [limit]) }
  else if startsWith arg "--setgroups=" then
    some <| once args.gids.isSome "Duplicate arg specified" <|
      ((split (unit ',') (valueOf arg)).mapM (parseIntArg others)).map fun gids =>
        { args with gids := some gids }
  else if startsWith arg "--nice-name=" then
    some <| once args.niceName.isSome "Duplicate arg specified" <|
      .ok { args with niceName := some (valueOf arg) }
  else if arg = text "--mount-external-multiuser" then
    some (.ok { args with mountExternal := .multiuser })
  else if arg = text "--mount-external-multiuser-all" then
    some (.ok { args with mountExternal := .multiuserAll })
  else none

/-- `parseArgs`. Of the two options that take the next argument and the ones that stand
in one, no argument is both. -/
def parseArgs (others : OtherDigits) : Arguments → List Text → Except Thrown Arguments
  | args, [] => finish args []
  | args, arg :: rest =>
    if arg = text "--" then finish args rest
    else if arg = text "-classpath" then
      if args.classpath.isSome then .error (.illegalArgument "Duplicate arg specified")
      else
        match rest with
        | [] => .error (.illegalArgument "-classpath requires argument")
        | value :: rest => parseArgs others { args with classpath := some value } rest
    else if arg = text "--invoke-with" then
      if args.invokeWith.isSome then .error (.illegalArgument "Duplicate arg specified")
      else
        match rest with
        | [] => .error (.illegalArgument "--invoke-with requires argument")
        | value :: rest => parseArgs others { args with invokeWith := some value } rest
    else
      match parseOption others args arg with
      | none => finish args (arg :: rest)
      | some (.error thrown) => .error thrown
      | some (.ok args) => parseArgs others args rest

end AndroidBoot.Zygote.SpawnArguments
