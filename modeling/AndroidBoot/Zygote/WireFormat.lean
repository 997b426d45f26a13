/- source: ZygoteInit/ZygoteConnection.java
   digest: A request as it is sent, and which argument lists are read back from it. -/

import AndroidBoot.Foundation.LineReading
import AndroidBoot.Zygote.SpawnRequest

set_option autoImplicit false

namespace AndroidBoot.Zygote.WireFormat

open Foundation.JavaText Foundation.LineReading SpawnRequest

def terminated (s : Text) : Text := s ++ [unit '\n']

/-- A request as it is sent: the count of arguments, then the arguments. -/
def request (args : List Text) : Text :=
  terminated (decimal args.length) ++ args.flatMap terminated

theorem readLine_terminated {s : Text} (one : OneLine s) (later : Text) (ends : StreamEnd) :
    Reader.readLine ⟨terminated s ++ later, ends⟩ = .line s ⟨later, ends⟩ := by
  unfold terminated
  rw [List.append_assoc, List.singleton_append, readLine_feed one]

variable {args : List Text}

theorem readArguments_terminated (each : ∀ arg ∈ args, OneLine arg)
    (later : Text) (ends : StreamEnd) :
    readArguments args.length ⟨args.flatMap terminated ++ later, ends⟩ =
      .arguments args ⟨later, ends⟩ := by
  induction args with
  | nil => rfl
  | cons arg args ih =>
    obtain ⟨first, each⟩ := List.forall_mem_cons.mp each
    have others := ih each
    rw [List.length_cons, List.flatMap_cons, List.append_assoc]
    simp only [readArguments, readLine_terminated first, others]

theorem readArguments_succ {argc : Nat} {reader rest : Reader}
    (read : readArguments (argc + 1) reader = .arguments args rest) :
    ∃ first behind more, reader.readLine = .line first behind ∧
      readArguments argc behind = .arguments more rest ∧ args = first :: more := by
  unfold readArguments at read
  rcases line : reader.readLine with ⟨first, behind⟩ | _ | _
  · simp only [line] at read
    rcases others : readArguments argc behind with ⟨more, left⟩ | _ | _
    · simp only [others] at read
      cases read
      exact ⟨first, behind, more, rfl, others, rfl⟩
    · simp only [others] at read
      cases read
    · simp only [others] at read
      cases read
  · simp only [line] at read
    cases read
  · simp only [line] at read
    cases read

theorem oneLine_of_readArguments {argc : Nat} {reader rest : Reader}
    (read : readArguments argc reader = .arguments args rest) : ∀ arg ∈ args, OneLine arg := by
  induction argc generalizing reader rest args with
  | zero =>
    cases read
    exact nofun
  | succ argc ih =>
    obtain ⟨first, behind, more, line, others, rfl⟩ := readArguments_succ read
    exact List.forall_mem_cons.mpr ⟨oneLine_of_readLine line, ih others⟩

theorem readArgumentList_request (others : OtherDigits)
    (few : args.length ≤ maxZygoteArgc) (later : Text) (ends : StreamEnd) :
    readArgumentList others ⟨request args ++ later, ends⟩ =
      readArguments args.length ⟨args.flatMap terminated ++ later, ends⟩ := by
  unfold maxZygoteArgc at few
  have count : parseInt others (decimal args.length) = some (args.length : Int) :=
    parseInt_decimal others (by omega)
  unfold readArgumentList request
  rw [List.append_assoc, readLine_terminated (oneLine_decimal _)]
  simp only [count]
  unfold maxZygoteArgc
  rw [if_neg (by omega), if_neg (by omega), Int.toNat_natCast]

/-- Arguments without newlines are read back from their request, with the reader at what
follows, just when none of them has a carriage return. -/
theorem request_read_back_iff (others : OtherDigits) (args : List Text)
    (few : args.length ≤ maxZygoteArgc) (plain : ∀ arg ∈ args, unit '\n' ∉ arg) (later : Text)
    (ends : StreamEnd) :
    readArgumentList others ⟨request args ++ later, ends⟩ = .arguments args ⟨later, ends⟩ ↔
      ∀ arg ∈ args, unit '\r' ∉ arg := by
  rw [readArgumentList_request others few]
  constructor
  · intro read arg member carriage
    have ends := oneLine_of_readArguments read arg member _ carriage
    exact absurd ends (by decide)
  · intro whole
    apply readArguments_terminated
    intro arg member c inside
    have feed : c ≠ unit '\n' := fun eq => plain arg member (eq ▸ inside)
    have carriage : c ≠ unit '\r' := fun eq => whole arg member (eq ▸ inside)
    simp [isLineEnd, feed, carriage]

theorem request_read_back_twice :
    readArgumentList (fun _ => none)
      ⟨request [text "--setgid=5", text "Main"] ++ request [text "Other"], .eof⟩ =
      .arguments [text "--setgid=5", text "Main"] ⟨request [text "Other"], .eof⟩ :=
  (request_read_back_iff (fun _ => none) [text "--setgid=5", text "Main"] (by decide)
    (by decide +kernel) _ _).mpr (by decide +kernel)

deriving instance DecidableEq for ArgumentsRead

theorem carriage_return_splits :
    readArgumentList (fun _ => none)
      ⟨request [text "--nice-name=a\rb", text "Main"], .eof⟩ =
      .arguments [text "--nice-name=a", text "b"] ⟨text "Main\n", .eof⟩ := by
  decide +kernel

end AndroidBoot.Zygote.WireFormat
