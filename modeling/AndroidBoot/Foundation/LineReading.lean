/- source: none
   digest: Decimal numbers and lines as they are read back, and a line buffer that is filled piece by piece. -/

import AndroidBoot.Foundation.JavaText
import Mathlib.Tactic.IntervalCases

set_option autoImplicit false

namespace AndroidBoot.Foundation.LineReading

open JavaText

section Decimal

def decimal (n : Nat) : Text := (Nat.toDigits 10 n).map unit

variable (n : Nat)

theorem decimal_eq :
    decimal n = (if n < 10 then [] else decimal (n / 10)) ++ [unit (Nat.digitChar (n % 10))] := by
  unfold decimal
  rw [Nat.toDigits_eq_if (by omega)]
  split
  · rename_i small
    rw [Nat.mod_eq_of_lt small, List.map_singleton, List.nil_append]
  · rw [List.map_append, List.map_singleton]

variable (others : OtherDigits)

theorem digit_digitChar : ∀ d < 10, digit others 10 (unit (Nat.digitChar d)) = some d := by
  intro d small
  interval_cases d <;> rfl

theorem decimal_ascii : ∀ c ∈ decimal n, 48 ≤ c.toNat ∧ c.toNat ≤ 57 := by
  have last : ∀ d < 10, 48 ≤ (unit (Nat.digitChar d)).toNat ∧
      (unit (Nat.digitChar d)).toNat ≤ 57 := by decide
  induction n using Nat.strongRecOn with
  | ind n ih =>
    intro c member
    rw [decimal_eq, List.mem_append, List.mem_singleton] at member
    rcases member with earlier | rfl
    · split at earlier
      · cases earlier
      · exact ih (n / 10) (by omega) c earlier
    · exact last (n % 10) (by omega)

theorem decimal_ne_nil : decimal n ≠ [] := by
  rw [decimal_eq]
  exact List.append_ne_nil_of_right_ne_nil _ (by simp)

theorem magnitude_decimal : magnitude others 10 (decimal n) = some n := by
  induction n using Nat.strongRecOn with
  | ind n ih =>
    rw [decimal_eq]
    have front : magnitude others 10 (if n < 10 then [] else decimal (n / 10)) =
        some (n / 10) := by
      split
      · have : n / 10 = 0 := by omega
        rw [this]
        rfl
      · exact ih (n / 10) (by omega)
    unfold magnitude at front ⊢
    rw [List.foldlM_append, front]
    simp only [Option.bind_eq_bind, Option.bind_some, List.foldlM_cons, List.foldlM_nil,
      digit_digitChar others (n % 10) (by omega), Option.map_some, Option.pure_def]
    congr 1
    omega

theorem stripSign_decimal : stripSign (decimal n) = (false, decimal n) := by
  have ascii := decimal_ascii n
  rcases digits : decimal n with _ | ⟨c, rest⟩
  · rfl
  · rw [digits] at ascii
    have first := ascii c List.mem_cons_self
    have minus : c ≠ unit '-' := by
      rintro rfl
      exact absurd first (by decide)
    have plus : c ≠ unit '+' := by
      rintro rfl
      exact absurd first (by decide)
    rw [stripSign, if_neg minus, if_neg plus]

theorem parseInt_decimal {n : Nat} (small : n < 2 ^ 31) :
    parseInt others (decimal n) = some (n : Int) := by
  unfold parseInt
  rw [stripSign_decimal]
  unfold signed
  rw [if_neg (decimal_ne_nil n), magnitude_decimal, Option.bind_some]
  simp only [Bool.false_eq_true, if_false]
  rw [if_pos]
  omega

end Decimal

section Lines

def OneLine (s : Text) : Prop := ∀ c ∈ s, isLineEnd c = false

theorem oneLine_nil : OneLine [] := nofun

theorem OneLine.append {s t : Text} (first : OneLine s) (second : OneLine t) : OneLine (s ++ t) :=
  List.forall_mem_append.mpr ⟨first, second⟩

theorem oneLine_decimal (n : Nat) : OneLine (decimal n) := by
  intro c member
  have ascii := decimal_ascii n c member
  have feed : c ≠ unit '\n' := by
    rintro rfl
    exact absurd ascii (by decide)
  have carriage : c ≠ unit '\r' := by
    rintro rfl
    exact absurd ascii (by decide)
  simp [isLineEnd, feed, carriage]

variable {s : Text}

theorem OneLine.any_eq_false (one : OneLine s) : s.any isLineEnd = false := by
  rw [List.any_eq_false]
  intro c member
  rw [one c member]
  exact Bool.false_ne_true

theorem oneLine_or_split (s : Text) :
    OneLine s ∨ ∃ t c rest, OneLine t ∧ isLineEnd c = true ∧ s = t ++ c :: rest := by
  induction s with
  | nil => exact .inl oneLine_nil
  | cons d s ih =>
    by_cases ends : isLineEnd d = true
    · exact .inr ⟨[], d, s, oneLine_nil, ends, rfl⟩
    have first : OneLine [d] := by
      intro c member
      rw [List.mem_singleton.mp member]
      simpa using ends
    rcases ih with one | ⟨t, c, rest, one, ended, rfl⟩
    · exact .inl (first.append one)
    · exact .inr ⟨d :: t, c, rest, first.append one, ended, rfl⟩

variable {c : UInt16}

section

variable (one : OneLine s)
include one

theorem OneLine.takeWhile (ends : isLineEnd c = true)
    (rest : Text) : (s ++ c :: rest).takeWhile (fun c => !isLineEnd c) = s := by
  rw [List.takeWhile_append_of_pos fun d member => by rw [one d member]; rfl,
    List.takeWhile_cons_of_neg (by simp [ends]), List.append_nil]

theorem OneLine.dropWhile (ends : isLineEnd c = true)
    (rest : Text) : (s ++ c :: rest).dropWhile (fun c => !isLineEnd c) = c :: rest := by
  rw [List.dropWhile_append_of_pos fun d member => by rw [one d member]; rfl,
    List.dropWhile_cons_of_neg (by simp [ends])]

theorem readLine_line (ended : isLineEnd c = true) (rest : Text) (ends : StreamEnd) :
    Reader.readLine ⟨s ++ c :: rest, ends⟩ = .line s ⟨afterLine (c :: rest), ends⟩ := by
  unfold Reader.readLine
  have found : (s ++ c :: rest).any isLineEnd = true := by simp [ended]
  rw [if_pos found, one.takeWhile ended, one.dropWhile ended]

theorem readLine_feed (rest : Text) (ends : StreamEnd) :
    Reader.readLine ⟨s ++ unit '\n' :: rest, ends⟩ = .line s ⟨rest, ends⟩ := by
  have feed : afterLine (unit '\n' :: rest) = rest := by
    have other : unit '\n' ≠ unit '\r' := by decide
    simp only [afterLine, if_neg other]
  rw [readLine_line one (by decide), feed]

end

/-- What a stream gives that ends before the line does. -/
def atEnd (s : Text) : StreamEnd → LineRead
  | .ioException => .ioException
  | .eof => if s = [] then .eof else .line s ⟨[], .eof⟩

theorem readLine_oneLine (one : OneLine s) (ends : StreamEnd) :
    Reader.readLine ⟨s, ends⟩ = atEnd s ends := by
  unfold Reader.readLine
  rw [if_neg (by simp [one.any_eq_false])]
  cases ends with
  | eof => rfl
  | ioException => rfl

theorem oneLine_of_readLine {reader rest : Reader}
    (read : reader.readLine = .line s rest) : OneLine s := by
  obtain ⟨pending, ends⟩ := reader
  rcases oneLine_or_split pending with one | ⟨t, c, later, one, ended, rfl⟩
  · rw [readLine_oneLine one] at read
    cases ends with
    | ioException => cases read
    | eof =>
      unfold atEnd at read
      dsimp only at read
      split at read
      · cases read
      · cases read
        exact one
  · rw [readLine_line one ended] at read
    cases read
    exact one

end Lines

section Buffer

def skip (skipLF : Bool) : Text → Text
  | [] => []
  | c :: rest => if skipLF ∧ c = unit '\n' then rest else c :: rest

/-- The buffer of a `BufferedReader`: the characters that it was filled with and that are
not yet read, and whether a line feed at their front is still to be left out. -/
structure LineBuffer where
  held : Text
  skipLF : Bool
  deriving DecidableEq

/-- What a look through the buffer finds: a line with its end, or only a part of one. -/
inductive Scan
  | line (s : Text) (rest : LineBuffer)
  | unfinished (s : Text)

def LineBuffer.scan (buffer : LineBuffer) : Scan :=
  let s := skip buffer.skipLF buffer.held
  match s.dropWhile fun c => !isLineEnd c with
  | [] => .unfinished s
  | c :: rest => .line (s.takeWhile fun c => !isLineEnd c) ⟨rest, c = unit '\r'⟩

/-- A line read through a buffer, with what is then left of the fills. -/
inductive BufferedRead
  | line (s : Text) (buffer : LineBuffer) (fills : List Text)
  | eof
  | ioException

/-- `readLine` with the part of the line that it has already: as long as the buffer has no
line end, it is filled anew with the next piece of the stream. -/
def LineBuffer.readLine (ends : StreamEnd) (s : Text) (buffer : LineBuffer) :
    List Text → BufferedRead
  | [] =>
    match buffer.scan with
    | .line t rest => .line (s ++ t) rest []
    | .unfinished t =>
      match ends with
      | .ioException => .ioException
      | .eof => if s ++ t = [] then .eof else .line (s ++ t) ⟨[], false⟩ []
  | fill :: fills =>
    match buffer.scan with
    | .line t rest => .line (s ++ t) rest (fill :: fills)
    | .unfinished t =>
      LineBuffer.readLine ends (s ++ t) ⟨fill, buffer.skipLF && buffer.held.isEmpty⟩ fills

def LineBuffer.reader (buffer : LineBuffer) (fills : List Text) (ends : StreamEnd) : Reader :=
  ⟨skip buffer.skipLF (buffer.held ++ fills.flatten), ends⟩

def BufferedRead.seen (ends : StreamEnd) : BufferedRead → LineRead
  | .line s buffer fills => .line s (buffer.reader fills ends)
  | .eof => .eof
  | .ioException => .ioException

theorem skip_false (s : Text) : skip false s = s := by
  cases s with
  | nil => rfl
  | cons c rest => simp [skip]

theorem skip_append (skipLF : Bool) (s more : Text) :
    skip skipLF (s ++ more) = skip skipLF s ++ skip (skipLF && s.isEmpty) more := by
  cases s with
  | nil => simp [skip]
  | cons c rest =>
    rw [List.isEmpty_cons, Bool.and_false, skip_false, List.cons_append, skip, skip]
    split
    · rfl
    · rfl

theorem afterLine_eq_skip (c : UInt16) (rest : Text) :
    afterLine (c :: rest) = skip (c = unit '\r') rest := by
  by_cases carriage : c = unit '\r'
  · cases rest with
    | nil => simp [afterLine, skip]
    | cons d more => simp [afterLine, skip, carriage]
  · simp [afterLine, carriage, skip_false]

theorem scan_cases (buffer : LineBuffer) :
    (∃ t c rest, OneLine t ∧ isLineEnd c = true ∧
      skip buffer.skipLF buffer.held = t ++ c :: rest ∧
      buffer.scan = .line t ⟨rest, c = unit '\r'⟩) ∨
    (OneLine (skip buffer.skipLF buffer.held) ∧
      buffer.scan = .unfinished (skip buffer.skipLF buffer.held)) := by
  unfold LineBuffer.scan
  rcases oneLine_or_split (skip buffer.skipLF buffer.held) with one | ⟨t, c, rest, one, ended, eq⟩
  · have through : (skip buffer.skipLF buffer.held).dropWhile (fun c => !isLineEnd c) = [] := by
      rw [List.dropWhile_eq_nil_iff]
      intro c member
      rw [one c member]
      rfl
    refine .inr ⟨one, ?_⟩
    simp only [through]
  · refine .inl ⟨t, c, rest, one, ended, eq, ?_⟩
    simp only [eq, one.takeWhile ended, one.dropWhile ended]

theorem readLine_seen (ends : StreamEnd) (fills : List Text) :
    ∀ (s : Text) (buffer : LineBuffer), OneLine s →
      Reader.readLine ⟨s ++ (buffer.reader fills ends).pending, ends⟩ =
        (buffer.readLine ends s fills).seen ends := by
  induction fills with
  | nil =>
    intro s buffer one
    unfold LineBuffer.reader
    rcases scan_cases buffer with ⟨t, c, rest, first, ended, held, scanned⟩ | ⟨part, scanned⟩
    · simp only [LineBuffer.readLine, scanned, BufferedRead.seen, LineBuffer.reader,
        List.flatten_nil, List.append_nil, held]
      rw [← List.append_assoc, readLine_line (one.append first) ended, afterLine_eq_skip]
    · simp only [LineBuffer.readLine, scanned, List.flatten_nil, List.append_nil]
      rw [readLine_oneLine (one.append part)]
      cases ends with
      | ioException => rfl
      | eof =>
        unfold atEnd
        dsimp only
        split
        · rfl
        · rfl
  | cons fill fills ih =>
    intro s buffer one
    unfold LineBuffer.reader
    rw [skip_append]
    rcases scan_cases buffer with ⟨t, c, rest, first, ended, held, scanned⟩ | ⟨part, scanned⟩
    · simp only [LineBuffer.readLine, scanned, BufferedRead.seen, LineBuffer.reader, held]
      have filled : buffer.held.isEmpty = false := by
        rcases empty : buffer.held with _ | ⟨d, more⟩
        · rw [empty] at held
          cases t with
          | nil | cons => cases held
        · rfl
      rw [filled, Bool.and_false, skip_false, List.append_assoc, List.cons_append,
        ← List.append_assoc, readLine_line (one.append first) ended, afterLine_eq_skip]
    · simp only [LineBuffer.readLine, scanned]
      rw [← ih _ _ (one.append part), ← List.append_assoc]
      rfl

end Buffer

end AndroidBoot.Foundation.LineReading
