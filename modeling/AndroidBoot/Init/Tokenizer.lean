/- source: init/init/parser.c, init/init/parser.h
   digest: The tokens of an rc file, taken out of its text in place. -/

import AndroidBoot.Init.State

/-!
`next_token` writes a token over the text it comes from: it reads at `x` and writes at `s`, which
stays behind. The loops have fuel; twice the length of the text and a little more is always enough.
-/

set_option autoImplicit false

namespace AndroidBoot.Init.Tokenizer

open Function

open State (Text)

inductive Token where
  | eof | text | newline
  deriving DecidableEq, Repr

/-- The fields of `struct parse_state` that `next_token` uses, and the memory. -/
structure Parse where
  mem : Nat → Char
  ptr : Nat
  text : Nat
  line : Nat
  nexttoken : Option Token

def nul : Char := '\x00'

def blank (c : Char) : Bool := c = ' ' || c = '\t' || c = '\r'

section Memory

def endOfComment (mem : Nat → Char) : Nat → Nat → Option Nat
  | 0, _ => none
  | fuel + 1, x =>
    if mem x ≠ nul ∧ mem x ≠ '\n' then endOfComment mem fuel (x + 1) else some x

/-- The first loop of `next_token`; `text` is the `goto text`. -/
def skip (mem : Nat → Char) : Nat → Nat → Option (Token × Nat)
  | 0, _ => none
  | fuel + 1, x =>
    if mem x = nul then some (.eof, x)
    else if mem x = '\n' then some (.newline, x + 1)
    else if blank (mem x) then skip mem fuel (x + 1)
    else if mem x = '#' then
      (endOfComment mem fuel x).map fun x =>
        if mem x = '\n' then (.newline, x + 1) else (.eof, x)
    else some (.text, x)

/-- Where the code after `text` is: at `textresume`, in the loop over a quoted part, or in the
loop that eats the blanks of a continued line. -/
inductive Mode where
  | resume | quoted | eating
  deriving DecidableEq, Repr

structure Scan where
  mem : Nat → Char
  x : Nat
  s : Nat
  line : Nat
  mode : Mode

/-- How the token ends: at `textdone`, with the token to return next, or unterminated. -/
inductive Stop where
  | done (nexttoken : Option Token)
  | unterminated
  deriving DecidableEq, Repr

def Scan.put (c : Scan) (a : Char) : Scan :=
  { c with mem := update c.mem c.s a, s := c.s + 1 }

def Scan.copy (c : Scan) : Scan := { c.put (c.mem c.x) with x := c.x + 1 }

/-- The inner `switch` for a backslash, with `x` behind it. After `\n`, `\r`, `\t` and `\\` the
source does not advance `x`. -/
def Scan.escape (c : Scan) : Scan ⊕ (Stop × Scan) :=
  if c.mem c.x = nul then .inr (.done none, c)
  else if c.mem c.x = 'n' then .inl (c.put '\n')
  else if c.mem c.x = 'r' then .inl (c.put '\r')
  else if c.mem c.x = 't' then .inl (c.put '\t')
  else if c.mem c.x = '\\' then .inl (c.put '\\')
  else if c.mem c.x = '\r' ∧ c.mem (c.x + 1) ≠ '\n' then .inl { c with x := c.x + 1 }
  else if c.mem c.x = '\r' ∨ c.mem c.x = '\n' then
    .inl { c with x := c.x + 1, line := c.line + 1, mode := .eating }
  else .inl c.copy

/-- One round of the loops after `text`. -/
def Scan.step (c : Scan) : Scan ⊕ (Stop × Scan) :=
  match c.mode with
  | .resume =>
    if c.mem c.x = nul then .inr (.done none, c)
    else if blank (c.mem c.x) then .inr (.done none, { c with x := c.x + 1 })
    else if c.mem c.x = '\n' then .inr (.done (some .newline), { c with x := c.x + 1 })
    else if c.mem c.x = '"' then .inl { c with x := c.x + 1, mode := .quoted }
    else if c.mem c.x = '\\' then Scan.escape { c with x := c.x + 1 }
    else .inl c.copy
  | .quoted =>
    if c.mem c.x = nul then .inr (.unterminated, c)
    else if c.mem c.x = '"' then .inl { c with x := c.x + 1, mode := .resume }
    else .inl c.copy
  | .eating =>
    if c.mem c.x = ' ' ∨ c.mem c.x = '\t' then .inl { c with x := c.x + 1 }
    else .inl { c with mode := .resume }

def scan : Nat → Scan → Option (Stop × Scan)
  | 0, _ => none
  | fuel + 1, c =>
    match c.step with
    | .inl c => scan fuel c
    | .inr result => some result

def nextToken (fuel : Nat) (p : Parse) : Option (Token × Parse) :=
  match p.nexttoken with
  | some token => some (token, { p with nexttoken := none })
  | none =>
    match skip p.mem fuel p.ptr with
    | none => none
    | some (.text, x) =>
      (scan fuel ⟨p.mem, x, x, p.line, .resume⟩).map fun result =>
        match result with
        | (.done nexttoken, c) =>
          (.text, ⟨update c.mem c.s nul, c.x, x, c.line, nexttoken⟩)
        | (.unterminated, c) => (.eof, ⟨c.mem, c.x, x, c.line, none⟩)
    | some (token, x) => some (token, { p with ptr := x })

end Memory

section Listed

def skipText : Text → Token × Text
  | [] => (.eof, [])
  | c :: rest =>
    if c = '\n' then (.newline, rest)
    else if blank c then skipText rest
    else if c = '#' then
      match (c :: rest).dropWhile (· ≠ '\n') with
      | [] => (.eof, [])
      | _ :: rest => (.newline, rest)
    else (.text, c :: rest)

/-- One round of the loops after `text`, on the text that is left. -/
inductive Move where
  | push (a : Char) (mode : Mode) (rest : Text)
  | go (mode : Mode) (rest : Text)
  | stop (how : Stop) (rest : Text)

def escaped : Text → Move
  | [] => .stop (.done none) []
  | d :: more =>
    if d = 'n' then .push '\n' .resume (d :: more)
    else if d = 'r' then .push '\r' .resume (d :: more)
    else if d = 't' then .push '\t' .resume (d :: more)
    else if d = '\\' then .push '\\' .resume (d :: more)
    else if d = '\r' ∧ more.head? ≠ some '\n' then .go .resume more
    else if d = '\r' ∨ d = '\n' then .go .eating more
    else .push d .resume more

def move : Mode → Text → Move
  | .resume, [] => .stop (.done none) []
  | .resume, c :: rest =>
    if blank c then .stop (.done none) rest
    else if c = '\n' then .stop (.done (some .newline)) rest
    else if c = '"' then .go .quoted rest
    else if c = '\\' then escaped rest
    else .push c .resume rest
  | .quoted, [] => .stop .unterminated []
  | .quoted, c :: rest => if c = '"' then .go .resume rest else .push c .quoted rest
  | .eating, [] => .go .resume []
  | .eating, c :: rest =>
    if c = ' ' ∨ c = '\t' then .go .eating rest else .go .resume (c :: rest)

def weight : Mode → Text → Nat
  | .eating, rest => 2 * rest.length + 1
  | _, rest => 2 * rest.length

def Move.Within (n : Nat) : Move → Prop
  | .push _ mode rest => weight mode rest < n
  | .go mode rest => weight mode rest < n
  | .stop _ _ => True

def Move.Shortens (n : Nat) : Move → Prop
  | .push _ _ rest => rest.length ≤ n
  | .go _ rest => rest.length ≤ n
  | .stop how rest => rest.length ≤ n ∧ how ≠ .done (some .text)

theorem Move.Shortens.mono {n m : Nat} {next : Move} (shortens : next.Shortens n) (more : n ≤ m) :
    next.Shortens m := by
  cases next with
  | push | go => exact Nat.le_trans shortens more
  | stop how rest => exact shortens.imp_left (Nat.le_trans · more)

theorem Move.Shortens.within {n : Nat} {next : Move} (shortens : next.Shortens n) :
    next.Within (2 * (n + 1)) := by
  have weight_le (mode : Mode) (rest : Text) : weight mode rest ≤ 2 * rest.length + 1 := by
    cases mode <;> simp [weight]
  cases next with
  | push _ mode rest | go mode rest =>
    have heavy := weight_le mode rest
    simp only [Move.Shortens, Move.Within] at shortens ⊢
    omega
  | stop => trivial

theorem escaped_shortens (rest : Text) : (escaped rest).Shortens rest.length := by
  cases rest with
  | nil => exact ⟨Nat.le_refl _, by decide⟩
  | cons d more =>
    rw [escaped]
    repeat' split
    all_goals
      simp only [Move.Shortens, List.length_cons]
      omega

theorem move_resume_shortens (c : Char) (rest : Text) :
    (move .resume (c :: rest)).Shortens rest.length := by
  have escape := escaped_shortens rest
  rw [move]
  repeat' split
  · exact ⟨Nat.le_refl _, by decide⟩
  · exact ⟨Nat.le_refl _, by decide⟩
  · exact Nat.le_refl _
  · exact escape
  · exact Nat.le_refl _

theorem move_within (mode : Mode) (rest : Text) : (move mode rest).Within (weight mode rest) := by
  cases mode with
  | resume =>
    cases rest with
    | nil => trivial
    | cons c rest => exact (move_resume_shortens c rest).within
  | quoted | eating =>
    cases rest with
    | nil => simp [move, Move.Within, weight]
    | cons c rest =>
      rw [move]
      split
      all_goals
        simp only [Move.Within, weight, List.length_cons]
        omega

def scanText (mode : Mode) (rest : Text) : Text × Stop × Text :=
  match _next : move mode rest with
  | .push a mode' rest' =>
    let more := scanText mode' rest'
    (a :: more.1, more.2)
  | .go mode' rest' => scanText mode' rest'
  | .stop how rest' => ([], how, rest')
termination_by weight mode rest
decreasing_by
  all_goals
    have within := move_within mode rest
    rw [_next] at within
    exact within

structure Lexed where
  token : Token
  text : Text
  nexttoken : Option Token
  rest : Text

/-- `next_token`, on the text that is left. -/
def lexOne (nexttoken : Option Token) (rest : Text) : Lexed :=
  match nexttoken with
  | some token => ⟨token, [], none, rest⟩
  | none =>
    match skipText rest with
    | (.text, rest) =>
      match scanText .resume rest with
      | (out, .done nexttoken, rest) => ⟨.text, out, nexttoken, rest⟩
      | (_, .unterminated, rest) => ⟨.eof, [], none, rest⟩
    | (token, rest) => ⟨token, [], none, rest⟩

theorem scanText_eq (mode : Mode) (rest : Text) :
    scanText mode rest =
      match move mode rest with
      | .push a mode' rest' => (a :: (scanText mode' rest').1, (scanText mode' rest').2)
      | .go mode' rest' => scanText mode' rest'
      | .stop how rest' => ([], how, rest') := by
  rw [scanText]
  split
  all_goals
    rename_i same
    rw [same]

theorem move_shortens (mode : Mode) (rest : Text) : (move mode rest).Shortens rest.length := by
  cases mode with
  | resume =>
    cases rest with
    | nil => exact ⟨Nat.le_refl _, by decide⟩
    | cons c rest => exact (move_resume_shortens c rest).mono (Nat.le_succ _)
  | quoted | eating =>
    cases rest with
    | nil => simp [move, Move.Shortens]
    | cons c rest =>
      rw [move]
      split <;> simp [Move.Shortens]

theorem scanText_shortens (n : Nat) (mode : Mode) (rest : Text) (small : weight mode rest < n) :
    (scanText mode rest).2.2.length ≤ rest.length ∧
      (scanText mode rest).2.1 ≠ .done (some .text) := by
  induction n generalizing mode rest with
  | zero => exact absurd small (Nat.not_lt_zero _)
  | succ n ih =>
    have within := move_within mode rest
    have shortens := move_shortens mode rest
    rw [scanText_eq]
    generalize move mode rest = next at within shortens
    cases next with
    | push _ mode' rest' | go mode' rest' =>
      obtain ⟨shorter, plain⟩ := ih mode' rest' (Nat.lt_of_lt_of_le within (by omega))
      exact ⟨Nat.le_trans shorter shortens, plain⟩
    | stop how rest' => exact shortens

theorem scanText_consumes (c : Char) (rest : Text) :
    (scanText .resume (c :: rest)).2.2.length ≤ rest.length := by
  have shortens := move_resume_shortens c rest
  rw [scanText_eq]
  generalize move .resume (c :: rest) = next at shortens
  cases next with
  | push _ mode' rest' | go mode' rest' =>
    exact Nat.le_trans (scanText_shortens _ mode' rest' (Nat.lt_succ_self _)).1 shortens
  | stop how rest' => exact shortens.1

theorem skipText_progress (rest : Text) :
    (skipText rest).2.length ≤ rest.length ∧
      ((skipText rest).1 = .newline → (skipText rest).2.length < rest.length) ∧
      ((skipText rest).1 = .text → (skipText rest).2 ≠ []) := by
  induction rest with
  | nil => exact ⟨Nat.le_refl _, nofun, nofun⟩
  | cons c rest ih =>
    rw [skipText]
    split
    · exact ⟨Nat.le_succ _, fun _ => Nat.lt_succ_self _, nofun⟩
    · split
      · exact ⟨Nat.le_succ_of_le ih.1, fun newline => Nat.lt_succ_of_lt (ih.2.1 newline), ih.2.2⟩
      · split
        · have tail := (List.dropWhile_suffix (fun d => decide (d ≠ '\n'))
            (l := c :: rest)).length_le
          split
          · exact ⟨Nat.zero_le _, nofun, nofun⟩
          · rename_i same
            rw [same] at tail
            exact ⟨Nat.le_of_succ_le tail, fun _ => tail, nofun⟩
        · exact ⟨Nat.le_refl _, nofun, fun _ => List.cons_ne_nil c rest⟩

def remaining (nexttoken : Option Token) (rest : Text) : Nat :=
  2 * rest.length + if nexttoken.isSome then 1 else 0

theorem lexOne_spec (nexttoken : Option Token) (rest : Text) :
    (lexOne nexttoken rest).rest.length ≤ rest.length ∧
      (lexOne nexttoken rest).nexttoken ≠ some .text ∧
      ((lexOne nexttoken rest).token ≠ .text → (lexOne nexttoken rest).text = []) ∧
      ((lexOne nexttoken rest).token ≠ .eof →
        remaining (lexOne nexttoken rest).nexttoken (lexOne nexttoken rest).rest <
          remaining nexttoken rest) := by
  cases nexttoken with
  | some token => exact ⟨Nat.le_refl _, nofun, fun _ => rfl, fun _ => Nat.lt_succ_self _⟩
  | none =>
    obtain ⟨skipped, newline, text⟩ := skipText_progress rest
    rw [lexOne]
    generalize skipText rest = start at skipped newline text
    obtain ⟨token, left⟩ := start
    cases token with
    | eof => exact ⟨skipped, nofun, fun _ => rfl, fun going => absurd rfl going⟩
    | newline =>
      refine ⟨skipped, nofun, fun _ => rfl, fun _ => ?_⟩
      have shorter := newline rfl
      simp only [remaining] at shorter ⊢
      omega
    | text =>
      cases left with
      | nil => exact absurd rfl (text rfl)
      | cons c left =>
        have consumed := scanText_consumes c left
        have plain := (scanText_shortens _ .resume (c :: left) (Nat.lt_succ_self _)).2
        dsimp only at skipped ⊢
        generalize scanText .resume (c :: left) = scanned at consumed plain
        obtain ⟨out, how, more⟩ := scanned
        have shorter : more.length ≤ rest.length := by
          simp only [List.length_cons] at consumed skipped
          omega
        cases how with
        | unterminated => exact ⟨shorter, nofun, fun _ => rfl, fun going => absurd rfl going⟩
        | done next =>
          refine ⟨shorter, fun pending => plain (congrArg Stop.done pending),
            fun other => absurd rfl other, fun _ => ?_⟩
          have pending : (if next.isSome then 1 else 0) ≤ 1 := by split <;> omega
          simp only [remaining, List.length_cons] at consumed skipped ⊢
          omega

end Listed

section Strings

variable {mem : Nat → Char} {x : Nat}

def Reads (mem : Nat → Char) : Nat → Text → Prop
  | x, [] => mem x = nul
  | x, c :: rest => mem x = c ∧ c ≠ nul ∧ Reads mem (x + 1) rest

def Spells (mem : Nat → Char) (start : Nat) (out : Text) : Prop :=
  ∀ i a, out[i]? = some a → mem (start + i) = a

theorem Reads.congr {other : Nat → Char} {text : Text} (reads : Reads mem x text)
    (same : ∀ i, x ≤ i → i ≤ x + text.length → other i = mem i) : Reads other x text := by
  induction text generalizing x with
  | nil => exact (same x (Nat.le_refl x) (Nat.le_refl x)).trans reads
  | cons c rest ih =>
    obtain ⟨first, nonzero, more⟩ := reads
    refine ⟨(same x (Nat.le_refl x) (by omega)).trans first, nonzero, ih more ?_⟩
    intro i low high
    exact same i (by omega) (by rw [List.length_cons]; omega)

theorem Reads.update {text : Text} (reads : Reads mem x text) {s : Nat} (behind : s < x) (a : Char) :
    Reads (update mem s a) x text :=
  reads.congr fun i low _ => update_of_ne (by omega) a mem

theorem Reads.unique {one two : Text} (first : Reads mem x one) (second : Reads mem x two) :
    one = two := by
  induction one generalizing x two with
  | nil =>
    cases two with
    | nil => rfl
    | cons d rest => exact absurd (second.1.symm.trans first) second.2.1
  | cons c rest ih =>
    cases two with
    | nil => exact absurd (first.1.symm.trans second) first.2.1
    | cons d rest' =>
      obtain ⟨here, -, more⟩ := first
      obtain ⟨here', -, more'⟩ := second
      rw [← here, ← here', ih more more']

theorem Spells.reads {out : Text} (spells : Spells mem x out) (free : ∀ a ∈ out, a ≠ nul)
    (ends : mem (x + out.length) = nul) : Reads mem x out := by
  induction out generalizing x with
  | nil => exact ends
  | cons c rest ih =>
    refine ⟨spells 0 c rfl, free c List.mem_cons_self, ih ?_ ?_ ?_⟩
    · intro i a found
      have here := spells (i + 1) a found
      rwa [Nat.add_assoc, Nat.add_comm 1 i]
    · exact (List.forall_mem_cons.mp free).2
    · rwa [Nat.add_assoc, Nat.add_comm 1]

theorem Spells.snoc {out : Text} (spells : Spells mem x out) (a : Char) :
    Spells (update mem (x + out.length) a) x (out ++ [a]) := by
  intro i b found
  by_cases last : i = out.length
  · rw [last, List.getElem?_append_right (Nat.le_refl _), Nat.sub_self] at found
    rw [last, update_self]
    exact Option.some.inj found
  · have inside : i < out.length := by
      obtain ⟨bound, -⟩ := List.getElem?_eq_some_iff.mp found
      rw [List.length_append, List.length_singleton] at bound
      omega
    rw [List.getElem?_append_left inside] at found
    rw [update_of_ne (by omega)]
    exact spells i b found

end Strings

section Simulation

variable {base : Nat → Char} {start : Nat} {c : Scan} {out rest : Text}

/-- The scan has written `out` from `start` on and has `rest` in front of it; memory before
`start` is as it was. -/
structure View (base : Nat → Char) (start : Nat) (c : Scan) (out rest : Text) : Prop where
  spells : Spells c.mem start out
  free : ∀ a ∈ out, a ≠ nul
  place : c.s = start + out.length
  behind : c.s ≤ c.x
  ahead : Reads c.mem c.x rest
  kept : ∀ i < start, c.mem i = base i

theorem View.put (view : View base start c out rest) (ahead : c.s < c.x) {a : Char}
    (nonzero : a ≠ nul) : View base start (c.put a) (out ++ [a]) rest := by
  refine ⟨?_, ?_, ?_, ?_, view.ahead.update ahead a, ?_⟩
  · have spells := view.spells.snoc a
    rwa [← view.place] at spells
  · exact List.forall_mem_append.mpr ⟨view.free, List.forall_mem_singleton.mpr nonzero⟩
  · show c.s + 1 = _
    rw [view.place, List.length_append, List.length_singleton, Nat.add_assoc]
  · exact ahead
  · intro i before
    have apart : i ≠ c.s := by
      have := view.place
      omega
    exact (update_of_ne apart a c.mem).trans (view.kept i before)

theorem View.next {a : Char} (view : View base start c out (a :: rest)) (line : Nat) (mode : Mode) :
    View base start { c with x := c.x + 1, line := line, mode := mode } out rest :=
  { view with behind := Nat.le_succ_of_le view.behind, ahead := view.ahead.2.2 }

theorem View.copy {a : Char} (view : View base start c out (a :: rest)) :
    View base start c.copy (out ++ [a]) rest := by
  obtain ⟨here, nonzero, -⟩ := view.ahead
  have written := (view.next c.line c.mode).put (Nat.lt_succ_of_le view.behind) nonzero
  have same : Scan.put { c with x := c.x + 1 } a = c.copy := by
    rw [Scan.copy, here]
    rfl
  rwa [same] at written

def Moved (base : Nat → Char) (start : Nat) (out : Text) : Move → Scan ⊕ (Stop × Scan) → Prop
  | .push a mode rest, .inl c => View base start c (out ++ [a]) rest ∧ c.mode = mode
  | .go mode rest, .inl c => View base start c out rest ∧ c.mode = mode
  | .stop how rest, .inr (how', c) =>
    how' = how ∧ View base start c out rest ∧ (c.s < c.x ∨ rest = [])
  | _, _ => False

theorem reads_newline_iff {mem : Nat → Char} {x : Nat} {more : Text} (reads : Reads mem x more) :
    mem x ≠ '\n' ↔ more.head? ≠ some '\n' := by
  cases more with
  | nil =>
    have zero : mem x = nul := reads
    rw [zero]
    decide
  | cons e more =>
    have here : mem x = e := reads.1
    rw [here, List.head?_cons]
    exact not_congr ⟨congrArg some, Option.some.inj⟩

theorem Moved.branch {p q : Prop} [Decidable p] [Decidable q] {one other : Move}
    {one' other' : Scan ⊕ (Stop × Scan)} (same : q ↔ p) (yes : Moved base start out one one')
    (no : ¬ p → Moved base start out other other') :
    Moved base start out (if p then one else other) (if q then one' else other') := by
  by_cases holds : p
  · rw [if_pos holds, if_pos (same.mpr holds)]
    exact yes
  · rw [if_neg holds, if_neg (mt same.mp holds)]
    exact no holds

section Moved

variable (view : View base start c out rest)
include view

theorem escape_moved (ahead : c.s < c.x) (mode : c.mode = .resume) :
    Moved base start out (escaped rest) c.escape := by
  cases rest with
  | nil =>
    have zero : c.mem c.x = nul := view.ahead
    rw [Scan.escape, if_pos zero]
    exact ⟨rfl, view, Or.inr rfl⟩
  | cons d more =>
    obtain ⟨here, nonzero, reads⟩ := view.ahead
    have newline := reads_newline_iff reads
    rw [Scan.escape, here, if_neg nonzero, escaped]
    refine .branch .rfl ⟨view.put ahead (by decide), mode⟩ fun _ => ?_
    refine .branch .rfl ⟨view.put ahead (by decide), mode⟩ fun _ => ?_
    refine .branch .rfl ⟨view.put ahead (by decide), mode⟩ fun _ => ?_
    refine .branch .rfl ⟨view.put ahead (by decide), mode⟩ fun _ => ?_
    refine .branch (and_congr .rfl newline) ⟨view.next c.line c.mode, mode⟩ fun _ => ?_
    exact .branch .rfl ⟨view.next _ _, rfl⟩ fun _ => ⟨view.copy, mode⟩

theorem step_moved_resume (mode : c.mode = .resume) :
    Moved base start out (move .resume rest) c.step := by
  rw [Scan.step, mode]
  cases rest with
  | nil =>
    have zero : c.mem c.x = nul := view.ahead
    rw [if_pos zero]
    exact ⟨rfl, view, Or.inr rfl⟩
  | cons a rest =>
    obtain ⟨here, nonzero, -⟩ := view.ahead
    have forward : c.s < c.x + 1 := Nat.lt_succ_of_le view.behind
    rw [here, if_neg nonzero, move]
    refine .branch .rfl ⟨rfl, view.next c.line .resume, Or.inl forward⟩ fun _ => ?_
    refine .branch .rfl ⟨rfl, view.next c.line .resume, Or.inl forward⟩ fun _ => ?_
    refine .branch .rfl ⟨view.next c.line .quoted, rfl⟩ fun _ => ?_
    exact .branch .rfl (escape_moved (view.next c.line .resume) forward rfl)
      fun _ => ⟨view.copy, mode⟩

theorem step_moved_quoted (mode : c.mode = .quoted) :
    Moved base start out (move .quoted rest) c.step := by
  rw [Scan.step, mode]
  cases rest with
  | nil =>
    have zero : c.mem c.x = nul := view.ahead
    dsimp only
    rw [if_pos zero]
    exact ⟨rfl, view, Or.inr rfl⟩
  | cons a rest =>
    obtain ⟨here, nonzero, -⟩ := view.ahead
    dsimp only
    rw [here, if_neg nonzero, move]
    exact .branch .rfl ⟨view.next c.line .resume, rfl⟩ fun _ => ⟨view.copy, mode⟩

theorem step_moved_eating (mode : c.mode = .eating) :
    Moved base start out (move .eating rest) c.step := by
  have stay : View base start { c with mode := .resume } out rest := { view with }
  rw [Scan.step, mode]
  cases rest with
  | nil =>
    have zero : c.mem c.x = nul := view.ahead
    dsimp only
    rw [zero, if_neg (by decide)]
    exact ⟨stay, rfl⟩
  | cons a rest =>
    obtain ⟨here, -, -⟩ := view.ahead
    rw [here, move]
    exact .branch .rfl ⟨view.next c.line .eating, rfl⟩ fun _ => ⟨stay, rfl⟩

theorem step_moved : Moved base start out (move c.mode rest) c.step := by
  cases mode : c.mode with
  | resume => exact step_moved_resume view mode
  | quoted => exact step_moved_quoted view mode
  | eating => exact step_moved_eating view mode

end Moved

theorem scan_scanText (fuel : Nat) (view : View base start c out rest)
    (enough : weight c.mode rest < fuel) :
    ∃ final, scan fuel c = some ((scanText c.mode rest).2.1, final) ∧
      View base start final (out ++ (scanText c.mode rest).1) (scanText c.mode rest).2.2 ∧
      (final.s < final.x ∨ (scanText c.mode rest).2.2 = []) := by
  induction fuel generalizing c out rest with
  | zero => exact absurd enough (Nat.not_lt_zero _)
  | succ fuel ih =>
    have moved := step_moved view
    have within := move_within c.mode rest
    rw [scan, scanText_eq]
    generalize move c.mode rest = next at moved within
    generalize c.step = result at moved
    cases next with
    | push a mode rest' =>
      cases result with
      | inr _ => exact moved.elim
      | inl c' =>
        obtain ⟨view', rfl⟩ := moved
        obtain ⟨final, ran, last, place⟩ := ih view' (Nat.lt_of_lt_of_le within (by omega))
        refine ⟨final, ran, ?_, place⟩
        rwa [List.append_assoc] at last
    | go mode rest' =>
      cases result with
      | inr _ => exact moved.elim
      | inl c' =>
        obtain ⟨view', rfl⟩ := moved
        exact ih view' (Nat.lt_of_lt_of_le within (by omega))
    | stop how rest' =>
      cases result with
      | inl _ => exact moved.elim
      | inr result =>
        obtain ⟨rfl, view', place⟩ := moved
        refine ⟨result.2, rfl, ?_, place⟩
        rwa [List.append_nil]

end Simulation

section Calls

variable {mem : Nat → Char} {rest : Text}

theorem endOfComment_reads (fuel x : Nat) (reads : Reads mem x rest) (enough : rest.length < fuel) :
    ∃ x', endOfComment mem fuel x = some x' ∧ x ≤ x' ∧
      Reads mem x' (rest.dropWhile (· ≠ '\n')) ∧ (mem x' = nul ∨ mem x' = '\n') := by
  induction fuel generalizing x rest with
  | zero => exact absurd enough (Nat.not_lt_zero _)
  | succ fuel ih =>
    rw [endOfComment]
    cases rest with
    | nil =>
      have zero : mem x = nul := reads
      rw [if_neg fun both => both.1 zero]
      exact ⟨x, rfl, Nat.le_refl x, reads, Or.inl zero⟩
    | cons c rest =>
      obtain ⟨here, nonzero, more⟩ := reads
      rw [here]
      by_cases newline : c = '\n'
      · rw [if_neg fun both => both.2 newline]
        refine ⟨x, rfl, Nat.le_refl x, ?_, Or.inr (here.trans newline)⟩
        rw [List.dropWhile_cons_of_neg (by simp [newline])]
        exact ⟨here, nonzero, more⟩
      · rw [if_pos ⟨nonzero, newline⟩]
        obtain ⟨x', ran, later, reads', ends⟩ := ih (x + 1) more (Nat.lt_of_succ_lt_succ enough)
        refine ⟨x', ran, Nat.le_of_succ_le later, ?_, ends⟩
        rw [List.dropWhile_cons_of_pos (by simp [newline])]
        exact reads'

theorem skip_skipText (fuel x : Nat) (reads : Reads mem x rest) (enough : rest.length + 1 < fuel) :
    ∃ x', skip mem fuel x = some ((skipText rest).1, x') ∧ x ≤ x' ∧
      Reads mem x' (skipText rest).2 ∧ (mem x = nul → x' = x) := by
  induction fuel generalizing x rest with
  | zero => exact absurd enough (Nat.not_lt_zero _)
  | succ fuel ih =>
    rw [skip]
    cases rest with
    | nil =>
      have zero : mem x = nul := reads
      rw [if_pos zero]
      exact ⟨x, rfl, Nat.le_refl x, reads, fun _ => rfl⟩
    | cons c rest =>
      have text := reads
      obtain ⟨here, nonzero, more⟩ := reads
      have live : mem x ≠ nul := fun zero => nonzero (here.symm.trans zero)
      have enough' : rest.length + 1 < fuel := Nat.lt_of_succ_lt_succ enough
      rw [if_neg live, here, skipText]
      by_cases newline : c = '\n'
      · rw [if_pos newline, if_pos newline]
        exact ⟨x + 1, rfl, Nat.le_succ x, more, fun zero => absurd zero nonzero⟩
      rw [if_neg newline, if_neg newline]
      by_cases space : blank c = true
      · rw [if_pos space, if_pos space]
        obtain ⟨x', ran, later, reads', -⟩ := ih (x + 1) more enough'
        exact ⟨x', ran, Nat.le_of_succ_le later, reads', fun zero => absurd zero nonzero⟩
      rw [if_neg space, if_neg space]
      by_cases comment : c = '#'
      · rw [if_pos comment, if_pos comment]
        obtain ⟨x', ran, later, reads', ends⟩ := endOfComment_reads fuel x text (by omega)
        rw [ran, Option.map_some]
        generalize (c :: rest).dropWhile (· ≠ '\n') = tail at reads'
        cases tail with
        | nil =>
          have zero : mem x' = nul := reads'
          rw [if_neg (by rw [zero]; decide)]
          exact ⟨x', rfl, later, reads', fun zero => absurd zero nonzero⟩
        | cons d tail =>
          obtain ⟨there, nonzero', more'⟩ := reads'
          have newline' : mem x' = '\n' :=
            ends.resolve_left fun zero => nonzero' (there.symm.trans zero)
          rw [if_pos newline']
          exact ⟨x' + 1, rfl, Nat.le_succ_of_le later, more', fun zero => absurd zero nonzero⟩
      · rw [if_neg comment, if_neg comment]
        exact ⟨x, rfl, Nat.le_refl x, text, fun _ => rfl⟩

/-- What a call does not touch: the memory before `ptr`, and everything at the end of the text. -/
structure Frame (p q : Parse) : Prop where
  forward : p.ptr ≤ q.ptr
  before : ∀ i < p.ptr, q.mem i = p.mem i
  ended : p.mem p.ptr = nul → q.mem = p.mem ∧ q.ptr = p.ptr

theorem Frame.trans {p q r : Parse} (first : Frame p q) (second : Frame q r) : Frame p r := by
  refine ⟨Nat.le_trans first.forward second.forward, fun i inside => ?_, fun zero => ?_⟩
  · rw [second.before i (Nat.lt_of_lt_of_le inside first.forward), first.before i inside]
  · obtain ⟨same, place⟩ := first.ended zero
    obtain ⟨same', place'⟩ := second.ended (by rw [same, place, zero])
    exact ⟨same'.trans same, place'.trans place⟩

def Held (p : Parse) (at_ : Nat) (text : Text) : Prop :=
  Reads p.mem at_ text ∧
    (at_ + text.length < p.ptr ∨ at_ + text.length = p.ptr ∧ p.mem p.ptr = nul)

theorem Held.keep {p q : Parse} {at_ : Nat} {text : Text} (held : Held p at_ text)
    (frame : Frame p q) : Reads q.mem at_ text := by
  obtain ⟨reads, before | ⟨-, zero⟩⟩ := held
  · exact reads.congr fun i _ high => frame.before i (by omega)
  · rw [(frame.ended zero).1]
    exact reads

theorem View.held {base : Nat → Char} {start : Nat} {c : Scan} {out : Text}
    (view : View base start c out rest) (place : c.s < c.x ∨ rest = []) (line : Nat)
    (nexttoken : Option Token) :
    Held ⟨update c.mem c.s nul, c.x, start, line, nexttoken⟩ start out ∧
      Reads (update c.mem c.s nul) c.x rest := by
  have string : Reads (update c.mem c.s nul) start out := by
    refine Spells.reads ?_ view.free ?_
    · intro i a found
      have inside := (List.getElem?_eq_some_iff.mp found).1
      rw [update_of_ne (by rw [view.place]; omega)]
      exact view.spells i a found
    · rw [← view.place, update_self]
  rcases place with before | rfl
  · refine ⟨⟨string, Or.inl ?_⟩, view.ahead.update before nul⟩
    rw [← view.place]
    exact before
  · have zero : update c.mem c.s nul c.x = nul := by
      by_cases same : c.x = c.s
      · rw [same, update_self]
      · rw [update_of_ne same]
        exact view.ahead
    refine ⟨⟨string, ?_⟩, zero⟩
    rw [← view.place]
    rcases Nat.lt_or_eq_of_le view.behind with before | same
    · exact Or.inl before
    · exact Or.inr ⟨same, zero⟩

/-- A call of `next_token`: what it returns, and what it leaves. -/
structure Returned (p q : Parse) (lexed : Lexed) : Prop where
  nexttoken : q.nexttoken = lexed.nexttoken
  ahead : Reads q.mem q.ptr lexed.rest
  held : lexed.token = .text → Held q q.text lexed.text
  frame : Frame p q

theorem nextToken_lexOne (fuel : Nat) (p : Parse) (reads : Reads p.mem p.ptr rest)
    (pending : p.nexttoken ≠ some .text) (enough : 2 * rest.length + 1 < fuel) :
    ∃ q, nextToken fuel p = some ((lexOne p.nexttoken rest).token, q) ∧
      Returned p q (lexOne p.nexttoken rest) := by
  rw [nextToken]
  cases next : p.nexttoken with
  | some token =>
    refine ⟨_, rfl, rfl, reads, fun text => absurd (next.trans (congrArg some text)) pending, ?_⟩
    exact ⟨Nat.le_refl _, fun _ _ => rfl, fun _ => ⟨rfl, rfl⟩⟩
  | none =>
    obtain ⟨x, skipped, later, reads', stay⟩ := skip_skipText fuel p.ptr reads (by omega)
    have shorter := (skipText_progress rest).1
    have ended : p.mem p.ptr = nul → (skipText rest).1 = .eof := by
      intro zero
      have nothing : Reads p.mem p.ptr [] := zero
      rw [reads.unique nothing]
      rfl
    rw [skipped, lexOne]
    generalize skipText rest = start at reads' shorter ended
    obtain ⟨token, left⟩ := start
    have quiet : Frame p { p with ptr := x, nexttoken := none } :=
      ⟨later, fun _ _ => rfl, fun zero => ⟨rfl, stay zero⟩⟩
    cases token with
    | eof | newline => exact ⟨_, rfl, rfl, reads', nofun, quiet⟩
    | text =>
      have live : p.mem p.ptr ≠ nul := fun zero => Token.noConfusion (ended zero)
      dsimp only at reads' shorter ⊢
      have view : View p.mem x ⟨p.mem, x, x, p.line, .resume⟩ [] left :=
        ⟨nofun, nofun, rfl, Nat.le_refl x, reads', fun _ _ => rfl⟩
      obtain ⟨final, ran, last, place⟩ := scan_scanText fuel view (by
        show 2 * left.length < fuel
        omega)
      rw [ran, Option.map_some]
      generalize scanText .resume left = scanned at last place
      obtain ⟨out, how, more⟩ := scanned
      have forward : p.ptr ≤ final.x := by
        have := last.place
        have := last.behind
        omega
      cases how with
      | unterminated =>
        refine ⟨_, rfl, rfl, last.ahead, nofun, forward, fun i inside => ?_,
          fun zero => absurd zero live⟩
        exact last.kept i (Nat.lt_of_lt_of_le inside later)
      | done pending =>
        obtain ⟨held, ahead⟩ := last.held place final.line pending
        refine ⟨_, rfl, rfl, ahead, fun _ => held, forward, fun i inside => ?_,
          fun zero => absurd zero live⟩
        have apart : i ≠ final.s := by
          have := last.place
          omega
        exact (update_of_ne apart nul final.mem).trans
          (last.kept i (Nat.lt_of_lt_of_le inside later))

def calls (fuel : Nat) : Nat → Parse → Option (List (Token × Nat) × Parse)
  | 0, p => some ([], p)
  | n + 1, p =>
    match nextToken fuel p with
    | none => none
    | some (token, q) =>
      (calls fuel n q).map fun rest => ((token, q.text) :: rest.1, rest.2)

def lex : Nat → Option Token → Text → List (Token × Text)
  | 0, _, _ => []
  | n + 1, nexttoken, rest =>
    let lexed := lexOne nexttoken rest
    (lexed.token, lexed.text) :: lex n lexed.nexttoken lexed.rest

def Texts (mem : Nat → Char) : List (Token × Nat) → List (Token × Text) → Prop :=
  List.Forall₂ fun returned expected =>
    returned.1 = expected.1 ∧ (returned.1 = .text → Reads mem returned.2 expected.2)

theorem calls_lex (fuel n : Nat) (p : Parse) (reads : Reads p.mem p.ptr rest)
    (pending : p.nexttoken ≠ some .text) (enough : 2 * rest.length + 1 < fuel) :
    ∃ returned q, calls fuel n p = some (returned, q) ∧ Frame p q ∧
      Texts q.mem returned (lex n p.nexttoken rest) := by
  induction n generalizing p rest with
  | zero =>
    exact ⟨[], p, rfl, ⟨Nat.le_refl _, fun _ _ => rfl, fun _ => ⟨rfl, rfl⟩⟩, List.Forall₂.nil⟩
  | succ n ih =>
    obtain ⟨q, ran, result⟩ := nextToken_lexOne fuel p reads pending enough
    obtain ⟨shorter, plain, -, -⟩ := lexOne_spec p.nexttoken rest
    obtain ⟨returned, final, more, frame, texts⟩ := ih q result.ahead
      (by rw [result.nexttoken]; exact plain) (by omega)
    rw [result.nexttoken] at texts
    refine ⟨((lexOne p.nexttoken rest).token, q.text) :: returned, final, ?_,
      result.frame.trans frame, List.Forall₂.cons ⟨rfl, fun text => ?_⟩ texts⟩
    · rw [calls, ran]
      dsimp only
      rw [more]
      rfl
    · exact (result.held text).keep frame

end Calls

end AndroidBoot.Init.Tokenizer
