/- source: init/init/parser.c, init/Android init language.md
   digest: Which tokens survive being written with the documented quotes and escapes. -/

import Mathlib.Data.List.GetD
import AndroidBoot.Init.Tokenizer

set_option autoImplicit false

namespace AndroidBoot.Init.TokenEscapes

open State (Text)
open Tokenizer

section Encoding

def escapeOf (c : Char) : Option Char :=
  if c = '\n' then some 'n'
  else if c = '\r' then some 'r'
  else if c = '\t' then some 't'
  else if c = '\\' then some '\\'
  else none

theorem escapeOf_cases {c d : Char} (escape : escapeOf c = some d) :
    c = '\n' ∧ d = 'n' ∨ c = '\r' ∧ d = 'r' ∨ c = '\t' ∧ d = 't' ∨ c = '\\' ∧ d = '\\' := by
  unfold escapeOf at escape
  repeat' split at escape
  all_goals cases escape
  all_goals simp [*]

theorem escapeOf_letter {c d : Char} (escape : escapeOf c = some d) :
    d = 'n' ∨ d = 'r' ∨ d = 't' ∨ d = '\\' :=
  (escapeOf_cases escape).imp And.right <| .imp And.right <| .imp And.right And.right

def encodeChar (c : Char) : Text :=
  if c = ' ' ∨ c = '#' then ['"', c, '"']
  else
    match escapeOf c with
    | some d => ['\\', d]
    | none => [c]

def encode (token : Text) : Text := token.flatMap encodeChar

/-- A line for the tokens, with any number of spaces between them. -/
inductive Written : List Text → Text → Prop where
  | nil : Written [] []
  | last (token : Text) : Written [token] (encode token)
  | cons (token next : Text) (tokens : List Text) (gap : Nat) (line : Text) :
      Written (next :: tokens) line →
      Written (token :: next :: tokens)
        (encode token ++ ' ' :: (List.replicate gap ' ' ++ line))

/-- A token over the characters of the documentation. -/
def Valid (token : Text) : Prop := token ≠ [] ∧ ∀ c ∈ token, c ≠ nul ∧ c ≠ '"'

instance (token : Text) : Decidable (Valid token) :=
  have : Decidable (∀ c ∈ token, c ≠ nul ∧ c ≠ '"') :=
    List.decidableBAll (fun c : Char => c ≠ nul ∧ c ≠ '"') token
  inferInstanceAs (Decidable (_ ∧ _))

def control (c : Char) : Bool := c = '\n' || c = '\r' || c = '\t'

/-- A character that is something else behind a stray backslash. -/
def troubled (d : Char) : Bool :=
  d = '\\' || d = ' ' || d = '#' || d = 'n' || d = 'r' || d = 't' || control d

/-- No newline, carriage return or tab, and behind every backslash a character that the backslash
leaves alone. -/
def Clean : Text → Bool
  | [] => true
  | c :: rest =>
    !control c && (c ≠ '\\' || rest.head?.any fun d => !troubled d) && Clean rest

theorem encode_cons (c : Char) (token : Text) :
    encode (c :: token) = encodeChar c ++ encode token := List.flatMap_cons

end Encoding

section Scanning

variable (rest : Text)

def push (c : Char) (scanned : Text × Stop × Text) : Text × Stop × Text := (c :: scanned.1, scanned.2)

def plain (c : Char) : Bool := !blank c && c ≠ '\n' && c ≠ '"' && c ≠ '\\'

theorem scan_plain {c : Char} (plain_ : plain c = true) :
    scanText .resume (c :: rest) = push c (scanText .resume rest) := by
  have moves : move .resume (c :: rest) = .push c .resume rest := by
    simp only [plain, Bool.and_eq_true, decide_eq_true_eq, Bool.not_eq_true'] at plain_
    obtain ⟨⟨⟨space, newline⟩, quote⟩, backslash⟩ := plain_
    rw [move, if_neg (by rw [space]; exact Bool.false_ne_true), if_neg newline, if_neg quote,
      if_neg backslash]
  rw [scanText_eq, moves]
  rfl

theorem scan_escape {c d : Char} (escape : escapeOf c = some d) :
    scanText .resume ('\\' :: d :: rest) = push c (scanText .resume (d :: rest)) := by
  have moves : move .resume ('\\' :: d :: rest) = .push c .resume (d :: rest) := by
    rcases escapeOf_cases escape with ⟨rfl, rfl⟩ | ⟨rfl, rfl⟩ | ⟨rfl, rfl⟩ | ⟨rfl, rfl⟩ <;> rfl
  rw [scanText_eq, moves]
  rfl

theorem scan_unknown {d : Char} (other : ¬(d = 'n' ∨ d = 'r' ∨ d = 't' ∨ d = '\\'))
    (ordinary : control d = false) :
    scanText .resume ('\\' :: d :: rest) = push d (scanText .resume rest) := by
  have moves : move .resume ('\\' :: d :: rest) = .push d .resume rest := by
    simp only [not_or] at other
    obtain ⟨newline, feed, tab, backslash⟩ := other
    have ended : ¬(d = '\r' ∨ d = '\n') := by
      rintro (same | same)
      all_goals
        rw [same] at ordinary
        exact absurd ordinary (by decide)
    have continued : ¬(d = '\r' ∧ rest.head? ≠ some '\n') := fun both => ended (Or.inl both.1)
    show escaped (d :: rest) = _
    rw [escaped, if_neg newline, if_neg feed, if_neg tab, if_neg backslash, if_neg continued,
      if_neg ended]
  rw [scanText_eq, moves]
  rfl

theorem scan_quoted {c : Char} (different : c ≠ '"') :
    scanText .resume ('"' :: c :: '"' :: rest) = push c (scanText .resume rest) := by
  have opens : move .resume ('"' :: c :: '"' :: rest) = .go .quoted (c :: '"' :: rest) := rfl
  have copies : move .quoted (c :: '"' :: rest) = .push c .quoted ('"' :: rest) := by
    rw [move, if_neg different]
  have closes : move .quoted ('"' :: rest) = .go .resume rest := rfl
  rw [scanText_eq, opens]
  dsimp only
  rw [scanText_eq, copies]
  dsimp only
  rw [scanText_eq .quoted, closes]
  rfl

end Scanning

section Characters

variable {c : Char}

/-- A character that stands for itself, in the encoding and in the scan. -/
structure Own (c : Char) : Prop where
  plain : plain c = true
  spelled : encodeChar c = [c]

inductive Kind (c : Char) : Prop where
  | quoted : encodeChar c = ['"', c, '"'] → c ≠ '\\' → control c = false → Kind c
  | control (letter : Char) : control c = true → escapeOf c = some letter → Own letter → Kind c
  | backslash : c = '\\' → Kind c
  | own : Own c → c ≠ '\\' → TokenEscapes.control c = false → Kind c

theorem kind_of (quote : c ≠ '"') : Kind c := by
  by_cases quoted : c = ' ' ∨ c = '#'
  · refine Kind.quoted ?_ ?_ ?_
    · rw [encodeChar, if_pos quoted]
    all_goals rcases quoted with rfl | rfl <;> decide
  cases escape : escapeOf c with
  | some letter =>
    rcases escapeOf_cases escape with ⟨rfl, rfl⟩ | ⟨rfl, rfl⟩ | ⟨rfl, rfl⟩ | ⟨rfl, rfl⟩
    · exact Kind.control 'n' rfl rfl ⟨by decide, by decide⟩
    · exact Kind.control 'r' rfl rfl ⟨by decide, by decide⟩
    · exact Kind.control 't' rfl rfl ⟨by decide, by decide⟩
    · exact Kind.backslash rfl
  | none =>
    have newline : c ≠ '\n' := by rintro rfl; cases escape
    have feed : c ≠ '\r' := by rintro rfl; cases escape
    have tab : c ≠ '\t' := by rintro rfl; cases escape
    have backslash : c ≠ '\\' := by rintro rfl; cases escape
    have space : c ≠ ' ' := fun same => quoted (Or.inl same)
    refine Kind.own ⟨?_, ?_⟩ backslash ?_
    · simp [plain, blank, space, tab, feed, newline, quote, backslash]
    · rw [encodeChar, if_neg quoted, escape]
    · simp [control, newline, feed, tab]

theorem encodeChar_escape {d : Char} (escape : escapeOf c = some d) : encodeChar c = ['\\', d] := by
  have unquoted : ¬(c = ' ' ∨ c = '#') := by
    rintro (rfl | rfl)
    all_goals cases escape
  rw [encodeChar, if_neg unquoted, escape]

def readBack (tail token : Text) : Text × Stop × Text := scanText .resume (encode token ++ tail)

def readStray (tail token : Text) : Text × Stop × Text :=
  scanText .resume ('\\' :: (encode token ++ tail))

variable (tail token : Text)

theorem readBack_quoted (different : c ≠ '"') (spelled : encodeChar c = ['"', c, '"']) :
    readBack tail (c :: token) = push c (readBack tail token) := by
  rw [readBack, encode_cons, spelled]
  exact scan_quoted _ different

theorem readBack_own (own : Own c) : readBack tail (c :: token) = push c (readBack tail token) := by
  rw [readBack, encode_cons, own.spelled]
  exact scan_plain _ own.plain

theorem readBack_control {letter : Char} (escape : escapeOf c = some letter) (own : Own letter) :
    readBack tail (c :: token) = push c (push letter (readBack tail token)) := by
  rw [readBack, encode_cons, encodeChar_escape escape]
  exact (scan_escape _ escape).trans (congrArg (push c) (scan_plain _ own.plain))

theorem readBack_backslash : readBack tail ('\\' :: token) = push '\\' (readStray tail token) := by
  exact scan_escape _ rfl

theorem readStray_backslash :
    readStray tail ('\\' :: token) = push '\\' (push '\\' (readStray tail token)) := by
  exact (scan_escape _ rfl).trans (congrArg (push '\\') (scan_escape _ rfl))

end Characters

section Tokens

variable {token tail : Text}

/-- Nothing in a token needs more than the documented encodings. -/
def Allowed (token : Text) : Prop := ∀ c ∈ token, c ≠ '"'

theorem clean_cons {c : Char} (ordinary : control c = false) (different : c ≠ '\\') :
    Clean (c :: token) = Clean token := by
  simp [Clean, ordinary, different]

theorem readStray_untroubled {d : Char} (quote : d ≠ '"') (fine : troubled d = false) :
    readStray tail (d :: token) = readBack tail (d :: token) := by
  simp only [troubled, Bool.or_eq_false_iff, decide_eq_false_iff_not] at fine
  obtain ⟨⟨⟨⟨⟨⟨backslash, space⟩, hash⟩, n⟩, r⟩, t⟩, ordinary⟩ := fine
  have unquoted : ¬(d = ' ' ∨ d = '#') := not_or.mpr ⟨space, hash⟩
  rcases kind_of quote with ⟨spelled, -, -⟩ | ⟨letter, isControl, -, -⟩ | same | ⟨own, -, -⟩
  · rw [encodeChar, if_neg unquoted] at spelled
    split at spelled <;> cases spelled
  · rw [ordinary] at isControl
    cases isControl
  · exact absurd same backslash
  · rw [readBack_own tail token own, readStray, encode_cons, own.spelled]
    exact scan_unknown _ (by tauto) ordinary

theorem readBack_clean (allowed : Allowed token) (clean : Clean token = true) :
    readBack tail token = (token ++ (scanText .resume tail).1, (scanText .resume tail).2) := by
  induction token with
  | nil => rfl
  | cons c token ih =>
    obtain ⟨quote, rest⟩ := List.forall_mem_cons.mp allowed
    rcases kind_of quote with ⟨spelled, different, ordinary⟩ | ⟨letter, isControl, -, -⟩ | same |
      ⟨own, different, ordinary⟩
    · rw [clean_cons ordinary different] at clean
      rw [readBack_quoted tail token quote spelled, ih rest clean]
      rfl
    · rw [Clean, isControl] at clean
      cases clean
    · subst same
      simp only [Clean, Bool.and_eq_true] at clean
      obtain ⟨⟨-, follower⟩, clean⟩ := clean
      cases token with
      | nil => cases follower
      | cons d token =>
        have fine : troubled d = false := by simpa using follower
        rw [readBack_backslash, readStray_untroubled (rest d List.mem_cons_self) fine,
          ih rest clean]
        rfl
    · rw [clean_cons ordinary different] at clean
      rw [readBack_own tail token own, ih rest clean]
      rfl

theorem readBack_letter {letter : Char} (own : Own letter) :
    letter :: (readBack tail token).1 ≠ token := by
  induction token with
  | nil => exact List.cons_ne_nil _ _
  | cons c token ih =>
    intro same
    obtain ⟨rfl, same⟩ := List.cons.inj same
    rw [readBack_own tail token own] at same
    exact ih same

theorem readStray_backslashes (k : Nat) :
    '\\' :: (List.replicate k '\\' ++ (readStray tail token).1) ≠ token := by
  induction token generalizing k with
  | nil => exact List.cons_ne_nil _ _
  | cons c token ih =>
    intro same
    obtain ⟨rfl, same⟩ := List.cons.inj same
    rw [readStray_backslash] at same
    refine ih (k + 1) (Eq.trans ?_ same)
    show List.replicate (k + 2) '\\' ++ (readStray tail token).1 = _
    rw [List.replicate_succ', List.replicate_succ', List.append_assoc, List.append_assoc]
    rfl

/-- What follows the last token of a file of one line, and what follows the others. -/
def Ends (tail : Text) : Prop := tail = ['\n'] ∨ ∃ more, tail = ' ' :: more

/-- A token that is not read back: another text, or a line that goes on to the end of the file. -/
def Garbled (tail token : Text) (scanned : Text × Stop × Text) : Prop :=
  scanned.1 ≠ token ∨ tail = ['\n'] ∧ scanned.2 = (.done none, [])

theorem Garbled.push {scanned : Text × Stop × Text} (garbled : Garbled tail token scanned) (c : Char) :
    Garbled tail (c :: token) (push c scanned) := by
  rcases garbled with other | gone
  · exact Or.inl fun same => other (List.cons.inj same).2
  · exact Or.inr gone

theorem readStray_end (ends : Ends tail) : Garbled tail [] (readStray tail []) := by
  rcases ends with rfl | ⟨more, rfl⟩
  · refine Or.inr ⟨rfl, ?_⟩
    show (scanText .resume ['\\', '\n']).2 = _
    rw [scanText_eq]
    show (scanText .eating []).2 = _
    rw [scanText_eq]
    show (scanText .resume []).2 = _
    rw [scanText_eq]
    rfl
  · refine Or.inl ?_
    show (scanText .resume ('\\' :: ' ' :: more)).1 ≠ []
    rw [scan_unknown more (by decide) rfl]
    exact List.cons_ne_nil _ _

theorem readStray_troubled {d : Char} (quote : d ≠ '"') (trouble : troubled d = true) :
    (readStray tail (d :: token)).1 ≠ d :: token := by
  rcases kind_of quote with ⟨spelled, -, -⟩ | ⟨letter, isControl, escape, -⟩ | same |
    ⟨own, different, ordinary⟩
  · rw [readStray, encode_cons, spelled, List.append_assoc]
    intro same
    rw [show '\\' :: (['"', d, '"'] ++ (encode token ++ tail)) =
      '\\' :: '"' :: (d :: '"' :: (encode token ++ tail)) from rfl, scan_unknown _ (by decide) rfl] at same
    exact quote (List.cons.inj same).1.symm
  · rw [readStray, encode_cons, encodeChar_escape escape]
    intro same
    have first : '\\' = d := by
      exact (List.cons.inj ((congrArg Prod.fst (scan_escape _ rfl)).symm.trans same)).1
    rw [← first] at isControl
    cases isControl
  · subst same
    rw [readStray_backslash]
    intro same
    exact readStray_backslashes 0 (List.cons.inj same).2
  · have letter : d = 'n' ∨ d = 'r' ∨ d = 't' := by
      simp only [troubled, Bool.or_eq_true, decide_eq_true_eq, ordinary] at trouble
      have space : d ≠ ' ' := by rintro rfl; exact absurd own.spelled (by decide)
      have hash : d ≠ '#' := by rintro rfl; exact absurd own.spelled (by decide)
      tauto
    have escape : ∃ c, escapeOf c = some d ∧ c ≠ d := by
      rcases letter with rfl | rfl | rfl
      · exact ⟨'\n', rfl, by decide⟩
      · exact ⟨'\r', rfl, by decide⟩
      · exact ⟨'\t', rfl, by decide⟩
    obtain ⟨c, escape, apart⟩ := escape
    rw [readStray, encode_cons, own.spelled]
    intro same
    exact apart (List.cons.inj ((congrArg Prod.fst (scan_escape _ escape)).symm.trans same)).1

theorem readBack_unclean (allowed : Allowed token) (unclean : Clean token = false)
    (ends : Ends tail) : Garbled tail token (readBack tail token) := by
  induction token with
  | nil => cases unclean
  | cons c token ih =>
    obtain ⟨quote, rest⟩ := List.forall_mem_cons.mp allowed
    rcases kind_of quote with ⟨spelled, different, ordinary⟩ | ⟨letter, isControl, escape, own⟩ |
      same | ⟨own, different, ordinary⟩
    · rw [clean_cons ordinary different] at unclean
      rw [readBack_quoted tail token quote spelled]
      exact (ih rest unclean).push c
    · rw [readBack_control tail token escape own]
      exact Garbled.push (Or.inl (readBack_letter own)) c
    · subst same
      rw [readBack_backslash]
      apply Garbled.push
      cases token with
      | nil => exact readStray_end ends
      | cons d token =>
        have quote := rest d List.mem_cons_self
        cases fine : troubled d with
        | true => exact Or.inl (readStray_troubled quote fine)
        | false =>
          rw [readStray_untroubled quote fine]
          refine ih rest ?_
          have ordinary : control '\\' = false := rfl
          rw [Clean] at unclean
          simpa [fine, ordinary] using unclean
    · rw [clean_cons ordinary different] at unclean
      rw [readBack_own tail token own]
      exact (ih rest unclean).push c

end Tokens

section Lines

variable {token tail : Text}

def expected (tokens : List Text) : List (Token × Text) :=
  tokens.map (Token.text, ·) ++ [(Token.newline, [])]

theorem Valid.allowed (valid : Valid token) : Allowed token := fun c member =>
  (valid.2 c member).2

theorem skipText_encode (valid : Valid token) (tail : Text) :
    skipText (encode token ++ tail) = (.text, encode token ++ tail) := by
  cases token with
  | nil => exact absurd rfl valid.1
  | cons c token =>
    rw [encode_cons]
    rcases kind_of (valid.allowed c List.mem_cons_self) with ⟨spelled, -, -⟩ | ⟨letter, -, escape, -⟩ |
      same | ⟨own, -, -⟩
    · rw [spelled]
      rfl
    · rw [encodeChar_escape escape]
      rfl
    · rw [same]
      rfl
    · have first := own.plain
      simp only [plain, Bool.and_eq_true, decide_eq_true_eq, Bool.not_eq_true'] at first
      obtain ⟨⟨⟨space, newline⟩, -⟩, -⟩ := first
      have hash : c ≠ '#' := by rintro rfl; exact absurd own.spelled (by decide)
      rw [own.spelled]
      show skipText (c :: (encode token ++ tail)) = _
      rw [skipText, if_neg newline, if_neg (by rw [space]; exact Bool.false_ne_true), if_neg hash]
      rfl

theorem lexOne_encode (valid : Valid token) (tail : Text) :
    lexOne none (encode token ++ tail) =
      match readBack tail token with
      | (out, .done nexttoken, rest) => ⟨.text, out, nexttoken, rest⟩
      | (_, .unterminated, rest) => ⟨.eof, [], none, rest⟩ := by
  rw [lexOne, skipText_encode valid]
  rfl

theorem lexOne_blanks (gap : Nat) (rest : Text) :
    lexOne none (List.replicate gap ' ' ++ rest) = lexOne none rest := by
  have skipped : skipText (List.replicate gap ' ' ++ rest) = skipText rest := by
    induction gap with
    | zero => rfl
    | succ gap ih => exact ih
  rw [lexOne, skipped]
  rfl

theorem lexOne_space (valid : Valid token) (clean : Clean token = true) (more : Text) :
    lexOne none (encode token ++ ' ' :: more) = ⟨.text, token, none, more⟩ := by
  rw [lexOne_encode valid, readBack_clean valid.allowed clean, scanText_eq]
  show Lexed.mk .text (token ++ []) none more = _
  rw [List.append_nil]

theorem lexOne_newline (valid : Valid token) (clean : Clean token = true) (after : Text) :
    lexOne none (encode token ++ '\n' :: after) = ⟨.text, token, some .newline, after⟩ := by
  rw [lexOne_encode valid, readBack_clean valid.allowed clean, scanText_eq]
  show Lexed.mk .text (token ++ []) (some .newline) after = _
  rw [List.append_nil]

theorem lex_blanks (n gap : Nat) (rest : Text) :
    lex n none (List.replicate gap ' ' ++ rest) = lex n none rest := by
  cases n with
  | zero => rfl
  | succ n => rw [lex, lex, lexOne_blanks]

theorem lex_clean {tokens : List Text} {line : Text} (written : Written tokens line)
    (valid : ∀ token ∈ tokens, Valid token) (clean : ∀ token ∈ tokens, Clean token = true)
    (after : Text) : lex (tokens.length + 1) none (line ++ '\n' :: after) = expected tokens := by
  induction written with
  | nil => rfl
  | last token =>
    have here := List.mem_singleton_self token
    rw [List.length_singleton, lex, lexOne_newline (valid token here) (clean token here)]
    rfl
  | cons token next tokens gap line written ih =>
    obtain ⟨proper, valid⟩ := List.forall_mem_cons.mp valid
    obtain ⟨own, clean⟩ := List.forall_mem_cons.mp clean
    have more := ih valid clean
    rw [List.append_assoc, List.cons_append, List.append_assoc, List.length_cons, lex,
      lexOne_space proper own]
    rw [lex_blanks, more]
    rfl

theorem lex_garbled (valid : Valid token) (n : Nat) {more : List (Token × Text)}
    (garbled : Garbled tail token (readBack tail token))
    (follows : tail = ['\n'] → more = [(Token.newline, [])]) :
    lex (n + 2) none (encode token ++ tail) ≠ (.text, token) :: more := by
  intro same
  rw [lex, lexOne_encode valid] at same
  generalize readBack tail token = scanned at garbled same
  obtain ⟨out, how, rest⟩ := scanned
  cases how with
  | unterminated => cases (List.cons.inj same).1
  | done nexttoken =>
    obtain ⟨first, second⟩ := List.cons.inj same
    rcases garbled with other | ⟨newline, gone⟩
    · exact other (Prod.mk.inj first).2
    · obtain ⟨stop, rfl⟩ := Prod.mk.inj gone
      cases stop
      rw [follows newline] at second
      cases (Prod.mk.inj (List.cons.inj second).1).1

theorem lex_unclean {tokens : List Text} {line : Text} (written : Written tokens line)
    (valid : ∀ token ∈ tokens, Valid token) (unclean : ∃ token ∈ tokens, Clean token = false) :
    lex (tokens.length + 1) none (line ++ ['\n']) ≠ expected tokens := by
  induction written with
  | nil =>
    obtain ⟨token, member, -⟩ := unclean
    cases member
  | last token =>
    obtain ⟨token', member, unclean⟩ := unclean
    obtain rfl := List.mem_singleton.mp member
    have proper := valid token' member
    exact lex_garbled proper 0 (readBack_unclean proper.allowed unclean (Or.inl rfl)) fun _ => rfl
  | cons token next tokens gap line written ih =>
    have proper := valid token List.mem_cons_self
    rw [List.append_assoc, List.cons_append, List.append_assoc, List.length_cons]
    cases clean : Clean token with
    | false =>
      refine lex_garbled proper _ (readBack_unclean proper.allowed clean (Or.inr ⟨_, rfl⟩)) ?_
      intro newline
      cases newline
    | true =>
      have later : ∃ other ∈ next :: tokens, Clean other = false := by
        obtain ⟨other, member, unclean⟩ := unclean
        rcases List.mem_cons.mp member with rfl | member
        · rw [clean] at unclean
          cases unclean
        · exact ⟨other, member, unclean⟩
      have more := ih (List.forall_mem_cons.mp valid).2 later
      rw [lex, lexOne_space proper clean]
      rw [lex_blanks]
      exact fun same => more (List.cons.inj same).2

end Lines

section Decoding

/-- Wherever the line stands and whatever follows it, `next_token` returns its tokens and then a
newline. -/
def Decodes (tokens : List Text) (line : Text) : Prop :=
  ∀ (after : Text) (p : Parse) (fuel : Nat), Reads p.mem p.ptr (line ++ '\n' :: after) →
    p.nexttoken = none → 2 * (line ++ '\n' :: after).length + 1 < fuel →
    ∃ returned q, calls fuel (tokens.length + 1) p = some (returned, q) ∧
      Texts q.mem returned (expected tokens)

def Bare (entries : List (Token × Text)) : Prop := ∀ entry ∈ entries, entry.1 ≠ .text → entry.2 = []

theorem lex_bare (n : Nat) (nexttoken : Option Token) (rest : Text) : Bare (lex n nexttoken rest) := by
  induction n generalizing nexttoken rest with
  | zero => nofun
  | succ n ih => exact List.forall_mem_cons.mpr ⟨(lexOne_spec nexttoken rest).2.2.1, ih _ _⟩

theorem expected_bare (tokens : List Text) : Bare (expected tokens) := by
  intro entry member other
  rcases List.mem_append.mp member with text | newline
  · obtain ⟨token, -, rfl⟩ := List.mem_map.mp text
    exact absurd rfl other
  · rw [List.mem_singleton.mp newline]

theorem Bare.tail {entry : Token × Text} {entries : List (Token × Text)}
    (bare : Bare (entry :: entries)) : Bare entries :=
  (List.forall_mem_cons.mp bare).2

theorem texts_unique {mem : Nat → Char} {returned : List (Token × Nat)}
    {one two : List (Token × Text)} (first : Texts mem returned one)
    (second : Texts mem returned two) (bare : Bare one) (bare' : Bare two) : one = two := by
  induction first generalizing two with
  | nil =>
    cases second
    rfl
  | @cons pointer entry pointers entries here first ih =>
    cases second with
    | @cons _ entry' _ entries' here' second =>
      obtain ⟨token, text⟩ := entry
      obtain ⟨token', text'⟩ := entry'
      have same : token = token' := here.1.symm.trans here'.1
      subst same
      rw [ih second bare.tail bare'.tail]
      refine congrArg (fun text => (token, text) :: entries') ?_
      by_cases isText : token = .text
      · have pointed := here.1.trans isText
        exact (here.2 pointed).unique (here'.2 pointed)
      · exact (bare _ List.mem_cons_self isText).trans (bare' _ List.mem_cons_self isText).symm

def holding (text : Text) (i : Nat) : Char := text.getD i nul

theorem reads_holding (text : Text) (free : ∀ c ∈ text, c ≠ nul) (before : Text) :
    Reads (holding (before ++ text)) before.length text := by
  induction text generalizing before with
  | nil =>
    show (before ++ []).getD before.length nul = nul
    rw [List.append_nil, List.getD_eq_default _ _ (Nat.le_refl _)]
  | cons c text ih =>
    refine ⟨?_, free c List.mem_cons_self, ?_⟩
    · show (before ++ c :: text).getD before.length nul = c
      rw [List.getD_append_right _ _ _ _ (Nat.le_refl _), Nat.sub_self]
      rfl
    · have more := ih (List.forall_mem_cons.mp free).2 (before ++ [c])
      rwa [List.append_assoc, List.length_append, List.length_singleton] at more

theorem encode_free {token : Text} (valid : Valid token) : ∀ d ∈ encode token, d ≠ nul := by
  intro d member
  obtain ⟨c, inside, spelled⟩ := List.mem_flatMap.mp member
  have nonzero := (valid.2 c inside).1
  unfold encodeChar at spelled
  split at spelled
  · simp only [List.mem_cons, List.not_mem_nil, or_false] at spelled
    rcases spelled with rfl | rfl | rfl
    · decide
    · exact nonzero
    · decide
  split at spelled
  · next letter escape =>
    simp only [List.mem_cons, List.not_mem_nil, or_false] at spelled
    rcases spelled with rfl | rfl
    · decide
    · rcases escapeOf_letter escape with rfl | rfl | rfl | rfl <;> decide
  · rw [List.mem_singleton.mp spelled]
    exact nonzero

theorem written_free {tokens : List Text} {line : Text} (written : Written tokens line)
    (valid : ∀ token ∈ tokens, Valid token) : ∀ d ∈ line, d ≠ nul := by
  induction written with
  | nil => nofun
  | last token => exact encode_free (valid token (List.mem_singleton_self token))
  | cons token next tokens gap line written ih =>
    obtain ⟨here, later⟩ := List.forall_mem_cons.mp valid
    refine List.forall_mem_append.mpr ⟨encode_free here, List.forall_mem_cons.mpr ⟨by decide, List.forall_mem_append.mpr ⟨?_, ih later⟩⟩⟩
    intro d space
    rw [(List.mem_replicate.mp space).2]
    decide

theorem not_decodes {tokens : List Text} {line : Text} (valid : ∀ token ∈ tokens, Valid token)
    (written : Written tokens line) (unclean : ∃ token ∈ tokens, Clean token = false) :
    ¬Decodes tokens line := by
  intro decodes
  have free : ∀ d ∈ line ++ ['\n'], d ≠ nul :=
    List.forall_mem_append.mpr ⟨written_free written valid, List.forall_mem_singleton.mpr (by decide)⟩
  have reads := reads_holding (line ++ ['\n']) free []
  let start : Parse := ⟨holding (line ++ ['\n']), 0, 0, 0, none⟩
  obtain ⟨returned, q, ran, texts⟩ := decodes [] start _ reads rfl (Nat.lt_succ_self _)
  obtain ⟨returned', q', ran', -, texts'⟩ := calls_lex _ (tokens.length + 1) start reads nofun
    (Nat.lt_succ_self _)
  obtain ⟨rfl, rfl⟩ := Prod.mk.inj (Option.some.inj (ran.symm.trans ran'))
  refine lex_unclean written valid unclean ?_
  exact texts_unique texts' texts (lex_bare _ _ _) (expected_bare tokens)

/-- The documented encodings are read back if and only if no token has a newline, a carriage return
or a tab, and every backslash has a character behind it, in its token, that it leaves alone. -/
theorem decodes_iff {tokens : List Text} {line : Text} (valid : ∀ token ∈ tokens, Valid token)
    (written : Written tokens line) :
    Decodes tokens line ↔ ∀ token ∈ tokens, Clean token = true := by
  constructor
  · intro decodes token member
    by_contra unclean
    exact not_decodes valid written ⟨token, member, Bool.eq_false_iff.mpr unclean⟩ decodes
  · intro clean after p fuel reads pending enough
    have quiet : p.nexttoken ≠ some .text := by
      rw [pending]
      nofun
    obtain ⟨returned, q, ran, -, texts⟩ := calls_lex fuel (tokens.length + 1) p reads quiet enough
    rw [pending, lex_clean written valid clean] at texts
    exact ⟨returned, q, ran, texts⟩

/-- `write`, a path with a blank and a hash in it, and a backslash in front of an `x`. -/
def paths : List Text := ["write".toList, "/a b#c".toList, ['\\', 'x']]

def pathsLine : Text :=
  encode "write".toList ++ ' ' :: (List.replicate 0 ' ' ++
    (encode "/a b#c".toList ++ ' ' :: (List.replicate 2 ' ' ++ encode ['\\', 'x'])))

theorem decodes_iff_paths :
    pathsLine = "write /a\" \"b\"#\"c   \\\\x".toList ∧ (∀ token ∈ paths, Valid token) ∧
      Written paths pathsLine ∧ Decodes paths pathsLine := by
  have valid : ∀ token ∈ paths, Valid token := by decide +kernel
  have written : Written paths pathsLine :=
    Written.cons _ _ _ 0 _ (Written.cons _ _ _ 2 _ (Written.last _))
  refine ⟨by decide +kernel, valid, written, (decodes_iff valid written).mpr ?_⟩
  decide +kernel

def tabbed : Text := ['a', '\t', 'b']

theorem tab_letter_repeated :
    encode tabbed = "a\\tb".toList ∧ Valid tabbed ∧ Written [tabbed] (encode tabbed) ∧
      ((calls 12 2 ⟨holding (encode tabbed ++ ['\n']), 0, 0, 1, none⟩).map fun result =>
          (result.1, (List.range 5).map result.2.mem)) =
        some ([(.text, 0), (.newline, 0)], ['a', '\t', 't', 'b', nul]) ∧
      ¬Decodes [tabbed] (encode tabbed) := by
  have valid : Valid tabbed := by decide +kernel
  have all : ∀ token ∈ [tabbed], Valid token := fun token member =>
    List.mem_singleton.mp member ▸ valid
  have written : Written [tabbed] (encode tabbed) := Written.last tabbed
  refine ⟨by decide +kernel, valid, written, by decide +kernel, ?_⟩
  exact not_decodes all written ⟨tabbed, List.mem_singleton_self tabbed, by decide +kernel⟩

end Decoding

end AndroidBoot.Init.TokenEscapes
