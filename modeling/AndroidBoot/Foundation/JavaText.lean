/- source: none
   digest: Strings of UTF-16 units with the number formats, splitting and line reading of the Java library. -/

import Mathlib.Algebra.Order.Ring.Int
import Mathlib.Data.List.DropRight

set_option autoImplicit false

namespace AndroidBoot.Foundation.JavaText

abbrev Text := List UInt16

def text (literal : String) : Text := literal.toList.map fun c => UInt16.ofNat c.toNat

def unit (c : Char) : UInt16 := UInt16.ofNat c.toNat

/-- The digits outside ASCII that `Character.digit` knows, left open. -/
abbrev OtherDigits := UInt16 → Option Nat

def digit (others : OtherDigits) (radix : Nat) (c : UInt16) : Option Nat :=
  let n := c.toNat
  let value :=
    if 48 ≤ n ∧ n ≤ 57 then some (n - 48)
    else if 65 ≤ n ∧ n ≤ 90 then some (n - 55)
    else if 97 ≤ n ∧ n ≤ 122 then some (n - 87)
    else if n < 128 then none
    else others c
  value.filter (· < radix)

def magnitude (others : OtherDigits) (radix : Nat) (digits : Text) : Option Nat :=
  digits.foldlM (fun total c => (digit others radix c).map (total * radix + ·)) 0

def signed (others : OtherDigits) (bits radix : Nat) (negative : Bool) (digits : Text) :
    Option Int :=
  if digits = [] then none
  else
    (magnitude others radix digits).bind fun value =>
      let value : Int := if negative then -value else value
      if -2 ^ (bits - 1) ≤ value ∧ value < 2 ^ (bits - 1) then some value else none

def stripSign : Text → Bool × Text
  | [] => (false, [])
  | c :: rest =>
    if c = unit '-' then (true, rest)
    else if c = unit '+' then (false, rest)
    else (false, c :: rest)

/-- `Integer.parseInt`; `none` is a `NumberFormatException`. -/
def parseInt (others : OtherDigits) (s : Text) : Option Int :=
  signed others 32 10 (stripSign s).1 (stripSign s).2

def decodeLong (others : OtherDigits) (s : Text) : Option Int :=
  let negative := (stripSign s).1
  match (stripSign s).2 with
  | [] => none
  | c :: rest =>
    if c = unit '#' then signed others 64 16 negative rest
    else if c = unit '0' then
      match rest with
      | [] => some 0
      | d :: digits =>
        if d = unit 'x' ∨ d = unit 'X' then signed others 64 16 negative digits
        else signed others 64 8 negative (d :: digits)
    else signed others 64 10 negative (c :: rest)

def split (separator : UInt16) (s : Text) : List Text :=
  if separator ∈ s then (s.splitOn separator).rdropWhile (· = []) else [s]

def splitTwo (separator : UInt16) (s : Text) : List Text :=
  if separator ∈ s then
    [s.takeWhile (· ≠ separator), (s.dropWhile (· ≠ separator)).drop 1]
  else [s]

inductive StreamEnd
  | eof
  | ioException
  deriving DecidableEq

/-- A `BufferedReader`: what is still to be read, and how it ends. -/
structure Reader where
  pending : Text
  ends : StreamEnd
  deriving DecidableEq

def isLineEnd (c : UInt16) : Bool := c = unit '\n' || c = unit '\r'

def afterLine : Text → Text
  | [] => []
  | c :: rest =>
    if c = unit '\r' then
      match rest with
      | [] => []
      | d :: more => if d = unit '\n' then more else rest
    else rest

inductive LineRead
  | line (s : Text) (rest : Reader)
  | eof
  | ioException
  deriving DecidableEq

def Reader.readLine (reader : Reader) : LineRead :=
  if reader.pending.any isLineEnd then
    .line (reader.pending.takeWhile fun c => !isLineEnd c)
      { reader with pending := afterLine (reader.pending.dropWhile fun c => !isLineEnd c) }
  else
    match reader.ends with
    | .ioException => .ioException
    | .eof => if reader.pending = [] then .eof else .line reader.pending { reader with pending := [] }

example : parseInt (fun _ => none) (text "-12") = some (-12) := by decide +kernel

example : decodeLong (fun _ => none) (text "0x1F") = some 31 := by decide +kernel

end AndroidBoot.Foundation.JavaText
