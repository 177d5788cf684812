/-
  SoapPipeline.Json.Number

  Number literals and what they stand for.

  An integer literal that fits 64 bits (with sign or without) is that integer.
  Every other literal is a 64-bit float: of its digits, a significand takes as
  many as fit an unsigned 64-bit word, and it is scaled by a power of ten with
  one rounding per step.  A literal beyond the largest finite float stands for
  no number.
-/

namespace SoapPipeline.Json

/-- A number literal, cut into its parts. -/
structure Literal where
  negative : Bool
  whole : List Nat
  /-- Digits after the point, if there is one. -/
  fraction : Option (List Nat)
  /-- Sign and digits of the exponent, if there is one. -/
  exponent : Option (Bool × List Nat)
  deriving Repr

/-- A number as data: an integer between `-2 ^ 63` and `2 ^ 64 - 1`, or a float. -/
inductive Number where
  | integer (n : Int)
  | real (x : Float)

namespace Literal

/-! ## Reading a literal -/

/-- The value of a decimal digit. -/
def digit? (c : Char) : Option Nat :=
  if '0' ≤ c ∧ c ≤ '9' then some (c.toNat - '0'.toNat) else none

/-- The digits that a text starts with, and the rest. -/
def takeDigits : List Char → List Nat × List Char
  | [] => ([], [])
  | c :: rest =>
    match digit? c with
    | some d => let (ds, after) := takeDigits rest; (d :: ds, after)
    | none => ([], c :: rest)

/-- Reads the exponent that ends a literal: a sign and at least one digit. -/
def exponentOf? (chars : List Char) : Option (Bool × List Nat) :=
  let (negative, chars) := match chars with
    | '+' :: rest => (false, rest)
    | '-' :: rest => (true, rest)
    | rest => (false, rest)
  match takeDigits chars with
  | ([], _) => none
  | (digits, []) => some (negative, digits)
  | _ => none

/-- Reads what follows the digits around the point. -/
def finish? (negative : Bool) (whole : List Nat) (fraction : Option (List Nat)) :
    List Char → Option Literal
  | [] => some ⟨negative, whole, fraction, none⟩
  | c :: rest =>
    if c = 'e' ∨ c = 'E' then
      (exponentOf? rest).map fun e => ⟨negative, whole, fraction, some e⟩
    else none

/-- Reads a whole literal: an optional minus, digits without a superfluous zero
in front, and optionally a point with digits and an exponent. -/
def ofChars? (chars : List Char) : Option Literal :=
  let (negative, chars) := match chars with
    | '-' :: rest => (true, rest)
    | rest => (false, rest)
  match takeDigits chars with
  | ([], _) => none
  | (0 :: _ :: _, _) => none
  | (whole, '.' :: rest) =>
    match takeDigits rest with
    | ([], _) => none
    | (fraction, rest) => finish? negative whole (some fraction) rest
  | (whole, rest) => finish? negative whole none rest

/-! ## Integers -/

/-- One more than the largest unsigned word. -/
def wordEnd : Nat := 0x10000000000000000

/-- The number that a list of digits writes. -/
def natOfDigits (digits : List Nat) : Nat :=
  digits.foldl (fun n d => n * 10 + d) 0

/-- The integer that a literal writes, when it has neither point nor exponent and
fits 64 bits.  Minus zero is no integer. -/
def toInt? (l : Literal) : Option Int :=
  match l.fraction, l.exponent with
  | none, none =>
    let n := natOfDigits l.whole
    if l.negative then
      if 0 < n ∧ n ≤ 0x8000000000000000 then some (-(n : Int)) else none
    else if n < wordEnd then some n
    else none
  | _, _ => none

/-! ## Floats -/

/-- A significand and the power of ten that scales it. -/
structure Scaled where
  significand : Nat
  exponent : Int

/-- Takes whole digits while the significand stays a word; the others only scale. -/
def takeWhole : Nat → List Nat → Scaled
  | n, [] => ⟨n, 0⟩
  | n, d :: ds =>
    if n * 10 + d < wordEnd then takeWhole (n * 10 + d) ds
    else ⟨n, ds.length + 1⟩

/-- Takes digits after the point while the significand stays a word; the others
are dropped. -/
def takeFraction : Scaled → List Nat → Scaled
  | s, [] => s
  | s, d :: ds =>
    if s.significand * 10 + d < wordEnd then
      takeFraction ⟨s.significand * 10 + d, s.exponent - 1⟩ ds
    else s

/-- The largest exponent that is still counted. -/
def exponentEnd : Nat := 0x80000000

/-- The power of ten with this exponent, rounded to nearest. -/
def powerOfTen (k : Nat) : Float :=
  Float.ofScientific 1 false k

/-- Scales down, by at most 308 places a step. -/
def scaleDown (x : Float) (places : Nat) : Float :=
  if places ≤ 308 then x / powerOfTen places
  else if x == 0.0 then x
  else scaleDown (x / powerOfTen 308) (places - 308)
termination_by places
decreasing_by omega

/-- The scaled significand as a float, unless it lies beyond the largest. -/
def Scaled.toFloat? (s : Scaled) : Option Float :=
  let x := (UInt64.ofNat s.significand).toFloat
  if s.exponent < 0 then some (scaleDown x (-s.exponent).toNat)
  else if s.exponent ≤ 308 then
    let y := x * powerOfTen s.exponent.toNat
    if y.isInf then none else some y
  else if s.significand = 0 then some x
  else none

/-- The magnitude of a literal as a float. -/
def magnitude? (l : Literal) : Option Float :=
  let s := takeFraction (takeWhole 0 l.whole) (l.fraction.getD [])
  match l.exponent with
  | none => s.toFloat?
  | some (negative, digits) =>
    let e := natOfDigits digits
    if exponentEnd ≤ e then
      if s.significand ≠ 0 ∧ !negative then none else some 0.0
    else Scaled.toFloat? ⟨s.significand, if negative then s.exponent - e else s.exponent + e⟩

/-- What a literal stands for. -/
def toNumber? (l : Literal) : Option Number :=
  match l.toInt? with
  | some n => some (.integer n)
  | none => l.magnitude?.map fun x => .real (if l.negative then -x else x)

end Literal

end SoapPipeline.Json
