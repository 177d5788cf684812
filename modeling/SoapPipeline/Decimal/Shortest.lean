/-
  SoapPipeline.Decimal.Shortest

  The shortest decimal that reads back as a given 64-bit float, and its
  written form.

  A float is `mantissa * 2 ^ exponent` exactly, and every real between its two
  rounding borders reads back as it (the borders too when the mantissa is
  even).  For one digit, two digits and so on, the two neighbours of the float
  on the grid of decimals with that many digits are tried; the first grid with
  a neighbour inside the borders gives the answer, the nearer one when both
  are.  All comparisons are between natural numbers.
-/

namespace SoapPipeline.Decimal

/-! ## Exact values -/

/-- A positive real `mantissa * 2 ^ exponent`, with the borders of the reals that
round to it given as multiples of a quarter of the last binary place. -/
structure Binary where
  mantissa : Nat
  exponent : Int
  below : Nat
  above : Nat

/-- The bit of a mantissa that normal floats do not store. -/
def hiddenBit : Nat := 0x10000000000000

/-- The bit of the sign. -/
def signBit : Nat := 0x8000000000000000

/-- The magnitude that the bits of a float stand for. -/
def Binary.ofBits (bits : UInt64) : Binary :=
  let fraction : Nat := bits.toNat % hiddenBit
  let biased : Nat := bits.toNat / hiddenBit % 0x800
  let mantissa := if biased = 0 then fraction else fraction + hiddenBit
  let exponent : Int := (max biased 1 : Nat) - (1075 : Int)
  let below := if fraction = 0 ∧ 1 < biased then 4 * mantissa - 1 else 4 * mantissa - 2
  ⟨mantissa, exponent, below, 4 * mantissa + 2⟩

/-- A decimal `digits * 10 ^ power`. -/
structure Scaled where
  digits : Nat
  power : Int
  deriving DecidableEq, Repr

/-- Quarters of the last binary place, brought to a common denominator with the
decimal grid `10 ^ power`. -/
def Binary.onGrid (b : Binary) (quarters : Nat) (power : Int) : Nat :=
  quarters * Nat.pow 2 (b.exponent - 2).toNat * Nat.pow 10 (-power).toNat

/-- One step of the decimal grid, over the same denominator. -/
def Binary.gridStep (b : Binary) (power : Int) : Nat :=
  Nat.pow 10 power.toNat * Nat.pow 2 (2 - b.exponent).toNat

/-! ## The search -/

/-- The number of decimal digits of `n`. -/
def digitCount (n : Nat) : Nat :=
  (Nat.toDigits 10 n).length

/-- The power of ten of the leading digit. -/
def Binary.leadingPower (b : Binary) : Int :=
  let top := b.onGrid (4 * b.mantissa) 0
  let unit := b.gridStep 0
  let guess : Int := (digitCount top : Int) - digitCount unit
  if top * Nat.pow 10 (-guess).toNat < unit * Nat.pow 10 guess.toNat then guess - 1 else guess

/-- The decimal of this many digits that reads back as the float, if there is
one; the nearer neighbour first, the upper one on a tie. -/
def Binary.withDigits? (b : Binary) (count : Nat) : Option Scaled :=
  let power := b.leadingPower - count + 1
  let step := b.gridStep power
  let value := b.onGrid (4 * b.mantissa) power
  let low := b.onGrid b.below power
  let high := b.onGrid b.above power
  let inside (n : Nat) : Bool :=
    if b.mantissa % 2 = 0 then low ≤ n * step ∧ n * step ≤ high
    else low < n * step ∧ n * step < high
  let down := value / step
  let up := down + 1
  let upIsNearer := up * step - value ≤ value - down * step
  if inside down && !(inside up && upIsNearer) then some ⟨down, power⟩
  else if inside up then some ⟨up, power⟩
  else none

/-- The shortest decimal that reads back as the float; 17 digits always do. -/
def Binary.shortest (b : Binary) : Scaled :=
  ((List.range 17).findSome? fun i => b.withDigits? (i + 1)).getD ⟨0, 0⟩

/-! ## The written form -/

/-- Drops zeros at the end of a digit list. -/
def dropTrailingZeros (digits : List Char) : List Char :=
  (digits.reverse.dropWhile (· = '0')).reverse

/-- Digits with the point after the first one and an exponent. -/
def scientific (digits : List Char) (leading : Int) : List Char :=
  let tail := digits.drop 1
  digits.take 1 ++ (if tail.isEmpty then [] else '.' :: tail) ++ 'e' :: (toString leading).toList

/-- Digits with the point at its place and at least one digit on either side. -/
def positional (digits : List Char) (leading : Int) : List Char :=
  if leading < 0 then
    '0' :: '.' :: List.replicate (-leading - 1).toNat '0' ++ digits
  else
    let places := leading.toNat + 1
    let padded := digits ++ List.replicate (places - digits.length) '0'
    let tail := padded.drop places
    padded.take places ++ '.' :: (if tail.isEmpty then ['0'] else tail)

/-- The text of a finite float.  Magnitudes from `10 ^ -4` up to `10 ^ 16` are
written with the point at its place, all others with an exponent. -/
def describe (x : Float) : String :=
  let bits := x.toBits
  let sign := if signBit ≤ bits.toNat then "-" else ""
  if bits.toNat % signBit = 0 then sign ++ "0.0"
  else
    let d := (Binary.ofBits bits).shortest
    let chars := Nat.toDigits 10 d.digits
    let leading := d.power + chars.length - 1
    let digits := dropTrailingZeros chars
    let text :=
      if -4 ≤ leading ∧ leading < 16 then positional digits leading
      else scientific digits leading
    sign ++ String.ofList text

end SoapPipeline.Decimal
