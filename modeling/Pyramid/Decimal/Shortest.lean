import Pyramid.Decimal.Binary64
import Pyramid.Text.Basic

/-!
# The shortest decimal

A number is written with the fewest decimal digits that read back as the same number, and of those
with the digits nearest to it. On the grid of decimals with a given count of digits only the two
neighbours of the number can read back, so counts are tried from one on and at each of them the two
neighbours are.

The written form is positional from `0.0001` up to, but without, `1e16`, and then has at least one
digit on either side of the point; outside that range it has an exponent of at least two digits with
a sign.
-/

namespace Pyramid

/-- A positive decimal `digits * 10 ^ power`. -/
structure Decimal where
  digits : Nat
  power : Int
deriving DecidableEq, Repr

namespace Decimal

/-- A decimal as a fraction. -/
def fraction (x : Decimal) : Nat × Nat := (x.digits * tenTo x.power.toNat, tenTo (-x.power).toNat)

/-- The number of the binary format that the decimal reads as. -/
def value (x : Decimal) : Binary64 := .nearest false x.fraction.1 x.fraction.2

/-- The distance of a decimal from `num / den`, as a numerator over the product of both
denominators. -/
def distance (x : Decimal) (num den : Nat) : Nat :=
  let (n, d) := x.fraction
  if n * den ≤ num * d then num * d - n * den else n * den - num * d

/-- How many digits stand before the point of `num / den`, which is positive; negative when zeros
follow the point. -/
def pointOf (num den : Nat) : Int :=
  if den ≤ num then (Nat.toDigits 10 (num / den)).length
  else 1 - (Nat.toDigits 10 ((den - 1) / num)).length

/-- The two neighbours of `num / den` on the grid of multiples of `10 ^ power`. -/
def neighbours (num den : Nat) (power : Int) : Decimal × Decimal :=
  let q := (num * tenTo (-power).toNat) / (den * tenTo power.toNat)
  (⟨q, power⟩, ⟨q + 1, power⟩)

/-- Which of two neighbours to write, if one reads back as `x`: the nearer of two that do, and of
two equally near the one with an even last digit. -/
def choose (x : Binary64) (num den : Nat) (below above : Decimal) : Option Decimal :=
  match decide (below.digits ≠ 0 ∧ below.value = x), decide (above.value = x) with
  | true, true =>
    -- The two lie on one grid, so their distances have one denominator.
    if below.distance num den < above.distance num den then some below
    else if above.distance num den < below.distance num den then some above
    else if below.digits % 2 = 0 then some below else some above
  | true, false => some below
  | false, true => some above
  | false, false => none

/-- Tries the counts of digits from `count` on. -/
def search (x : Binary64) (num den : Nat) (count : Nat) : (tries : Nat) → Option Decimal
  | 0 => none
  | tries + 1 =>
    let (below, above) := neighbours num den (pointOf num den - count)
    match choose x num den below above with
    | some d => some d
    | none => search x num den (count + 1) tries

/-- The shortest decimal that reads as `significand * 2 ^ exponent`. Seventeen digits always do. -/
def shortest (significand : Nat) (exponent : Int) : Decimal :=
  let (num, den) := Binary64.fraction significand exponent
  (search (.finite false significand exponent) num den 1 17).getD ⟨0, 0⟩

/-- The positional form, for digits with the point after `point` of them. -/
def positional (digits : Text) (point : Int) : Text :=
  if point ≤ 0 then "0." ++ List.replicate (-point).toNat '0' ++ digits
  else if digits.length ≤ point.toNat then
    digits ++ List.replicate (point.toNat - digits.length) '0' ++ ".0"
  else digits.take point.toNat ++ "." ++ digits.drop point.toNat

/-- The form with an exponent. -/
def exponential (digits : Text) (exponent : Int) : Text :=
  let mantissa : Text := match digits with
    | d :: e :: rest => d :: '.' :: e :: rest
    | ds => ds
  mantissa ++ (if exponent < 0 then "e-" else "e+")
    ++ Text.padLeft '0' 2 (Text.ofNat exponent.natAbs)

/-- A decimal in writing. Zeros at the end of the digits carry nothing. -/
def text (x : Decimal) : Text :=
  let digits := Text.ofNat x.digits
  let point : Int := digits.length + x.power
  let digits := (digits.reverse.dropWhile (· = '0')).reverse
  if -4 < point ∧ point ≤ 16 then positional digits point else exponential digits (point - 1)

end Decimal

/-- A number in writing. -/
def Binary64.text : Binary64 → Text
  | .nan => "nan"
  | .infinite negative => if negative then "-inf" else "inf"
  | .finite negative significand exponent =>
    let digits : Text :=
      if significand = 0 then "0.0" else (Decimal.shortest significand exponent).text
    if negative then '-' :: digits else digits

end Pyramid
