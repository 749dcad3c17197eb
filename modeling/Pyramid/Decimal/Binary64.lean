/-!
# Binary floating-point numbers

Numbers of the binary64 format, as an exact significand times a power of two. `Binary64.nearest`
rounds a quotient of natural numbers to the format, ties going to the even significand; all the
arithmetic is exact, on natural numbers.
-/

namespace Pyramid

/-- A power of two. -/
def twoTo (n : Nat) : Nat := Nat.pow 2 n

/-- A power of ten. -/
def tenTo (n : Nat) : Nat := Nat.pow 10 n

/-- A quotient rounded to the nearest natural number, a half going to the even neighbour. -/
def roundDiv (num den : Nat) : Nat :=
  let q := num / den
  let twice := 2 * (num % den)
  if twice < den then q
  else if den < twice then q + 1
  else if q % 2 = 0 then q else q + 1

/-- The rounded quotient is one of the two neighbours of the exact one. -/
theorem roundDiv_eq_or (num den : Nat) :
    roundDiv num den = num / den ∨ roundDiv num den = num / den + 1 := by
  unfold roundDiv
  grind

/-- A number of the binary64 format. -/
inductive Binary64 where
  | nan
  | infinite (negative : Bool)
  /-- The number `significand * 2 ^ exponent`. -/
  | finite (negative : Bool) (significand : Nat) (exponent : Int)
deriving DecidableEq, Repr

namespace Binary64

/-- Significands are below `2 ^ precision`. -/
def precision : Nat := 53

/-- The least exponent. -/
def leastExponent : Int := -1074

/-- The greatest exponent. -/
def greatestExponent : Int := 971

/-- The quotient `num / den` over `2 ^ exponent`, as a fraction. -/
def scaled (num den : Nat) (exponent : Int) : Nat × Nat :=
  (num * twoTo (-exponent).toNat, den * twoTo exponent.toNat)

/-- The exponent at which the quotient has a significand of full precision, or the least one. -/
def exponentFor (num den : Nat) : Int :=
  let guess : Int := (Nat.log2 num : Int) - Nat.log2 den - (precision - 1 : Nat)
  let (n, d) := scaled num den guess
  max leastExponent (if n / d < twoTo (precision - 1) then guess - 1 else guess)

/-- The number of the format nearest to `num / den`. -/
def nearest (negative : Bool) (num den : Nat) : Binary64 :=
  if num = 0 then .finite negative 0 leastExponent
  else
    let exponent := exponentFor num den
    let (n, d) := scaled num den exponent
    let m := roundDiv n d
    let (m, exponent) := if m = twoTo precision then (twoTo (precision - 1), exponent + 1)
      else (m, exponent)
    if greatestExponent < exponent then .infinite negative else .finite negative m exponent

/-- The number of the format nearest to `digits * 10 ^ power`. Powers that are far out of range are
settled by their size. -/
def ofDecimal (negative : Bool) (digits : Nat) (power : Int) : Binary64 :=
  let size : Int := (Nat.toDigits 10 digits).length + power
  if digits = 0 then .finite negative 0 leastExponent
  else if 400 < size then .infinite negative
  else if size < -400 then .finite negative 0 leastExponent
  else nearest negative (digits * tenTo power.toNat) (tenTo (-power).toNat)

/-- A finite number without its sign, as a fraction. -/
def fraction (significand : Nat) (exponent : Int) : Nat × Nat :=
  (significand * twoTo exponent.toNat, twoTo (-exponent).toNat)

/-- The number rounded to a count of decimal places: its exact value is rounded, a half going to
the even last digit, and the result is rounded to the format. -/
def roundPlaces (places : Nat) : Binary64 → Binary64
  | .finite negative significand exponent =>
    let (n, d) := fraction significand exponent
    nearest negative (roundDiv (n * tenTo places) d) (tenTo places)
  | x => x

end Binary64
end Pyramid
