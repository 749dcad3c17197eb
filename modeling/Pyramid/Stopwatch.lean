import Pyramid.Decimal.Shortest
import Pyramid.Limit

/-!
# Timing

A measurement is shown on a line of its own: the name of what was measured, set against the right
edge of a column, and the time it took in milliseconds, with at most five decimal places.

Specification §2: the timing helper among the utilities, at work behind the switch `-m` (§6).
-/

namespace Pyramid.Stopwatch

/-- The width of the column of names. -/
def nameWidth : Nat := 24

/-- Nanoseconds as milliseconds, if there is a number for them. -/
def milliseconds (ns : Int) : Except Limit Binary64 :=
  match Binary64.nearest (ns < 0) ns.natAbs 1000000 with
  | .finite negative significand exponent =>
    .ok (Binary64.roundPlaces 5 (.finite negative significand exponent))
  | _ => .error .duration

/-- The line for a measurement of `ns` nanoseconds. -/
def line (name : Text) (ns : Int) : Except Limit Text := do
  return Text.padLeft ' ' nameWidth name ++ "   " ++ (← milliseconds ns).text ++ "\n"

/-- The durations that successive measurements will take, over and over again. -/
structure Durations where
  cycle : List Int
  /-- How many measurements were made. -/
  made : Nat := 0

/-- The duration of the next measurement. -/
def Durations.next (d : Durations) : Int × Durations :=
  (d.cycle.getD (d.made % d.cycle.length) 0, { d with made := d.made + 1 })

end Pyramid.Stopwatch
