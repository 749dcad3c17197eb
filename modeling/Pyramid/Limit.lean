import Pyramid.Text.Basic

/-!
# Limits

Some requests are turned down for their size alone: values that are nested too deep, integers with
too many digits, durations that no number of milliseconds is near to. The bounds themselves stand
where they are kept.
-/

namespace Pyramid

/-- A bound that a request goes beyond. -/
inductive Limit where
  /-- A value is nested too deep to be read or shown. -/
  | depth
  /-- An integer to be read has this many decimal digits. -/
  | digitsRead (count : Nat)
  /-- An integer to be shown has too many decimal digits. -/
  | digitsShown
  /-- A duration is too long to be shown in milliseconds. -/
  | duration
deriving DecidableEq, Repr

/-- The limit in words. -/
def Limit.text : Limit → Text
  | .depth => "Nested too deep"
  | .digitsRead count =>
    "Exceeds the limit (" ++ Text.ofNat Text.digitBound
      ++ " digits) for integer string conversion: value has " ++ Text.ofNat count
      ++ " digits; use sys.set_int_max_str_digits() to increase the limit"
  | .digitsShown =>
    "Exceeds the limit (" ++ Text.ofNat Text.digitBound
      ++ " digits) for integer string conversion; use sys.set_int_max_str_digits() to increase"
      ++ " the limit"
  | .duration => "integer division result too large for a float"

end Pyramid
