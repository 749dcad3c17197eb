import Pyramid.Text.Blank
import Pyramid.Text.Digit

/-!
# Integers in writing

An integer is written with decimal digits of any script, an underscore between two of them if one
likes, a sign in front, and blanks around it all. Of the ASCII characters only the space and the
tab, line feed, vertical tab, form feed and carriage return are such blanks.
-/

namespace Pyramid.Text

/-- A blank that may stand around an integer. -/
def isIntegerBlank (c : Char) : Bool :=
  if c.toNat < 0x80 then c = ' ' || (0x09 ≤ c.toNat && c.toNat ≤ 0x0D) else isBlank c

/-- The values of the digits, an underscore being allowed between two of them. -/
def digitValues? : Text → Option (List Nat)
  | [] => none
  | [c] => (digitValue? c).map fun d => [d]
  | c :: '_' :: rest => do return (← digitValue? c) :: (← digitValues? rest)
  | c :: rest => do return (← digitValue? c) :: (← digitValues? rest)

/-- The number of at most so many digits that a text spells. -/
def toNat? (t : Text) : Option Nat := do
  let digits ← digitValues? t
  if digitBound < digits.length then none
  else some (digits.foldl (fun n d => n * 10 + d) 0)

/-- The integer that a text spells. -/
def toInt? (t : Text) : Option Int :=
  let trimmed := ((t.dropWhile isIntegerBlank).reverse.dropWhile isIntegerBlank).reverse
  match trimmed with
  | '-' :: rest => (toNat? rest).map fun n => -(n : Int)
  | '+' :: rest => (toNat? rest).map fun n => (n : Int)
  | rest => (toNat? rest).map fun n => (n : Int)

example : toInt? " +1_0\n" = some 10 := by decide +kernel
example : toInt? "1__0" = none := by decide +kernel

end Pyramid.Text
