/-!
# Text

Everything the library reads or writes is a `Text`: a sequence of Unicode scalar values, which are
all code points but the surrogates U+D800 to U+DFFF. A surrogate on its own stands in no text; words
and file names that hold one, which some systems let through, are not described here.

Lengths, offsets, reversal and order all count code points; nothing is normalised and no two code
points are ever taken together.

String literals stand for the text of their characters, so a message is written
`"computed node for '" ++ found ++ "'"`.
-/

namespace Pyramid

/-- A sequence of code points, none of them a surrogate. -/
abbrev Text := List Char

instance : Coe String Text := ⟨String.toList⟩

namespace Text

/-! ## Numbers as text -/

/-- The decimal digits of a number, without leading zeros. -/
def ofNat (n : Nat) : Text := Nat.toDigits 10 n

/-- A number in decimal, with a minus sign in front when it is negative. -/
def ofInt : Int → Text
  | .ofNat n => ofNat n
  | .negSucc n => '-' :: ofNat (n + 1)

/-- An integer is read, and shown in a message, only if it has at most this many digits. -/
def digitBound : Nat := 4300

/-- Can the integer be shown? The sign is not a digit. -/
def isShowable (n : Int) : Bool := n.natAbs < Nat.pow 10 digitBound

/-- A truth value as it is written in answers. -/
def ofBool (b : Bool) : Text := if b then "True" else "False"

/-- The text, filled up on the left with `fill` until it has `width` characters. -/
def padLeft (fill : Char) (width : Nat) (t : Text) : Text :=
  List.replicate (width - t.length) fill ++ t

theorem length_padLeft (fill : Char) (width : Nat) (t : Text) :
    (padLeft fill width t).length = max width t.length := by
  simp only [padLeft, List.length_append, List.length_replicate]
  omega

/-- A number in lower-case hexadecimal, of at least `width` digits. -/
def ofNatHex (width n : Nat) : Text := padLeft '0' width (Nat.toDigits 16 n)

/-! ## Joining and ordering -/

/-- The parts one after another, with `separator` between neighbours. -/
def join (separator : Text) (parts : List Text) : Text := List.intercalate separator parts

@[simp] theorem join_nil (separator : Text) : join separator [] = [] := rfl

@[simp] theorem join_singleton (separator a : Text) : join separator [a] = a := by
  simp [join, List.intercalate]

@[simp] theorem join_pair (separator a b : Text) : join separator [a, b] = a ++ separator ++ b := by
  simp [join, List.intercalate]

/-- Texts in increasing order, compared code point by code point. -/
def sort (ts : List Text) : List Text := ts.mergeSort fun a b => (compare a b).isLE

theorem mem_sort {t : Text} {ts : List Text} : t ∈ sort ts ↔ t ∈ ts := List.mem_mergeSort

/-- Does the text begin with `start`? If so, the rest of it. -/
def dropStart? : (start : Text) → Text → Option Text
  | [], t => some t
  | c :: cs, d :: ds => if c = d then dropStart? cs ds else none
  | _ :: _, [] => none

theorem dropStart?_eq_some {start t rest : Text} :
    dropStart? start t = some rest ↔ t = start ++ rest := by
  fun_induction dropStart? start t with
  | case1 t => simp [eq_comm]
  | case2 c cs ds ih => simp [ih]
  | case3 c cs d ds h => simp [Ne.symm h]
  | case4 => simp

/-! ## Lines of a file -/

/-- Line ends made uniform: a carriage return, alone or before a line feed, becomes a line feed. -/
def uniformNewlines : Text → Text
  | '\r' :: '\n' :: rest => '\n' :: uniformNewlines rest
  | c :: rest => (if c = '\r' then '\n' else c) :: uniformNewlines rest
  | [] => []

end Text
end Pyramid
