import Pyramid.Toml.Scan
import Pyramid.Value

/-!
# Numbers, dates and times

A number is the longest text at the current place that is one: an underscore may stand between two
digits, a decimal integer has no leading zero, and a fraction or an exponent makes it a
floating-point number. Dates and times are recognised before numbers; a date whose month or day is
out of any range is a number followed by something else, a day that a month does not have is
refused.

Each recogniser takes a text and gives what it recognised and what is left.
-/

namespace Pyramid.Toml

/-! ## Runs of digits -/

/-- Digits, with an underscore before any of them; the underscores are left out. -/
def moreDigits (isDigit : Char → Bool) : Text → Text × Text
  | '_' :: d :: rest =>
    if isDigit d then
      let (ds, rest) := moreDigits isDigit rest
      (d :: ds, rest)
    else ([], '_' :: d :: rest)
  | d :: rest =>
    if isDigit d then
      let (ds, rest) := moreDigits isDigit rest
      (d :: ds, rest)
    else ([], d :: rest)
  | [] => ([], [])

/-- A digit, and more of them. -/
def digits? (isDigit : Char → Bool) : Text → Option (Text × Text)
  | d :: rest =>
    if isDigit d then
      let (ds, rest) := moreDigits isDigit rest
      some (d :: ds, rest)
    else none
  | [] => none

/-- A number of exactly so many decimal digits. -/
def fixedDigits? (count : Nat) (t : Text) : Option (Nat × Text) :=
  let digits := t.take count
  if digits.length = count && digits.all Char.isDigit then some (numberOf 10 digits, t.drop count)
  else none

/-! ## Numbers -/

/-- A sign in front: whether it is a minus, and what is left. -/
def sign : Text → Bool × Text
  | '-' :: rest => (true, rest)
  | '+' :: rest => (false, rest)
  | t => (false, t)

/-- The digits of a decimal integer. -/
def integerPart? : Text → Option (Text × Text)
  | '0' :: rest => some (['0'], rest)
  | t => digits? Char.isDigit t

/-- The digits of a fraction. -/
def fractionPart (t : Text) : Text × Text :=
  match t with
  | '.' :: rest => (digits? Char.isDigit rest).getD ([], t)
  | _ => ([], t)

/-- An exponent. -/
def exponentPart? (t : Text) : Option (Int × Text) :=
  match t with
  | e :: rest =>
    if e = 'e' || e = 'E' then
      let (negative, rest) := sign rest
      (digits? Char.isDigit rest).map fun (ds, rest) =>
        let n : Int := numberOf 10 ds
        (if negative then -n else n, rest)
    else none
  | [] => none

/-- An integer in another base, behind a zero and a letter. -/
def baseInteger? : Text → Option (Int × Text)
  | '0' :: letter :: rest =>
    let ofBase (base : Nat) (isDigit : Char → Bool) : Option (Int × Text) :=
      (digits? isDigit rest).map fun (ds, rest) => ((numberOf base ds : Int), rest)
    if letter = 'x' then ofBase 16 isHex
    else if letter = 'b' then ofBase 2 fun c => c = '0' || c = '1'
    else if letter = 'o' then ofBase 8 fun c => '0' ≤ c && c ≤ '7'
    else none
  | _ => none

/-- A decimal number; an integer with too many digits is a problem. -/
def decimal? (t : Text) : Option (Except Problem Value × Text) := do
  let (negative, unsigned) := sign t
  let (whole, rest) ← integerPart? unsigned
  let (fraction, rest) := fractionPart rest
  match fraction, exponentPart? rest with
  | [], none =>
    let n : Int := numberOf 10 whole
    if Text.digitBound < whole.length then
      some (.error (.limit (.digitsRead whole.length)), rest)
    else some (.ok (.integer (if negative then -n else n)), rest)
  | fraction, none =>
    some (.ok (.number (.ofDecimal negative (numberOf 10 (whole ++ fraction)) (-fraction.length))),
      rest)
  | fraction, some (exponent, rest) =>
    some (.ok (.number (.ofDecimal negative (numberOf 10 (whole ++ fraction))
      (exponent - fraction.length))), rest)

/-- A number that has no digits. -/
def special? (t : Text) : Option (Value × Text) :=
  let (negative, rest) := sign t
  match rest with
  | 'i' :: 'n' :: 'f' :: rest => some (.number (.infinite negative), rest)
  | 'n' :: 'a' :: 'n' :: rest => some (.number .nan, rest)
  | _ => none

/-! ## Dates and times -/

/-- A time of day. Of a fraction of a second, six digits count. -/
def time? (t : Text) : Option (TimeOfDay × Text) := do
  let (hour, t) ← fixedDigits? 2 t
  let t ← Text.dropStart? ":" t
  let (minute, t) ← fixedDigits? 2 t
  let t ← Text.dropStart? ":" t
  let (second, t) ← fixedDigits? 2 t
  if 23 < hour || 59 < minute || 59 < second then none
  else
    let digits := match t with
      | '.' :: rest => rest.takeWhile Char.isDigit
      | _ => []
    let micros := digits.take 6
    let rest := if digits = [] then t else t.drop (digits.length + 1)
    some (⟨hour, minute, second, numberOf 10 micros * tenTo (6 - micros.length)⟩, rest)

/-- A date, whose month and day are in the range that months and days have. -/
def date? (t : Text) : Option (Date × Text) := do
  let (year, t) ← fixedDigits? 4 t
  let t ← Text.dropStart? "-" t
  let (month, t) ← fixedDigits? 2 t
  let t ← Text.dropStart? "-" t
  let (day, t) ← fixedDigits? 2 t
  if 1 ≤ month && month ≤ 12 && 1 ≤ day && day ≤ 31 then some (⟨year, month, day⟩, t) else none

/-- The distance of a zone, in minutes. -/
def zone? : Text → Option (Int × Text)
  | 'Z' :: rest => some (0, rest)
  | 'z' :: rest => some (0, rest)
  | s :: rest => do
    if s = '+' || s = '-' then
      let (hour, rest) ← fixedDigits? 2 rest
      let rest ← Text.dropStart? ":" rest
      let (minute, rest) ← fixedDigits? 2 rest
      if 23 < hour || 59 < minute then none
      else
        let n : Int := 60 * hour + minute
        some (if s = '-' then -n else n, rest)
    else none
  | [] => none

/-- A date, with a time of day if one follows. -/
def dateTime? (t : Text) : Option (Except Problem Value × Text) := do
  let (date, rest) ← date? t
  let refuse (v : Value) : Except Problem Value := if date.isValid then .ok v else .error .date
  match rest with
  | s :: more =>
    if s = 'T' || s = 't' || s = ' ' then
      match time? more with
      | some (time, rest) =>
        match zone? rest with
        | some (zone, rest) => some (refuse (.dateTime date time (some zone)), rest)
        | none => some (refuse (.dateTime date time none), rest)
      | none => some (refuse (.date date), rest)
    else some (refuse (.date date), rest)
  | [] => some (refuse (.date date), rest)

/-! ## Scalars -/

/-- A date, a time or a number. -/
def scalar? (t : Text) : Option (Except Problem Value × Text) :=
  match dateTime? t with
  | some r => some r
  | none =>
    match time? t with
    | some (time, rest) => some (.ok (.time time), rest)
    | none =>
      match baseInteger? t with
      | some (n, rest) => some (.ok (.integer n), rest)
      | none =>
        match decimal? t with
        | some r => some r
        | none => (special? t).map fun (v, rest) => (.ok v, rest)

end Pyramid.Toml
