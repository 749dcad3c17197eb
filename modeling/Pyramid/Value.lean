import Pyramid.Decimal.Shortest
import Pyramid.Limit
import Pyramid.Text.Quoted

/-!
# Values

The values that a settings file can hold: texts, integers, truth values, floating-point numbers,
dates and times, arrays, and tables whose entries keep their order. An absent value stands beside
them, for settings that are given from elsewhere. `Value.display` is the form in which a refused
value is shown, as long as it is not nested too deep and no integer in it is too long.
-/

namespace Pyramid

/-- A day of the calendar. -/
structure Date where
  year : Nat
  month : Nat
  day : Nat
deriving DecidableEq, Repr

/-- A time of day. -/
structure TimeOfDay where
  hour : Nat
  minute : Nat
  second : Nat
  microsecond : Nat
deriving DecidableEq, Repr

/-- A value of a settings file. -/
inductive Value where
  | absent
  | text (t : Text)
  | integer (n : Int)
  | bool (b : Bool)
  | number (x : Binary64)
  | date (d : Date)
  | time (t : TimeOfDay)
  /-- A date with a time of day and, if given, the distance of its zone in minutes. -/
  | dateTime (d : Date) (t : TimeOfDay) (zone : Option Int)
  | array (vs : List Value)
  | table (entries : List (Text × Value))

/-- A table: keys with their values, in the order in which they were set. -/
abbrev Table := List (Text × Value)

/-! ## Dates and times -/

namespace Date

/-- Is there a 29 February in that year? -/
def isLeap (year : Nat) : Bool := year % 4 = 0 && (year % 100 ≠ 0 || year % 400 = 0)

/-- The days of a month. -/
def daysIn (year month : Nat) : Nat :=
  if month = 2 then (if isLeap year then 29 else 28)
  else if month = 4 || month = 6 || month = 9 || month = 11 then 30
  else 31

/-- Is there such a day? Years are counted from one. -/
def isValid (d : Date) : Bool :=
  1 ≤ d.year && 1 ≤ d.month && d.month ≤ 12 && 1 ≤ d.day && d.day ≤ daysIn d.year d.month

/-- The parts of a date. -/
def parts (d : Date) : List Nat := [d.year, d.month, d.day]

end Date

/-- The parts of a time that are shown: hour and minute always, the rest without trailing zeros. -/
def TimeOfDay.parts (t : TimeOfDay) : List Nat :=
  if t.microsecond ≠ 0 then [t.hour, t.minute, t.second, t.microsecond]
  else if t.second ≠ 0 then [t.hour, t.minute, t.second]
  else [t.hour, t.minute]

/-- Numbers with commas between them. -/
def commaSeparated (ns : List Nat) : Text := Text.join ", " (ns.map Text.ofNat)

/-- The distance of a zone, in minutes, as it is shown. -/
def zoneText (minutes : Int) : Text :=
  if minutes = 0 then "datetime.timezone.utc"
  else
    let seconds : Text := "seconds=" ++ Text.ofInt (60 * minutes % 86400)
    let days : Text := if minutes < 0 then "days=-1, " else ""
    "datetime.timezone(datetime.timedelta(" ++ days ++ seconds ++ "))"

/-! ## Values as text -/

/-- A value is shown only if fewer than this many arrays and tables are around any part of it. -/
def Value.displayBound : Nat := 993

mutual

/-- A value in words, inside `depth` arrays and tables. Parts are looked at from left to right, and
the first that cannot be shown decides. -/
def Value.displayAt (depth : Nat) (v : Value) : Except Limit Text :=
  if Value.displayBound ≤ depth then .error .depth
  else
    match v with
    | .absent => .ok "None"
    | .text t => .ok (Text.quoted t)
    | .integer n => if Text.isShowable n then .ok (Text.ofInt n) else .error .digitsShown
    | .bool b => .ok (Text.ofBool b)
    | .number x => .ok x.text
    | .date d => .ok ("datetime.date(" ++ commaSeparated d.parts ++ ")")
    | .time t => .ok ("datetime.time(" ++ commaSeparated t.parts ++ ")")
    | .dateTime d t zone =>
      let zone : Text := match zone with
        | none => ""
        | some minutes => ", tzinfo=" ++ zoneText minutes
      .ok ("datetime.datetime(" ++ commaSeparated (d.parts ++ t.parts) ++ zone ++ ")")
    | .array vs => do
      return "[" ++ Text.join ", " (← Value.displayAll (depth + 1) vs) ++ "]"
    | .table entries => do
      return "\x7b" ++ Text.join ", " (← Value.displayEntries (depth + 1) entries) ++ "\x7d"

/-- The values of an array in words. -/
def Value.displayAll (depth : Nat) : List Value → Except Limit (List Text)
  | [] => .ok []
  | v :: vs => do
    let t ← v.displayAt depth
    return t :: (← Value.displayAll depth vs)

/-- The entries of a table in words. -/
def Value.displayEntries (depth : Nat) : List (Text × Value) → Except Limit (List Text)
  | [] => .ok []
  | (key, v) :: entries => do
    let t ← v.displayAt depth
    return (Text.quoted key ++ ": " ++ t) :: (← Value.displayEntries depth entries)

end

/-- A value in words. -/
def Value.display (v : Value) : Except Limit Text := v.displayAt 0

/-! ## Tables -/

namespace Table

/-- The value of a key. -/
def get? : Table → (key : Text) → Option Value
  | [], _ => none
  | (k, v) :: entries, key => if k = key then some v else get? entries key

/-- The table with a key set: where it is, if it is there, otherwise at the end. -/
def set (key : Text) (v : Value) : Table → Table
  | [] => [(key, v)]
  | (k, w) :: entries => if k = key then (k, v) :: entries else (k, w) :: set key v entries

/-- The table of a list of keys and values; of a repeated key the last value counts. -/
def ofList (entries : List (Text × Value)) : Table :=
  entries.foldl (fun t (key, v) => t.set key v) []

/-- Changes the table that a path of keys leads to. Missing tables on the way are made; a path leads
through the last element of an array only if `throughArrays` says so; anything else on the way, or a
change that is refused, gives nothing. -/
def update (throughArrays : Bool) (change : Table → Option Table) : List Text → Table → Option Table
  | [], t => change t
  | key :: path, t =>
    match t.get? key with
    | none => (update throughArrays change path []).map fun u => t.set key (.table u)
    | some (.table u) => (update throughArrays change path u).map fun u => t.set key (.table u)
    | some (.array vs) =>
      match throughArrays, vs.getLast? with
      | true, some (.table u) =>
        (update throughArrays change path u).map fun u =>
          t.set key (.array (vs.dropLast ++ [.table u]))
      | _, _ => none
    | some _ => none

theorem get?_set (t : Table) (key k : Text) (v : Value) :
    (t.set key v).get? k = if key = k then some v else t.get? k := by
  induction t with
  | nil => simp [set, get?]
  | cons e t ih =>
    obtain ⟨k', w⟩ := e
    grind [set, get?]

end Table
end Pyramid
