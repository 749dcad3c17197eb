import Pyramid.CommandLine.Switch
import Pyramid.Text.Integer
import Pyramid.Value

/-!
# Reading the command line

The arguments are sorted first: each is a word, a switch, or something that looks like a switch
and is none; the first `--` makes words of all that follow. A switch may be shortened as long as
it stays clear which one is meant; a value follows as the next argument, behind `=`, or right
behind a one-letter switch; one-letter switches without values may be run together.

Then the arguments are taken in order. Words have to stand together: the first run of them counts,
and words behind a later switch are not recognised, which is said only after everything else was
accepted. Of a switch that is given several times the last value counts.

The switches are those of the specification's command line (§6). How they may be written, the
specification leaves to the option reader of the platform, and its releases differ in some rare
forms. The rules here are those up to release 3.11.8:

* `--` as the value of a switch (`-s--`, `--start=--`) is dropped, and nothing is left: no text but
  the empty array for a setting, no settings file, zero words to generate.
* An equals sign right behind a first one-letter switch without value is passed over, so `-d=m` is
  `-dm`. Further in it is a character like any other, so `-dg=x` gives `-g` the value `=x`.
* What is no switch behind one without value (`-dx`, `-hx`, `-dm=`) is refused as a value that the
  switch does not take.
-/

namespace Pyramid.CommandLine

/-! ## Sorting -/

/-- What an argument is. -/
inductive Token where
  | word (t : Text)
  /-- A switch, in its full spelling, with the value that was given along with it. -/
  | switch (s : Switch) (spelling : Text) (value : Option Text)
  /-- Something that looks like a switch. -/
  | unknown (t : Text)
  /-- The first `--`. -/
  | separator
deriving DecidableEq, Repr

/-- The mark behind which everything is a word. -/
def separatorText : Text := "--"

/-- A text cut at the first equals sign. -/
def cutAtEquals (t : Text) : Text × Option Text :=
  match t.dropWhile (· ≠ '=') with
  | _ :: value => (t.takeWhile (· ≠ '='), some value)
  | [] => (t, none)

/-- A minus sign with digits behind it, a point among them allowed. -/
def isNegativeNumber (t : Text) : Bool :=
  let isDigit (c : Char) : Bool := (Text.digitValue? c).isSome
  match t with
  | '-' :: rest =>
    let rest := if rest.getLast? = some '\n' then rest.dropLast else rest
    match rest.dropWhile isDigit with
    | [] => rest ≠ []
    | '.' :: fraction => fraction ≠ [] && fraction.all isDigit
    | _ => false
  | _ => false

/-- The switches that a text which is no full spelling may stand for: behind two dashes those whose
spelling begins like it, behind one dash the one of its first letter. -/
def candidates (t : Text) : List (Text × Switch × Option Text) :=
  match t with
  | '-' :: '-' :: _ =>
    let (start, value) := cutAtEquals t
    (Switch.table.filter fun (spelling, _) => start.isPrefixOf spelling).map
      fun (spelling, s) => (spelling, s, value)
  | _ =>
    (Switch.table.filter fun (spelling, _) => spelling = t.take 2).map
      fun (spelling, s) => (spelling, s, some (t.drop 2))

/-- Sorts an argument that stands before any `--`. -/
def classify (t : Text) : Except Complaint Token :=
  if t.head? ≠ some '-' then .ok (.word t)
  else
    match Switch.ofSpelling? t with
    | some s => .ok (.switch s t none)
    | none =>
      if t = ['-'] then .ok (.word t)
      else
        match cutAtEquals t with
        | (spelling, some value) =>
          match Switch.ofSpelling? spelling with
          | some s => .ok (.switch s spelling (some value))
          | none => shortened t
        | (_, none) => shortened t
where
  /-- Sorts an argument that begins with a dash and is no full spelling. -/
  shortened (t : Text) : Except Complaint Token :=
    match candidates t with
    | [(spelling, s, value)] => .ok (.switch s spelling value)
    | [] => .ok (if isNegativeNumber t || ' ' ∈ t then .word t else .unknown t)
    | several => .error (.ambiguous t (several.map (·.1)))

/-- Sorts all arguments. -/
def tokens : List Text → Except Complaint (List Token)
  | [] => .ok []
  | t :: rest =>
    if t = separatorText then .ok (.separator :: rest.map .word)
    else do
      let token ← classify t
      return token :: (← tokens rest)

/-! ## Taking the arguments -/

/-- What the command line asks for. A value that a switch gives is kept as it will be set. -/
structure Arguments where
  words : List Text := []
  grammar : Value := .absent
  start : Value := .absent
  level : Value := .absent
  /-- The settings file; an empty name counts as none. -/
  config : Text := []
  samples : Bool := false
  generate : Int := 0
  derivations : Bool := false
  measure : Bool := false

/-- Why no arguments result. -/
inductive Stop where
  /-- The help page was asked for. -/
  | help
  | complaint (c : Complaint)
deriving DecidableEq, Repr

/-- Where the run of words is. -/
inductive WordRun where
  | ahead
  | inside
  | behind
deriving DecidableEq, Repr

/-- The arguments taken so far. -/
structure Progress where
  arguments : Arguments := {}
  run : WordRun := .ahead
  /-- Arguments that were not recognised. -/
  extras : List Text := []

namespace Progress

/-- Takes a word: into the run of words, unless that has ended. -/
def takeWord (p : Progress) (t : Text) : Progress :=
  match p.run with
  | .behind => { p with extras := p.extras ++ [t] }
  | _ => { p with
      run := .inside
      arguments := { p.arguments with words := p.arguments.words ++ [t] } }

/-- Ends the run of words, if it has begun. -/
def endRun (p : Progress) : Progress :=
  { p with run := if p.run = .ahead then .ahead else .behind }

end Progress

/-- The value of a switch as it will be set; the mark `--` is dropped and leaves nothing behind. -/
def givenValue (t : Text) : Value := if t = separatorText then .array [] else .text t

/-- Takes a switch, with its value if it has one. -/
def takeSwitch (a : Arguments) (s : Switch) (value : Text) : Except Stop Arguments :=
  match s with
  | .help => .error .help
  | .grammar => .ok { a with grammar := givenValue value }
  | .start => .ok { a with start := givenValue value }
  | .config => .ok { a with config := if value = separatorText then [] else value }
  | .level =>
    if value ≠ separatorText && (Level.ofName? value).isNone then
      .error (.complaint (.choice value))
    else .ok { a with level := givenValue value }
  | .samples => .ok { a with samples := true }
  | .generate =>
    if value = separatorText then .ok { a with generate := 0 }
    else match Text.toInt? value with
      | some n => .ok { a with generate := n }
      | none => .error (.complaint (.integer value))
  | .derivations => .ok { a with derivations := true }
  | .measure => .ok { a with measure := true }

/-- The switches in an argument: those without values, in order, and the last one with the value
that was given along with it. -/
structure Cluster where
  flags : List Switch
  last : Switch
  value : Option Text

/-- Takes a value apart that was given along with a switch: it is the switch's own, or, behind a
one-letter switch without value, further switches. -/
def cluster (s : Switch) : (value : Text) → Except Complaint Cluster
  | [] => if s.takesValue then .ok ⟨[], s, some []⟩ else .error (.needlessValue s [])
  | c :: rest =>
    if s.takesValue then .ok ⟨[], s, some (c :: rest)⟩
    else
      match Switch.ofSpelling? ['-', c] with
      | none => .error (.needlessValue s (c :: rest))
      | some next =>
        if rest = [] then .ok ⟨[s], next, none⟩
        else do
          let more ← cluster next rest
          return { more with flags := s :: more.flags }

/-- The switches of a token. -/
def clusterOf (s : Switch) (spelling : Text) (value : Option Text) : Except Complaint Cluster :=
  match value with
  | none => .ok ⟨[], s, none⟩
  | some v =>
    if s.takesValue then .ok ⟨[], s, some v⟩
    else if spelling.length = 2 then cluster s v
    else .error (.needlessValue s v)

/-- Takes the switches of a cluster, the last one with the given value. -/
def takeCluster (p : Progress) (c : Cluster) (value : Text) : Except Stop Progress := do
  let a ← c.flags.foldlM (fun a s => takeSwitch a s []) p.arguments
  let a ← takeSwitch a c.last value
  return { p.endRun with arguments := a }

/-- Takes the tokens in order. -/
def take (p : Progress) : List Token → Except Stop Progress
  | [] => .ok p
  | .word t :: rest => take (p.takeWord t) rest
  | .separator :: rest => take (p.takeWord separatorText) rest
  | .unknown t :: rest => take { p.endRun with extras := p.extras ++ [t] } rest
  | .switch s spelling value :: rest =>
    match clusterOf s spelling value with
    | .error c => .error (.complaint c)
    | .ok c =>
      match c.value, c.last.takesValue, rest with
      | some v, _, rest => do take (← takeCluster p c v) rest
      | none, false, rest => do take (← takeCluster p c []) rest
      | none, true, .word v :: rest => do take (← takeCluster p c v) rest
      | none, true, _ => .error (.complaint (.missingValue c.last))

/-- Reads the command line. The `--` in front of words is not one of them. -/
def read (argv : List Text) : Except Stop Arguments :=
  match tokens argv with
  | .error c => .error (.complaint c)
  | .ok ts =>
    match take {} ts with
    | .error s => .error s
    | .ok p =>
      if p.extras ≠ [] then .error (.complaint (.unrecognized p.extras))
      else .ok { p.arguments with words := p.arguments.words.erase separatorText }

end Pyramid.CommandLine
