import Pyramid.Text.Basic

/-!
# Paths

A path is a chain of names below the working directory or below the root. Empty names and `.` are
left out when a path is read; `..` is kept, because the directory before it has to exist when the
path is followed. Two slashes in front, and not more, are kept apart from one.
-/

namespace Pyramid

/-- Where a path begins. -/
inductive Anchor where
  /-- In the working directory. -/
  | here
  /-- At the root. -/
  | root
  /-- At the root, written with two slashes. -/
  | doubleRoot
deriving DecidableEq, Repr

/-- How an anchor is written. -/
def Anchor.text : Anchor → Text
  | .here => ""
  | .root => "/"
  | .doubleRoot => "//"

/-- A path in its short form. -/
structure Path where
  anchor : Anchor
  names : List Text
deriving DecidableEq, Repr

namespace Path

/-- The anchor that a text begins with. -/
def anchorOf : Text → Anchor
  | '/' :: '/' :: '/' :: _ => .root
  | '/' :: '/' :: _ => .doubleRoot
  | '/' :: _ => .root
  | _ => .here

/-- The names between the slashes of a text, but for empty ones and `.`. -/
def namesOf (t : Text) : List Text := (t.splitOn '/').filter fun n => n ≠ [] ∧ n ≠ ['.']

/-- The path that a text describes. -/
def ofText (t : Text) : Path := ⟨anchorOf t, namesOf t⟩

/-- The path `q`, begun at `p` unless it has an anchor of its own. -/
def append (p q : Path) : Path :=
  if q.anchor = .here then ⟨p.anchor, p.names ++ q.names⟩ else q

instance : Append Path := ⟨append⟩

/-- The directory that holds what the path leads to. -/
def parent (p : Path) : Path := ⟨p.anchor, p.names.dropLast⟩

/-- The path as text; the working directory itself is `.`. -/
def text (p : Path) : Text :=
  if p.anchor = .here ∧ p.names = [] then "."
  else p.anchor.text ++ Text.join "/" p.names

end Path
end Pyramid
