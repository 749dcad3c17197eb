import Pyramid.Grammar.Basic

/-!
# Grammars as text

One production stands on a line, as `head->body`. Lines end at a line feed; a line that is blank, or
whose first character after spaces and tabs is `#`, is ignored but counted. A line is cut at every
`->`, and there has to be exactly one; carriage returns at the end of a line are dropped first.

`Grammar.read` gives the productions of all lines, or the number and the defect of the first line
that is neither ignored nor a production.

Specification §6: the format of grammar resources. What is at fault, and that the number of the line
is told, is said in §4.1.
-/

namespace Pyramid.Grammar

open Text

/-! ## One line -/

/-- A line that holds no production: only blanks, or a comment. -/
def isIgnorable (line : Text) : Bool :=
  line.all isBlank || (line.dropWhile fun c => c = ' ' || c = '\t').head? == some '#'

/-- The pieces of a text between the arrows `->`, taken from the left. -/
def arrowParts : Text → List Text
  | '-' :: '>' :: rest => [] :: arrowParts rest
  | c :: rest => (arrowParts rest).modifyHead (c :: ·)
  | [] => [[]]

/-- Why a line holds no production. -/
inductive LineDefect where
  /-- There is no arrow or more than one. -/
  | arrows (line : Text)
  /-- Head or body are refused. -/
  | production (d : Production.Defect)
deriving DecidableEq, Repr

/-- A line's defect in words. -/
def LineDefect.message : LineDefect → Text
  | .arrows line =>
    "'" ++ line ++ "' does not split into exactly two parts on '" ++ Production.arrow ++ "'"
  | .production d => d.message

/-- A line without the carriage returns at its end. -/
def dropReturns (line : Text) : Text := (line.reverse.dropWhile (· = '\r')).reverse

/-- The production on a line. -/
def readLine (line : Text) : Except LineDefect Production :=
  match arrowParts (dropReturns line) with
  | [head, body] => (Production.ofTexts head body).mapError .production
  | _ => .error (.arrows (strip line))

/-! ## All lines -/

/-- The first bad line of a grammar text, by its number from one on. -/
structure ReadError where
  line : Nat
  defect : LineDefect
deriving DecidableEq, Repr

/-- A bad line as a fault. -/
def ReadError.fault (e : ReadError) : Fault :=
  ⟨.malformedGrammar, e.defect.message, some e.line⟩

/-- The productions on the given lines, the first of which has the number `n`. -/
def readLines (n : Nat) : List Text → Except ReadError (List Production)
  | [] => .ok []
  | line :: lines =>
    if isIgnorable line then readLines (n + 1) lines
    else
      match readLine line with
      | .error d => .error ⟨n, d⟩
      | .ok p => (p :: ·) <$> readLines (n + 1) lines

/-- Reads a grammar. -/
def read (t : Text) : Except ReadError Grammar :=
  ofProductions <$> readLines 1 (t.splitOn '\n')

end Pyramid.Grammar
