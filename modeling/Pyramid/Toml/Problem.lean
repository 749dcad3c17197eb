import Pyramid.Limit
import Pyramid.Text.Quoted

/-!
# What can be wrong with a TOML document

A document is read from left to right and the first problem ends the reading. A problem is reported
with the place where the reader stood: the line and the column, both counted from one and in code
points, or the end of the document.
-/

namespace Pyramid.Toml

/-- A key: one name, or several with dots between them. -/
abbrev Key := List Text

/-- A key as it is shown. -/
def Key.text : Key → Text
  | [k] => "(" ++ Text.quoted k ++ ",)"
  | ks => "(" ++ Text.join ", " (ks.map Text.quoted) ++ ")"

/-- What is wrong. -/
inductive Problem where
  | statement
  | statementEnd
  | keyStart
  | equalsSign
  | value
  | tableEnd
  | arrayTableEnd
  | declaredTwice (key : Key)
  | overwrite
  | redefine (key : Key)
  | immutable (key : Key)
  | unterminatedString
  | expected (mark : Text)
  | invalidCharacter (c : Char)
  | illegalCharacter (c : Char)
  | unescaped
  | hexValue
  | notScalar
  | unclosedArray
  | unclosedTable
  | duplicateKey (key : Text)
  | date
  /-- A value is too large to be read. -/
  | limit (l : Limit)
deriving DecidableEq, Repr

/-- A problem in words. -/
def Problem.text : Problem → Text
  | .statement => "Invalid statement"
  | .statementEnd => "Expected newline or end of document after a statement"
  | .keyStart => "Invalid initial character for a key part"
  | .equalsSign => "Expected '=' after a key in a key/value pair"
  | .value => "Invalid value"
  | .tableEnd => "Expected ']' at the end of a table declaration"
  | .arrayTableEnd => "Expected ']]' at the end of an array declaration"
  | .declaredTwice key => "Cannot declare " ++ key.text ++ " twice"
  | .overwrite => "Cannot overwrite a value"
  | .redefine key => "Cannot redefine namespace " ++ key.text
  | .immutable key => "Cannot mutate immutable namespace " ++ key.text
  | .unterminatedString => "Unterminated string"
  | .expected mark => "Expected " ++ Text.quoted mark
  | .invalidCharacter c => "Found invalid character " ++ Text.quoted [c]
  | .illegalCharacter c => "Illegal character " ++ Text.quoted [c]
  | .unescaped => "Unescaped '\\' in a string"
  | .hexValue => "Invalid hex value"
  | .notScalar => "Escaped character is not a Unicode scalar value"
  | .unclosedArray => "Unclosed array"
  | .unclosedTable => "Unclosed inline table"
  | .duplicateKey key => "Duplicate inline table key " ++ Text.quoted key
  | .date => "Invalid date or datetime"
  | .limit l => l.text

/-- A problem and where it is: the number of characters from there to the end of the document. -/
structure Error where
  problem : Problem
  remaining : Nat
deriving DecidableEq, Repr

/-- The place in `document` from which `remaining` characters are left. -/
def placeText (document : Text) (remaining : Nat) : Text :=
  if remaining = 0 then "end of document"
  else
    let before := document.take (document.length - remaining)
    let column := (before.reverse.takeWhile (· ≠ '\n')).length + 1
    "line " ++ Text.ofNat (before.count '\n' + 1) ++ ", column " ++ Text.ofNat column

/-- The error in words. -/
def Error.message (e : Error) (document : Text) : Text :=
  e.problem.text ++ " (at " ++ placeText document e.remaining ++ ")"

end Pyramid.Toml
