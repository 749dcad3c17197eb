import Pyramid.Toml.Problem

/-!
# Reading keys and strings

The reader's state is what is left of the document. Blanks are spaces and tabs; a comment reaches
from `#` to the end of its line and holds no control character but the tab.

Strings come in four forms: between `"`, with escapes, or between `'`, without; and each of them
with one mark, on one line, or with three.
-/

namespace Pyramid.Toml

/-- A step of the reader. -/
abbrev Read := StateT Text (Except Error)

namespace Read

/-- Stops at the current place. -/
def fail {α : Type} (p : Problem) : Read α := fun rest => .error ⟨p, rest.length⟩

/-- The next character. -/
def peek : Read (Option Char) := do return (← get).head?

/-- Goes on by some characters, or to the end. -/
def skip (n : Nat) : Read Unit := modify (List.drop n)

/-- Goes on as long as the characters are of a kind. -/
def skipWhile (p : Char → Bool) : Read Unit := modify (List.dropWhile p)

/-- Is this the next text? -/
def startsWith (t : Text) : Read Bool := do return t.isPrefixOf (← get)

end Read

open Read

/-! ## Characters -/

/-- Spaces and tabs. -/
def isSpace (c : Char) : Bool := c = ' ' || c = '\t'

/-- Spaces, tabs and line feeds. -/
def isSpaceOrNewline (c : Char) : Bool := isSpace c || c = '\n'

/-- The control characters, but for the tab. -/
def isControl (c : Char) : Bool := (c.toNat < 0x20 || c.toNat = 0x7F) && c ≠ '\t'

/-- The characters that may not stand in a string as they are. -/
def isIllegal (multiline : Bool) (c : Char) : Bool := isControl c && !(multiline && c = '\n')

/-- The characters of a key without marks. -/
def isBare (c : Char) : Bool := c.isAlphanum || c = '-' || c = '_'

/-- The hexadecimal digits. -/
def isHex (c : Char) : Bool :=
  c.isDigit || ('a' ≤ c && c ≤ 'f') || ('A' ≤ c && c ≤ 'F')

/-- The value of a digit in any base up to sixteen. -/
def digitOf (c : Char) : Nat :=
  if c.isDigit then c.toNat - '0'.toNat
  else if 'a' ≤ c then c.toNat - 'a'.toNat + 10
  else c.toNat - 'A'.toNat + 10

/-- The number that digits spell in a base. -/
def numberOf (base : Nat) (digits : Text) : Nat :=
  digits.foldl (fun n c => n * base + digitOf c) 0

/-! ## Comments -/

/-- The text before the first place where `stop` stands, and the text from there on. -/
def cutBefore? (stop : Text) : Text → Option (Text × Text)
  | [] => if stop = [] then some ([], []) else none
  | c :: rest =>
    if stop.isPrefixOf (c :: rest) then some ([], c :: rest)
    else (cutBefore? stop rest).map fun (a, b) => (c :: a, b)

/-- Goes on to `stop`, or to the end if it is not `needed`, and gives what was passed over. A
character that is not allowed there is found only after `stop` was looked for. -/
def readUntil (stop : Text) (notAllowed : Char → Bool) (needed : Bool) : Read Text := do
  let rest ← get
  let (passed, after) ← match cutBefore? stop rest with
    | some cut => pure cut
    | none =>
      if needed then do
        set ([] : Text)
        fail (.expected stop)
      else pure (rest, [])
  match passed.dropWhile fun c => !notAllowed c with
  | c :: more => do
    set (c :: more ++ after)
    fail (.invalidCharacter c)
  | [] => do
    set after
    return passed

/-- Goes past a comment, if one begins here. -/
def skipComment : Read Unit := do
  if (← peek) = some '#' then do
    skip 1
    let _ ← readUntil "\n" isControl false

/-- Goes past blanks, line feeds and comments; `fuel` bounds the number of comments. -/
def skipGaps : (fuel : Nat) → Read Unit
  | 0 => return
  | fuel + 1 => do
    skipWhile isSpaceOrNewline
    if (← peek) = some '#' then do
      skipComment
      skipGaps fuel

/-! ## Strings -/

/-- The character of a fixed count of hexadecimal digits. -/
def readCodePoint (count : Nat) : Read Text := do
  let digits := (← get).take count
  if digits.length ≠ count || !digits.all isHex then fail .hexValue
  else do
    skip count
    let n := numberOf 16 digits
    if h : n.isValidChar then return [Char.ofNatAux n h] else fail .notScalar

/-- The character that a letter behind a backslash stands for. -/
def escaped? : Char → Option Char
  | 'b' => some '\x08'
  | 't' => some '\t'
  | 'n' => some '\n'
  | 'f' => some '\x0C'
  | 'r' => some '\r'
  | '"' => some '"'
  | '\\' => some '\\'
  | _ => none

/-- Goes past the blanks behind a backslash at the end of a line, and those at the start of the
lines that follow. -/
def skipContinuation (newline : Bool) : Read Unit := do
  unless newline do
    skipWhile isSpace
    match ← peek with
    | none => return
    | some c => do
      unless c = '\n' do fail .unescaped
      skip 1
  skipWhile isSpaceOrNewline

/-- Reads an escape, from its backslash on. -/
def readEscape (multiline : Bool) : Read Text := do
  let mark := (← get).tail.head?
  skip 2
  match mark with
  | some 'u' => readCodePoint 4
  | some 'U' => readCodePoint 8
  | some c =>
    if multiline && isSpaceOrNewline c then do
      skipContinuation (c = '\n')
      return []
    else match escaped? c with
      | some d => return [d]
      | none => fail .unescaped
  | none => fail .unescaped

/-- Three double quotes. -/
def tripleQuote : Text := "\"\"\""

/-- Reads the rest of a string between double quotes and goes past its end. -/
def readBasic (multiline : Bool) : (fuel : Nat) → Read Text
  | 0 => fail .unterminatedString
  | fuel + 1 => do
    match ← get with
    | [] => fail .unterminatedString
    | c :: rest =>
      if c = '"' then
        if !multiline then do
          set rest
          return []
        else if ← startsWith tripleQuote then do
          skip 3
          return []
        else do
          set rest
          return c :: (← readBasic multiline fuel)
      else if c = '\\' then do
        let e ← readEscape multiline
        return e ++ (← readBasic multiline fuel)
      else if isIllegal multiline c then fail (.illegalCharacter c)
      else do
        set rest
        return c :: (← readBasic multiline fuel)

/-- Reads a string between double quotes, from the first of them on. At most `bound` characters are
left. -/
def readBasicString (bound : Nat) : Read Text := do
  skip 1
  readBasic false bound

/-- Reads a string between single quotes, from the first of them on. -/
def readLiteralString : Read Text := do
  skip 1
  let t ← readUntil "'" isControl true
  skip 1
  return t

/-- Up to two more of the marks that ended a string belong to it. -/
def readExtraMarks (mark : Char) : Read Text := do
  let extra := (((← get).take 2).takeWhile (· = mark))
  skip extra.length
  return extra

/-- Reads a string between three marks, from the first of them on. A line feed right behind them is
left out. At most `bound` characters are left. -/
def readMultilineString (literal : Bool) (bound : Nat) : Read Text := do
  skip 3
  if (← peek) = some '\n' then skip 1
  if literal then do
    let t ← readUntil "'''" (isIllegal true) true
    skip 3
    return t ++ (← readExtraMarks '\'')
  else do
    let t ← readBasic true bound
    return t ++ (← readExtraMarks '"')

/-! ## Keys -/

/-- Reads one name of a key. At most `bound` characters are left. -/
def readKeyPart (bound : Nat) : Read Text := do
  match ← peek with
  | some '\'' => readLiteralString
  | some '"' => readBasicString bound
  | some c =>
    if isBare c then do
      let name := (← get).takeWhile isBare
      skipWhile isBare
      return name
    else fail .keyStart
  | none => fail .keyStart

/-- Reads the further names of a key, each behind a dot. -/
def readKeyRest : (fuel : Nat) → Read Key
  | 0 => return []
  | fuel + 1 => do
    skipWhile isSpace
    if (← peek) = some '.' then do
      skip 1
      skipWhile isSpace
      let part ← readKeyPart fuel
      return part :: (← readKeyRest fuel)
    else return []

/-- Reads a key and the blanks behind it. At most `bound` characters are left. -/
def readKey (bound : Nat) : Read Key := do
  let part ← readKeyPart bound
  return part :: (← readKeyRest bound)

end Pyramid.Toml
