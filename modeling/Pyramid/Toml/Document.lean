import Pyramid.Toml.Scalar

/-!
# TOML documents

A document is a list of statements, each on a line of its own: a key with a value, the header of a
table, or the header of one more table of an array. It stands for a table of values.

The reader remembers which names may not be used again: a table that was *opened* by a header, or
by the dots of a key in an earlier section, is not opened a second time; what was given as one
value, an array or a table in braces, is *frozen*, it and everything in it.

The configuration files of the specification (§6) are such documents.
-/

namespace Pyramid.Toml

open Read

/-! ## Values -/

/-- What an array weighs that is around a value. -/
def arrayWeight : Nat := 2

/-- What a table in braces weighs that is around a value. -/
def tableWeight : Nat := 3

/-- A value is read only if what is around it weighs less than this. -/
def weightBound : Nat := 988

/-- Arrays and tables. -/
def isCompound : Value → Bool
  | .array _ => true
  | .table _ => true
  | _ => false

/-- Sets a key of a table in braces. `frozen` are the keys whose values are not to be changed. -/
def setInline (frozen : List Key) (key : Key) (v : Value) (t : Table) : Except Problem Table :=
  let stem := key.getLast?.getD []
  if frozen.any (·.isPrefixOf key) then .error (.immutable key)
  else
    match t.update false some key.dropLast with
    | none => .error .overwrite
    | some _ =>
      let set (nest : Table) : Option Table :=
        if (nest.get? stem).isSome then none else some (nest.set stem v)
      match t.update false set key.dropLast with
      | none => .error (.duplicateKey stem)
      | some t => .ok t

mutual

/-- Reads a value. `weight` is the weight of the arrays and tables around it. An opening bracket
takes two units of fuel, any other character at most one. -/
def readValue (weight : Nat) : (fuel : Nat) → Read Value
  | 0 => fail .value
  | fuel + 1 => do
    if weightBound ≤ weight then fail (.limit .depth)
    let rest ← get
    match rest with
    | '"' :: _ =>
      if ← startsWith tripleQuote then return .text (← readMultilineString false fuel)
      else return .text (← readBasicString fuel)
    | '\'' :: _ =>
      if ← startsWith "'''" then return .text (← readMultilineString true fuel)
      else return .text (← readLiteralString)
    | 't' :: 'r' :: 'u' :: 'e' :: rest => do
      set rest
      return .bool true
    | 'f' :: 'a' :: 'l' :: 's' :: 'e' :: rest => do
      set rest
      return .bool false
    | '[' :: rest => do
      set rest
      skipGaps fuel
      if (← peek) = some ']' then do
        skip 1
        return .array []
      else return .array (← readElements (weight + arrayWeight) fuel)
    | '\x7b' :: rest => do
      set rest
      skipWhile isSpace
      if (← peek) = some '\x7d' then do
        skip 1
        return .table []
      else return .table (← readEntries (weight + tableWeight) [] [] fuel)
    | _ =>
      match scalar? rest with
      | some (.ok v, rest) => do
        set rest
        return v
      | some (.error p, _) => fail p
      | none => fail .value

/-- Reads the elements of an array, from one of them on, and its end. -/
def readElements (weight : Nat) : (fuel : Nat) → Read (List Value)
  | 0 => fail .unclosedArray
  | fuel + 1 => do
    let v ← readValue weight fuel
    skipGaps fuel
    match ← peek with
    | some ']' => do
      skip 1
      return [v]
    | some ',' => do
      skip 1
      skipGaps fuel
      if (← peek) = some ']' then do
        skip 1
        return [v]
      else return v :: (← readElements weight fuel)
    | _ => fail .unclosedArray

/-- Reads the entries of a table in braces, from one of them on, and its end. -/
def readEntries (weight : Nat) (frozen : List Key) (t : Table) : (fuel : Nat) → Read Table
  | 0 => fail .unclosedTable
  | fuel + 1 => do
    let key ← readKey fuel
    unless (← peek) = some '=' do fail .equalsSign
    skip 1
    skipWhile isSpace
    let v ← readValue weight fuel
    let t ← match setInline frozen key v t with
      | .ok t => pure t
      | .error p => fail p
    skipWhile isSpace
    match ← peek with
    | some '\x7d' => do
      skip 1
      return t
    | some ',' => do
      skip 1
      skipWhile isSpace
      readEntries weight (if isCompound v then key :: frozen else frozen) t fuel
    | _ => fail .unclosedTable

end

/-! ## Statements -/

/-- A document as far as it was read. -/
structure Document where
  root : Table := []
  /-- The table that the current section is about. -/
  header : Key := []
  /-- Tables that may not be opened again. -/
  opened : List Key := []
  /-- Tables that may not be opened again once this section has ended. -/
  pending : List Key := []
  /-- Values that may not be changed, nor anything in them. -/
  frozen : List Key := []

namespace Document

/-- Was the table opened? -/
def isOpened (d : Document) (key : Key) : Bool := d.opened.contains key

/-- Is the key part of a value that may not be changed? -/
def isFrozen (d : Document) (key : Key) : Bool := d.frozen.any (·.isPrefixOf key)

/-- The document at the end of a section. -/
def endSection (d : Document) : Document :=
  { d with opened := d.pending ++ d.opened, pending := [] }

/-- Forgets what was remembered of a table and everything in it. -/
def release (d : Document) (key : Key) : Document :=
  { d with
    opened := d.opened.filter fun k => !key.isPrefixOf k
    frozen := d.frozen.filter fun k => !key.isPrefixOf k }

/-- Opens a table. -/
def openTable (d : Document) (key : Key) : Except Problem Document :=
  if d.isOpened key || d.isFrozen key then .error (.declaredTwice key)
  else
    match d.root.update true some key with
    | none => .error .overwrite
    | some root => .ok { d with root, opened := key :: d.opened, header := key }

/-- One more empty table at the end of an array of tables. -/
def appendTable (key : Text) (t : Table) : Option Table :=
  match t.get? key with
  | none => some (t.set key (.array [.table []]))
  | some (.array vs) => some (t.set key (.array (vs ++ [.table []])))
  | some _ => none

/-- Opens one more table of an array. -/
def openArrayTable (d : Document) (key : Key) : Except Problem Document :=
  if d.isFrozen key then .error (.immutable key)
  else
    let d := d.release key
    match d.root.update true (appendTable (key.getLast?.getD [])) key.dropLast with
    | none => .error .overwrite
    | some root => .ok { d with root, opened := key :: d.opened, header := key }

/-- The keys of the tables that the dots of a key lead through. -/
def dotted (d : Document) (key : Key) : List Key :=
  (List.range (key.length - 1)).map fun n => d.header ++ key.take (n + 1)

/-- Sets a key of the current section. -/
def setKey (d : Document) (key : Key) (v : Value) : Except Problem Document :=
  let through := d.dotted key
  let parent := d.header ++ key.dropLast
  let stem := key.getLast?.getD []
  match through.find? d.isOpened with
  | some k => .error (.redefine k)
  | none =>
    if d.isFrozen parent then .error (.immutable parent)
    else
      let set (nest : Table) : Option Table :=
        if (nest.get? stem).isSome then none else some (nest.set stem v)
      match d.root.update true set parent with
      | none => .error .overwrite
      | some root =>
        .ok { d with
          root
          pending := through ++ d.pending
          frozen := if isCompound v then (d.header ++ key) :: d.frozen else d.frozen }

end Document

/-- A change of the document that may be refused where the reader stands. -/
def accept (r : Except Problem Document) : Read Document :=
  match r with
  | .ok d => return d
  | .error p => fail p

/-- Reads the header of a table, from its bracket on. At most `bound` characters are left. -/
def readTableHeader (d : Document) (bound : Nat) : Read Document := do
  skip 1
  skipWhile isSpace
  let key ← readKey bound
  let d ← accept (d.openTable key)
  unless ← startsWith "]" do fail .tableEnd
  skip 1
  return d

/-- Reads the header of a table of an array, from its brackets on. At most `bound` characters are
left. -/
def readArrayHeader (d : Document) (bound : Nat) : Read Document := do
  skip 2
  skipWhile isSpace
  let key ← readKey bound
  let d ← accept (d.openArrayTable key)
  unless ← startsWith "]]" do fail .arrayTableEnd
  skip 2
  return d

/-- Reads a key with its value. At most `bound` characters are left. -/
def readPair (d : Document) (bound : Nat) : Read Document := do
  let key ← readKey bound
  unless (← peek) = some '=' do fail .equalsSign
  skip 1
  skipWhile isSpace
  let v ← readValue 0 (2 * bound + 2)
  accept (d.setKey key v)

/-- Reads the statement that begins with the given character. At most `bound` characters are
left. -/
def readStatement (d : Document) (c : Char) (bound : Nat) : Read Document :=
  if isBare c || c = '"' || c = '\'' then readPair d bound
  else if c = '[' then do
    if ← startsWith "[[" then readArrayHeader d.endSection bound
    else readTableHeader d.endSection bound
  else if c = '#' then return d
  else fail .statement

/-- Reads statements up to the end. Fewer than `fuel` characters are left. -/
def readStatements (d : Document) : (fuel : Nat) → Read Document
  | 0 => return d
  | fuel + 1 => do
    skipWhile isSpace
    match ← peek with
    | none => return d
    | some '\n' => do
      skip 1
      readStatements d fuel
    | some c => do
      let d ← readStatement d c fuel
      skipWhile isSpace
      skipComment
      match ← peek with
      | none => return d
      | some '\n' => do
        skip 1
        readStatements d fuel
      | some _ => fail .statementEnd

/-- The document with a line feed for every pair of a carriage return and a line feed. -/
def joinNewlines : Text → Text
  | '\r' :: '\n' :: rest => '\n' :: joinNewlines rest
  | c :: rest => c :: joinNewlines rest
  | [] => []

/-- Reads a document, whose line ends have been joined. -/
def read (document : Text) : Except Error Table :=
  match (readStatements {} (document.length + 1)).run document with
  | .ok (d, _) => .ok d.root
  | .error e => .error e

end Pyramid.Toml
