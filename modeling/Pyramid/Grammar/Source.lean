import Pyramid.Grammar.Bundled
import Pyramid.Grammar.Reader
import Pyramid.Journal

/-!
# Where grammars come from

A grammar is read from a text, from a list of heads and bodies, from a file, or from one of the
bundled texts. A file is decoded as UTF-8 and its line ends are made uniform; what is not UTF-8 is
refused as it stands. Every grammar but one given as a list is entered in the journal, if there is
one, after it was read.

Specification §4.1: `Source.file`, `Source.bundled` and `Source.text` are the three things that the
grammar loader reads, `Source.pairs` is the construction of an index from raw pairs.
-/

namespace Pyramid.Grammar

/-- Where to read a grammar from. -/
inductive Source where
  /-- From a text, which the journal knows by a name. -/
  | text (t name : Text)
  /-- From heads and bodies. -/
  | pairs (ps : List (Text × Text))
  /-- From a file. -/
  | file (name : Text)
  /-- From a bundled text; the default one if no name, or an empty one, is given. -/
  | bundled (name : Option Text)
deriving Repr

/-- The name a text goes by when it is given none. -/
def Source.anonymous : Text := "<string>"

/-- The name of the bundled text that is meant. -/
def bundledName (name : Option Text) : Text :=
  match name with
  | none => defaultName
  | some n => if n = [] then defaultName else n

/-- The text of a grammar file. -/
def readFile (d : Disk) (name : Text) : Except Failure Text :=
  match d.read name with
  | .error .nullCharacter => .error (.disk ⟨.nullCharacter, name⟩)
  | .error r =>
    let message : Text := "cannot read grammar file '" ++ name ++ "': " ++ r.text
    .error (.fault ⟨.grammarResource, message, none⟩)
  | .ok bytes =>
    match Utf8.decode bytes with
    | .error f => .error (.encoding f)
    | .ok t => .ok (Text.uniformNewlines t)

/-- Reads a grammar text, a bad line being a failure. -/
def readText (t : Text) : Except Failure Grammar := (read t).mapError fun e => .fault e.fault

/-- The grammar of a source, with the name under which it is entered in the journal. -/
def Source.read (s : Source) (d : Disk) : Except Failure (Grammar × Option Text) :=
  match s with
  | .text t name => (·, some name) <$> readText t
  | .pairs ps => match ofPairs ps with
    | .error e => .error (.fault (e.fault none))
    | .ok g => .ok (g, none)
  | .file name => do
    let t ← readFile d name
    return (← readText t, some name)
  | .bundled name => do
    let name := bundledName name
    if '\x00' ∈ name then throw (.disk ⟨.nullCharacter, name⟩)
    match bundled? name with
    | none =>
      let message : Text := "no bundled grammar named '" ++ name ++ "'"
      throw (.fault ⟨.grammarResource, message, none⟩)
    | some t => return (← readText t, some ("resource:" ++ name))

/-- What the journal says of a grammar that was read. -/
def loadedMessage (g : Grammar) (name : Text) : Text :=
  "loaded " ++ Text.ofNat g.size ++ " productions from " ++ name

/-- Reads the grammar of a source and enters it in the journal. -/
def Source.load (s : Source) (journal : Option Journal) (now : Moment) (d : Disk) :
    Except Failure Grammar × Disk :=
  match s.read d with
  | .error f => (.error f, d)
  | .ok (g, name) =>
    match journal, name with
    | some j, some name =>
      match j.record now .info (loadedMessage g name) d with
      | (.error e, d) => (.error (.disk e), d)
      | (.ok (), d) => (.ok g, d)
    | _, _ => (.ok g, d)

end Pyramid.Grammar
