import Pyramid.Disk.Path
import Pyramid.Text.Quoted
import Pyramid.Text.Utf8
import Std.Data.TreeMap

/-!
# The disk

The files and directories that a run can see, as a value. A *location* is the list of names that
lead to a place from the root; the entries are kept by location. Paths that do not begin at the root
begin in the working directory, the disk's home.

Names are followed one at a time (`Disk.walk`): each step needs a directory to stand in, so the
first name that cannot be followed decides which refusal is given. Reading and writing report a
refusal together with the path as it was asked for; making directories leaves behind what it made
before it was refused, and then reports the path to the directory that could not be made.

Grammars, configuration files and logs (specification §6, §10) are files on it.
-/

namespace Pyramid

/-- What stands at a location. -/
inductive Entry where
  | file (bytes : List UInt8)
  | directory
deriving DecidableEq, Repr

/-- The names that lead to a place from the root. -/
abbrev Location := List Text

/-- Files and directories by location. The root is not listed. -/
structure Disk where
  entries : Std.TreeMap Location Entry
  /-- The working directory. -/
  home : Location

namespace Disk

/-! ## Refusals -/

/-- Why the disk refuses a request. -/
inductive Refusal where
  | missing
  | occupied
  | notDirectory
  | isDirectory
  | nameTooLong
  /-- A name holds U+0000. -/
  | nullCharacter
  /-- Too many directories would have to be made. -/
  | tooDeep
deriving DecidableEq, Repr

/-- The refusal in words. -/
def Refusal.text : Refusal → Text
  | .missing => "No such file or directory"
  | .occupied => "File exists"
  | .notDirectory => "Not a directory"
  | .isDirectory => "Is a directory"
  | .nameTooLong => "File name too long"
  | .nullCharacter => "embedded null byte"
  | .tooDeep => "Too many missing directories"

/-- The number by which the refusal is known, if it has one. -/
def Refusal.number? : Refusal → Option Nat
  | .missing => some 2
  | .occupied => some 17
  | .notDirectory => some 20
  | .isDirectory => some 21
  | .nameTooLong => some 36
  | .nullCharacter => none
  | .tooDeep => none

/-- A refused request for a path. -/
structure Error where
  refusal : Refusal
  path : Text
deriving DecidableEq, Repr

/-- The refused request in words. -/
def Error.message (e : Error) : Text :=
  match e.refusal.number? with
  | none => e.refusal.text
  | some n => "[Errno " ++ Text.ofNat n ++ "] " ++ e.refusal.text ++ ": " ++ Text.quoted e.path

/-! ## Following names -/

/-- What stands at a location. -/
def entry? (d : Disk) : Location → Option Entry
  | [] => some .directory
  | loc => d.entries[loc]?

/-- The disk with an entry put in place. -/
def put (d : Disk) (loc : Location) (e : Entry) : Disk :=
  { d with entries := d.entries.insert loc e }

/-- The locations below the root on the way to a location, itself included. -/
def upTo (loc : Location) : List Location := (List.range loc.length).map fun n => loc.take (n + 1)

/-- The disk with directories on the way to a location, itself included, where nothing was. -/
def lay (d : Disk) (loc : Location) : Disk :=
  (upTo loc).foldl (fun d loc => if (d.entry? loc).isSome then d else d.put loc .directory) d

/-- A disk with an empty working directory. -/
def empty (home : Location) : Disk := lay ⟨∅, home⟩ home

/-- A name may have this many bytes. -/
def nameBound : Nat := 255

/-- A path, as text, has to have fewer bytes than this. -/
def pathBound : Nat := 4096

/-- Follows one name from a location, which has to be a directory. -/
def step (d : Disk) (loc : Location) (name : Text) : Except Refusal Location :=
  match d.entry? loc with
  | none => .error .missing
  | some (.file _) => .error .notDirectory
  | some .directory =>
    if nameBound < (Utf8.encode name).length then .error .nameTooLong
    else if name = [] ∨ name = ['.'] then .ok loc
    else if name = ['.', '.'] then .ok loc.dropLast
    else .ok (loc ++ [name])

/-- Follows names from a location, one after another. All but the place arrived at has been seen to
be a directory. -/
def walk (d : Disk) : Location → List Text → Except Refusal Location
  | loc, [] => .ok loc
  | loc, name :: names =>
    match d.step loc name with
    | .error r => .error r
    | .ok next => walk d next names

/-- Where paths with an anchor begin. -/
def start (d : Disk) (anchor : Anchor) : Location := if anchor = .here then d.home else []

/-- Why a path, given as text, is refused whatever is on the disk. -/
def flaw? (path : Text) : Option Refusal :=
  if '\x00' ∈ path then some .nullCharacter
  else if path = [] then some .missing
  else if pathBound ≤ (Utf8.encode path).length then some .nameTooLong
  else none

/-- The location that a path, given as text, leads to. -/
def locate (d : Disk) (path : Text) : Except Refusal Location :=
  match flaw? path with
  | some r => .error r
  | none => d.walk (d.start (Path.anchorOf path)) (path.splitOn '/')

/-! ## Reading -/

/-- The bytes of a file. -/
def read (d : Disk) (path : Text) : Except Refusal (List UInt8) :=
  match d.locate path with
  | .error r => .error r
  | .ok loc =>
    match d.entry? loc with
    | none => .error .missing
    | some .directory => .error .isDirectory
    | some (.file bytes) => .ok bytes

/-! ## Writing -/

/-- So many directories on one way are made at once. -/
def directoryBound : Nat := 987

/-- Makes the directories that names lead to from a location, where they are missing. The names
`passed` have led to the location; a refusal is told of the path up to the name it is about. -/
def makeMissing (anchor : Anchor) (passed : List Text) (loc : Location) :
    List Text → Disk → Except Error Unit × Disk
  | [], d => (.ok (), d)
  | name :: names, d =>
    let refuse (r : Refusal) : Error := ⟨r, Path.text ⟨anchor, passed ++ [name]⟩⟩
    match d.step loc name with
    | .error r => (.error (refuse r), d)
    | .ok next =>
      match d.entry? next with
      | some .directory => makeMissing anchor (passed ++ [name]) next names d
      | some (.file _) => (.error (refuse .occupied), d)
      | none => makeMissing anchor (passed ++ [name]) next names (d.put next .directory)

/-- Follows the directories that are there, and makes those that are missing from the first of them
on. As long as none was made, a refusal is told of the `whole` path. -/
def makeWay (anchor : Anchor) (whole : Text) (passed : List Text) (loc : Location) :
    List Text → Disk → Except Error Unit × Disk
  | [], d => (.ok (), d)
  | name :: names, d =>
    match d.step loc name with
    | .error r => (.error ⟨r, whole⟩, d)
    | .ok next =>
      match d.entry? next with
      | some .directory => makeWay anchor whole (passed ++ [name]) next names d
      | some (.file _) => (.error ⟨if names = [] then .occupied else .notDirectory, whole⟩, d)
      | none =>
        if directoryBound < (name :: names).length then (.error ⟨.tooDeep, whole⟩, d)
        else makeMissing anchor passed loc (name :: names) d

/-- Makes a directory and those above it that are missing; what is there already will do. -/
def makeDirectories (p : Path) (d : Disk) : Except Error Unit × Disk :=
  match flaw? p.text with
  | some r => (.error ⟨r, p.text⟩, d)
  | none => makeWay p.anchor p.text [] (d.start p.anchor) p.names d

/-- Adds bytes at the end of a file, which is made if it is missing. -/
def append (path : Text) (bytes : List UInt8) (d : Disk) : Except Error Unit × Disk :=
  match d.locate path with
  | .error r => (.error ⟨r, path⟩, d)
  | .ok loc =>
    match d.entry? loc with
    | some .directory => (.error ⟨.isDirectory, path⟩, d)
    | some (.file old) => (.ok (), d.put loc (.file (old ++ bytes)))
    | none => (.ok (), d.put loc (.file bytes))

/-- Adds a line to a file, and makes the directories that lead to it. -/
def appendLine (path : Path) (line : Text) (d : Disk) : Except Error Unit × Disk :=
  match makeDirectories path.parent d with
  | (.error e, d) => (.error e, d)
  | (.ok (), d) => append path.text (Utf8.encode (line ++ "\n")) d

/-! ## Setting up and comparing -/

/-- The location that a path leads to if every name on the way is a directory's. -/
def locationOf (d : Disk) (path : Text) : Location :=
  let p := Path.ofText path
  p.names.foldl (fun loc name => if name = ['.', '.'] then loc.dropLast else loc ++ [name])
    (d.start p.anchor)

/-- A disk with an entry put where a path leads to, and the directories on the way. -/
def place (d : Disk) (path : Text) (e : Entry) : Disk :=
  let loc := d.locationOf path
  (d.lay loc.dropLast).put loc e

/-- The path to a location: from the working directory, if it is in there, else from the root. -/
def pathTo (d : Disk) (loc : Location) : Text :=
  if d.home.isPrefixOf loc then Text.join "/" (loc.drop d.home.length)
  else '/' :: Text.join "/" loc

/-- The files that `before` does not have, or has with other content, by their paths and in the
order of these. -/
def changes (before after : Disk) : List (Text × List UInt8) :=
  let changed := after.entries.toList.filterMap fun (loc, e) =>
    match e with
    | .directory => none
    | .file bytes =>
      if before.entry? loc = some (.file bytes) then none else some (after.pathTo loc, bytes)
  changed.mergeSort fun a b => (compare a.1 b.1).isLE

end Disk
end Pyramid
