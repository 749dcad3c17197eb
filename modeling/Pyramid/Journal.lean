import Pyramid.Failure

/-!
# Journals

A journal appends lines to the file `<file>.log` in its directory. It has a level and takes only
messages at that level or above; errors go to a second file, `<file>_err.log`, as well. Nothing is
made on the disk before the first message that is taken.

A line is `[day/month hour:minute:second], mark, tag: message`, and the message is written as it is,
line feeds included.

Specification §2 and §10: the logger. `Journal.record` is its logging at each of the three levels,
`Journal.raise` its raising of exceptions.
-/

namespace Pyramid

/-- How much a journal takes, from everything to nothing. -/
inductive Level where
  | debug
  | info
  | error
  | silent
deriving DecidableEq, Repr

namespace Level

/-- The position on the scale. -/
def rank : Level → Nat
  | .debug => 0
  | .info => 1
  | .error => 2
  | .silent => 3

/-- The name of a level. -/
def name : Level → Text
  | .debug => "debug"
  | .info => "info"
  | .error => "error"
  | .silent => "silent"

/-- All levels, in order. -/
def all : List Level := [.debug, .info, .error, .silent]

/-- The level of a name. -/
def ofName? (name : Text) : Option Level := all.find? (·.name = name)

theorem ofName?_name (l : Level) : ofName? l.name = some l := by cases l <;> decide

end Level

/-- What a message is. -/
inductive Severity where
  | debug
  | info
  | error
deriving DecidableEq, Repr

/-- The level a journal must have, or be below, to take such a message. -/
def Severity.level : Severity → Level
  | .debug => .debug
  | .info => .info
  | .error => .error

/-- The mark of a message in its line. -/
def Severity.mark : Severity → Text
  | .debug => "DEB"
  | .info => "INF"
  | .error => "ERR"

/-- A reading of the clock, as far as a journal shows it. -/
structure Moment where
  month : Nat
  day : Nat
  hour : Nat
  minute : Nat
  second : Nat
deriving DecidableEq, Repr

/-- The reading as it stands at the head of a line. -/
def Moment.text (m : Moment) : Text :=
  let two (n : Nat) : Text := Text.padLeft '0' 2 (Text.ofNat n)
  "[" ++ two m.day ++ "/" ++ two m.month ++ " " ++ two m.hour ++ ":" ++ two m.minute ++ ":"
    ++ two m.second ++ "]"

/-- Where messages go, and which. -/
structure Journal where
  /-- The directory of the files, as given. -/
  directory : Text
  /-- The name of the files, without their endings. -/
  file : Text
  /-- Who writes. -/
  tag : Text
  level : Level
deriving DecidableEq, Repr

namespace Journal

/-- The directory of a journal that is given none. -/
def defaultDirectory : Text := "./logs/"

/-- The file of all messages. -/
def path (j : Journal) : Path := Path.ofText j.directory ++ Path.ofText (j.file ++ ".log")

/-- The file of errors. -/
def errorPath (j : Journal) : Path := Path.ofText j.directory ++ Path.ofText (j.file ++ "_err.log")

/-- Does the journal take messages of that level? -/
def takes (j : Journal) (l : Level) : Bool := j.level.rank ≤ l.rank

/-- A journal on the same files for another writer. -/
def child (j : Journal) (tag : Text) : Journal := { j with tag := tag }

/-- A message as a line, without the line feed. -/
def line (j : Journal) (now : Moment) (s : Severity) (message : Text) : Text :=
  now.text ++ ", " ++ s.mark ++ ", " ++ j.tag ++ ": " ++ message

/-- Enters a message, if the journal takes it. An error is entered in the file of all messages
first. -/
def record (j : Journal) (now : Moment) (s : Severity) (message : Text) (d : Disk) :
    Except Disk.Error Unit × Disk :=
  if j.takes s.level then
    match Disk.appendLine j.path (j.line now s message) d with
    | (.error e, d) => (.error e, d)
    | (.ok (), d) =>
      if s = .error then Disk.appendLine j.errorPath (j.line now s message) d else (.ok (), d)
  else (.ok (), d)

/-- Enters a failure as an error and fails with it; if the entry fails, with that failure. -/
def raise {α : Type} (j : Journal) (now : Moment) (f : Failure) (d : Disk) :
    Except Failure α × Disk :=
  match j.record now .error f.message d with
  | (.error e, d) => (.error (.disk e), d)
  | (.ok (), d) => (.error f, d)

end Journal
end Pyramid
