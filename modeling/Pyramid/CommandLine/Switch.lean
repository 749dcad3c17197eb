import Pyramid.Journal

/-!
# Switches

The switches of the command line (specification §6), how they are spelt, and what is said when they
are used wrongly.
-/

namespace Pyramid.CommandLine

/-- What can be asked for on the command line. -/
inductive Switch where
  | help
  | grammar
  | start
  | config
  | level
  | samples
  | generate
  | derivations
  | measure
deriving DecidableEq, Repr

namespace Switch

/-- All switches, in the order in which they are listed. -/
def all : List Switch :=
  [.help, .grammar, .start, .config, .level, .samples, .generate, .derivations, .measure]

/-- The spellings of a switch. -/
def spellings : Switch → List Text
  | .help => ["-h", "--help"]
  | .grammar => ["-g", "--grammar"]
  | .start => ["-s", "--start"]
  | .config => ["-c", "--config"]
  | .level => ["-l", "--log-level"]
  | .samples => ["--samples"]
  | .generate => ["--generate"]
  | .derivations => ["-d", "--derivations"]
  | .measure => ["-m", "--measure"]

/-- Is the switch followed by a value? -/
def takesValue : Switch → Bool
  | .grammar => true
  | .start => true
  | .config => true
  | .level => true
  | .generate => true
  | _ => false

/-- The switch as messages name it. -/
def label (s : Switch) : Text := Text.join "/" s.spellings

/-- All spellings with their switches. -/
def table : List (Text × Switch) := all.flatMap fun s => s.spellings.map fun t => (t, s)

/-- The switch of a spelling. -/
def ofSpelling? (t : Text) : Option Switch := table.lookup t

end Switch

/-- What is wrong with a command line. -/
inductive Complaint where
  | choice (given : Text)
  | missingValue (s : Switch)
  | integer (given : Text)
  | needlessValue (s : Switch) (given : Text)
  | ambiguous (given : Text) (candidates : List Text)
  | unrecognized (given : List Text)
deriving DecidableEq, Repr

/-- A complaint in words. -/
def Complaint.text : Complaint → Text
  | .choice given =>
    "argument " ++ Switch.level.label ++ ": invalid choice: " ++ Text.quoted given
      ++ " (choose from " ++ Text.join ", " (Level.all.map fun l => Text.quoted l.name) ++ ")"
  | .missingValue s => "argument " ++ s.label ++ ": expected one argument"
  | .integer given =>
    "argument " ++ Switch.generate.label ++ ": invalid int value: " ++ Text.quoted given
  | .needlessValue s given =>
    "argument " ++ s.label ++ ": ignored explicit argument " ++ Text.quoted given
  | .ambiguous given candidates =>
    "ambiguous option: " ++ given ++ " could match " ++ Text.join ", " candidates
  | .unrecognized given => "unrecognized arguments: " ++ Text.join " " given

/-- How the program is called. -/
def usage : Text :=
  "usage: cnfchart [-h] [-g GRAMMAR] [-s START] [-c CONFIG]\n" ++
  "                [-l \x7bdebug,info,error,silent\x7d] [--samples]\n" ++
  "                [--generate GENERATE] [-d] [-m]\n" ++
  "                [words ...]\n"

/-- What the program does and how it is called. -/
def helpPage : Text :=
  usage ++
  "\nDecide membership of words in the language of a CNF grammar.\n" ++
  "\npositional arguments:\n" ++
  "  words\n" ++
  "\noptions:\n" ++
  "  -h, --help            show this help message and exit\n" ++
  "  -g GRAMMAR, --grammar GRAMMAR\n" ++
  "  -s START, --start START\n" ++
  "  -c CONFIG, --config CONFIG\n" ++
  "  -l \x7bdebug,info,error,silent\x7d, --log-level \x7bdebug,info,error,silent\x7d\n" ++
  "  --samples\n" ++
  "  --generate GENERATE\n" ++
  "  -d, --derivations\n" ++
  "  -m, --measure\n"

/-- The page of a complaint. -/
def Complaint.page (c : Complaint) : Text := usage ++ "cnfchart: error: " ++ c.text ++ "\n"

end Pyramid.CommandLine
