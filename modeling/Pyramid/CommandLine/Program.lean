import Pyramid.Chart.Solver
import Pyramid.CommandLine.Arguments
import Pyramid.Grammar.Source
import Pyramid.Settings
import Pyramid.Stopwatch
import Pyramid.Words.Generator
import Pyramid.Words.Twister

/-!
# The program

The command line program: it reads its settings and the grammar, decides the words it was given,
one after another with one store, and ends with a summary. What it prints for a word is the answer
and, if asked for, the derivations; measurements stand on lines of their own in between.

A fault while starting up is reported and ends the program with status 1. Any other failure ends
it without a status; what was printed before stays printed.

This is the entry point of the specification: its command line (§6), where flags go over the file
and the file over the defaults, and its exit statuses (§6, §7).
-/

namespace Pyramid.CommandLine

/-- What the program finds when it is started. -/
structure Environment where
  disk : Disk
  now : Moment
  /-- How long the measurements will take. -/
  durations : Stopwatch.Durations
  /-- The seed of generators that are given none. -/
  entropy : Int

/-- What the program leaves behind. -/
structure Outcome where
  /-- The exit status, or the failure that ended the program. -/
  status : Except Failure Nat
  output : Text
  errors : Text
  disk : Disk

/-- The state of the running program. -/
structure Machine where
  disk : Disk
  now : Moment
  durations : Stopwatch.Durations
  store : Store
  output : Text := []

/-- A part of the program: it gives a result, or fails, and changes the machine. -/
abbrev Program := Act Machine

/-- Prints a text. -/
def say (t : Text) : Program Unit := modify fun m => { m with output := m.output ++ t }

/-- Prints a line. -/
def sayLine (t : Text) : Program Unit := say (t ++ "\n")

/-- Lets a solver work with the machine's store and disk. -/
def atBench {α : Type} (act : Act Bench α) : Program α := fun m =>
  let (r, b) := act ⟨m.store, m.disk, m.now⟩
  (r, { m with store := b.store, disk := b.disk })

/-- Prints the measurement of something that was just done, or fails if it cannot be shown. -/
def sayMeasured (name : Text) : Program Unit := do
  let m ← get
  let (ns, durations) := m.durations.next
  set { m with durations }
  match Stopwatch.line name ns with
  | .ok line => say line
  | .error l => throw (.limit l)

/-! ## Starting up -/

/-- The settings: those of the file, if one is named, with what the switches say in their place. -/
def settingsFor (a : Arguments) (d : Disk) : Except Failure Settings := do
  let base ← if a.config = [] then pure {} else Settings.read d a.config
  (base.override [
    (Settings.Field.grammar.name, a.grammar),
    (Settings.Field.start.name, a.start),
    (Settings.Field.level.name, a.level)]).mapError Settings.Refusal.failure

/-- Where the settings take the grammar from. -/
def sourceFor (s : Settings) : Grammar.Source :=
  match s.grammar with
  | none => .bundled none
  | some file => .file file

/-- The journal of the program. -/
def journalFor (s : Settings) : Journal := ⟨s.directory, "cnfchart", "main", s.level⟩

/-- The name under which the reading of the grammar is measured. -/
def loadingName : Text := "GrammarLoading"

/-- Reads settings and grammar and sets up the solver and its store. -/
def startUp (a : Arguments) : Program Solver := do
  let settings ← match settingsFor a (← get).disk with
    | .ok s => pure s
    | .error f => throw f
  let journal := journalFor settings
  let grammar ← (fun m =>
    let (r, disk) := (sourceFor settings).load (some journal) m.now m.disk
    (r, { m with disk }) : Program Grammar)
  if a.measure then sayMeasured loadingName
  modify fun m => { m with store := { number := 1, guarded := settings.guarded } }
  return ⟨grammar, settings.start, journal.child "solver"⟩

/-- The faults that are reported when they occur while starting up. -/
def isReported : FaultKind → Bool
  | .settings => true
  | .grammarResource => true
  | .malformedGrammar => true
  | _ => false

/-! ## Words -/

/-- Words that show what the default grammar does. -/
def sampleWords : List Text := ["abaaba", "abbbba", "bbabbbaabbaabbbabb", "aaabbbb"]

/-- Palindromes, and the same palindromes with a suffix. -/
def generatedWords (entropy count : Int) : Except Failure (List Text) := do
  let generator := Twister.ofSeed entropy
  let (valid, _) ← (Words.valid Twister.chance {} count.toNat).run generator
  let (invalid, _) ← (Words.invalid Twister.chance {} Words.defaultSuffix count.toNat).run generator
  return valid ++ invalid

/-- The words that are asked for: those given, the samples, and generated ones. -/
def wordsFor (a : Arguments) (entropy : Int) : Except Failure (List Text) := do
  let samples := if a.samples then sampleWords else []
  let generated ← if a.generate = 0 then pure [] else generatedWords entropy a.generate
  return a.words ++ samples ++ generated

/-- What is printed about a word that was derived. -/
def block (start word : Text) (derivations : Bool) (n : Node) : Text :=
  word ++ ": " ++ Text.ofBool (n.derives start) ++ "\n"
    ++ (if derivations && n.isDerivable then n.listing ++ "\n" else [])

/-- Said of an empty word. -/
def skipNotice : Text := "Note: skipping the empty word"

/-- Said when there are no words. -/
def samplesNotice : Text := "Note: no words given, running the samples"

/-- Decides a word and prints the answer. -/
def runWord (a : Arguments) (s : Solver) (word : Text) : Program Unit :=
  if word = [] then sayLine skipNotice
  else do
    let n ← atBench (s.derive word)
    if a.measure then sayMeasured (word.take Stopwatch.nameWidth)
    say (block s.start word a.derivations n)

/-- Decides all words. -/
def runWords (a : Arguments) (s : Solver) : List Text → Program Unit
  | [] => return
  | word :: words => do
    runWord a s word
    runWords a s words

/-- The rule above the summary. -/
def rule : Text := List.replicate 28 '='

/-- Everything after a successful start. -/
def decideAll (a : Arguments) (entropy : Int) (s : Solver) : Program Unit := do
  let words ← match wordsFor a entropy with
    | .ok ws => pure ws
    | .error f => throw f
  if words = [] then do
    sayLine samplesNotice
    runWords a s sampleWords
  else runWords a s words
  sayLine rule
  sayLine (s.summary (← get).store)

/-- Runs the program with arguments that were accepted; the result is the exit status. -/
def execute (a : Arguments) (entropy : Int) : Program Nat := fun m =>
  match startUp a m with
  | (.error (.fault f), m) =>
    if isReported f.kind then
      let (_, m) := sayLine ("Error: " ++ f.report) m
      (.ok 1, m)
    else (.error (.fault f), m)
  | (.error f, m) => (.error f, m)
  | (.ok s, m) =>
    match decideAll a entropy s m with
    | (.ok (), m) => (.ok 0, m)
    | (.error f, m) => (.error f, m)

/-- Runs the program. -/
def run (argv : List Text) (env : Environment) : Outcome :=
  match read argv with
  | .error .help => ⟨.ok 0, helpPage, [], env.disk⟩
  | .error (.complaint c) => ⟨.ok 2, [], c.page, env.disk⟩
  | .ok a =>
    let start : Machine :=
      { disk := env.disk, now := env.now, durations := env.durations,
        store := { number := 1, guarded := false } }
    let (status, m) := execute a env.entropy start
    ⟨status, m.output, [], m.disk⟩

end Pyramid.CommandLine
