import Pyramid.CommandLine.Program
import Std.Time.Zoned

/-!
# The command line

Runs the program on the files of the working directory. What the program may look at is read into
a `Disk` before it runs, and what it changed there is written back afterwards; in between stands
`CommandLine.run`.

This is the program `cnfchart` of the specification (§1, §6), as it is installed.

Measurements are made on a trial run, so that the run that is shown can be told how long each of
them took.
-/

namespace Pyramid.CommandLine

/-! ## The disk -/

/-- What stands at a path. -/
def probe (path : String) : IO (Option Entry) := do
  try
    return some (.file (← IO.FS.readBinFile path).toList)
  catch e =>
    match e with
    | .inappropriateType _ 21 _ => return some .directory
    | _ => return none

/-- The disk with what stands at the places on the way to a path. -/
def look (d : Disk) (path : Text) : IO Disk :=
  (Disk.upTo (d.locationOf path)).foldlM (fun d loc => do
    match ← probe (String.ofList ('/' :: Text.join "/" loc)) with
    | some e => return d.put loc e
    | none => return d) d

/-- The disk as far as the program can look at it. -/
def lookAround (a : Arguments) : IO Disk := do
  let home := Path.namesOf (← IO.currentDir).toString.toList
  let d ← look (Disk.empty home) a.config
  match settingsFor a d with
  | .error _ => return d
  | .ok s =>
    let j := journalFor s
    let d ← look d (s.grammar.getD [])
    let d ← look d j.path.text
    look d j.errorPath.text

/-- Writes back what has changed. -/
def writeBack (before after : Disk) : IO Unit := do
  for (path, bytes) in Disk.changes before after do
    let parent := (Path.ofText path).parent.text
    IO.FS.createDirAll (String.ofList parent)
    IO.FS.writeBinFile (String.ofList path) ⟨bytes.toArray⟩

/-! ## The clock -/

/-- The time of day. -/
def readClock : IO Moment := do
  let t ← Std.Time.PlainDateTime.now
  return ⟨t.date.month.val.toNat, t.date.day.val.toNat, t.time.hour.val.toNat,
    t.time.minute.val.toNat, t.time.second.val.toNat⟩

/-- Runs a part of the program and tells how long it took. -/
def timed {α : Type} (act : Program α) (m : Machine) : IO (Int × Except Failure α × Machine) := do
  let before ← IO.monoNanosNow
  let (r, m) ← IO.lazyPure fun _ => act m
  let after ← IO.monoNanosNow
  return ((after : Int) - before, r, m)

/-- The durations of all measurements of a run, from a trial. -/
def trial (a : Arguments) (entropy : Int) (m : Machine) : IO (List Int) := do
  let (first, r, m) ← timed (startUp a) m
  match r, wordsFor a entropy with
  | .ok s, .ok words =>
    let words := if words = [] then sampleWords else words
    let mut durations := #[first]
    let mut machine := m
    for word in words do
      unless word = [] do
        let (ns, _, m) ← timed (runWord a s word) machine
        durations := durations.push ns
        machine := m
    return durations.toList
  | _, _ => return [first]

end Pyramid.CommandLine

open Pyramid CommandLine in
/-- Runs the program with the given arguments. -/
def main (args : List String) : IO UInt32 := do
  let argv := args.map String.toList
  let now ← readClock
  let entropy : Int := ((← IO.getRandomBytes 8).toList.foldl (fun n b => n * 256 + b.toNat) 0 : Nat)
  let a := (read argv).toOption.getD {}
  let disk ← lookAround a
  let store : Store := { number := 1, guarded := false }
  let start : Machine := { disk, now, durations := ⟨[0], 0⟩, store }
  let cycle ← if a.measure then trial a entropy start else pure [0]
  let outcome := run argv ⟨disk, now, ⟨cycle, 0⟩, entropy⟩
  IO.print (String.ofList outcome.output)
  IO.eprint (String.ofList outcome.errors)
  writeBack disk outcome.disk
  match outcome.status with
  | .ok n => return UInt32.ofNat n
  | .error f =>
    IO.eprintln (String.ofList f.message)
    return 1
