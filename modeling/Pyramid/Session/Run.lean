import Pyramid.Session.Command

/-!
# Carrying out the commands of a session

`Session.run` carries out one command. A command that fails leaves the session as far changed as it
got: nodes stay in their stores and lines in their journals.
-/

namespace Pyramid

namespace Session

/-! ## Names and stores -/

/-- What goes by a name. -/
def find {α : Type} (names : Session → Names α) (name : Text) : Act Session α := do
  match (names (← get))[name]? with
  | some a => return a
  | none => throw (.unknownName name)

/-- The store of a number. -/
def storeAt (number : Nat) : Act Session Store := do
  match (← get).stores[number]? with
  | some s => return s
  | none => throw (.unknownName (Text.ofNat number))

/-- Keeps a store under its number. -/
def keepStore (s : Store) : Act Session Unit :=
  modify fun session => { session with stores := session.stores.insert s.number s }

/-- A new store. Number zero is kept for nodes made by hand. -/
def newStore (guarded : Bool) : Act Session Store := do
  let s : Store := { number := (← get).stores.size + 1, guarded }
  keepStore s
  return s

/-- The store of a name. -/
def findStore (name : Text) : Act Session Store := do storeAt (← find storeNumbers name)

/-- Names a node, if a name is given. -/
def save (name : Option Text) (n : Node) : Act Session Unit :=
  match name with
  | none => pure ()
  | some name => modify fun session => { session with nodes := session.nodes.insert name n }

/-- Lets a solver work with its store. -/
def atBench {α : Type} (number : Nat) (act : Act Bench α) : Act Session α := do
  let store ← storeAt number
  let session ← get
  let (result, bench) := act ⟨store, session.disk, session.now⟩
  set { session with disk := bench.disk, stores := session.stores.insert number bench.store }
  liftExcept result
where
  /-- A result or a failure, as a step of the session. -/
  liftExcept (r : Except Failure α) : Act Session α :=
    match r with
    | .ok a => return a
    | .error f => throw f

/-- Lets a journal work on the disk. -/
def onDisk {α : Type} (act : Moment → Disk → Except Failure α × Disk) : Act Session α := do
  let session ← get
  let (result, disk) := act session.now session.disk
  set { session with disk }
  match result with
  | .ok a => return a
  | .error f => throw f

/-- The state of a store's counters. -/
def tallyAt (number : Nat) : Act Session Tally := do return (← storeAt number).tally

/-! ## Commands -/

/-- Opens a journal of the given name. -/
def openJournal (name : Text) (j : Journal) : Act Session Answer := do
  modify fun session => { session with journals := session.journals.insert name j }
  return .journal j

/-- Makes the derivations of a node by hand. -/
def handDerivations (ds : List HandDerivation) : Act Session (SortedSet Derivation) := do
  let made ← ds.mapM fun d => do
    match Production.ofTexts d.head d.body with
    | .error e => throw (.fault (e.fault none))
    | .ok p => return (⟨p, d.offset⟩ : Derivation)
  return .ofList made

/-- What a maker gives among the nodes that have names. -/
def makerOf (nodes : Names Node) : Maker → Except Failure Node
  | .failing failure => .error failure
  | .node name =>
    match nodes[name]? with
    | some n => .ok n
    | none => .error (.unknownName name)

/-- Obtains a node from a store with the given maker, which is called only if it is needed. -/
def obtain (store : Text) (text : Text) (maker : Maker) (name : Option Text) :
    Act Session Answer := do
  let s ← findStore store
  let made := makerOf (← get).nodes maker
  let calls := if s.contains text then 0 else 1
  let (result, s) := s.obtain text fun _ => made
  keepStore s
  match result with
  | .ok n => save name n
  | .error _ => pure ()
  return .obtained result calls s.tally

/-- Obtains a node from a store `times` times, and gives the stamps of what came back. -/
def obtainTimes (text : Text) (made : Except Failure Node) :
    (times : Nat) → Store → Except Failure (List Stamp) × Store
  | 0, s => (.ok [], s)
  | times + 1, s =>
    match s.obtain text fun _ => made with
    | (.error f, s) => (.error f, s)
    | (.ok m, s) =>
      let (stamps, s) := obtainTimes text made times s
      ((m.stamp :: ·) <$> stamps, s)

/-- Are all stamps the same? -/
def allSame : List Stamp → Bool
  | [] => true
  | a :: as => as.all (· = a)

/-- Carries out a command. -/
def run : Command → Act Session Answer
  | .journal name file tag level directory => do
    let levelName := level.getD Level.info.name
    match Level.ofName? levelName with
    | none => throw (.unknownLevel levelName)
    | some level =>
      openJournal name ⟨directory.getD Journal.defaultDirectory, file, tag, level⟩
  | .child name parent tag => do
    let j ← find journals parent
    openJournal name (j.child tag)
  | .record journal severity message => do
    let j ← find journals journal
    onDisk fun now d => match j.record now severity message d with
      | (.ok (), d) => (.ok .nothing, d)
      | (.error e, d) => (.error (.disk e), d)
  | .raise journal failure => do
    let j ← find journals journal
    onDisk fun now d => j.raise now failure d
  | .takes journal level => do
    let j ← find journals journal
    match Level.ofName? level with
    | none => throw .illTyped
    | some l => return .flag (j.takes l)
  | .grammar name source journal => do
    let j ← journal.mapM (find journals)
    let g ← onDisk fun now d => source.load j now d
    modify fun session => { session with grammars := session.grammars.insert name g }
    return .size g.size
  | .store name guarded => do
    let s ← newStore guarded
    modify fun session => { session with storeNumbers := session.storeNumbers.insert name s.number }
    return .guarded s.guarded
  | .storeOf solver name => do
    let (_, number) ← find solvers solver
    modify fun session => { session with storeNumbers := session.storeNumbers.insert name number }
    return .guarded (← storeAt number).guarded
  | .node name text derivations left right => do
    let ds ← handDerivations derivations
    let l ← left.mapM (find nodes)
    let r ← right.mapM (find nodes)
    let n : Node := .make ⟨0, (← get).handmade⟩ text ds l r
    modify fun session => { session with handmade := session.handmade + 1 }
    save (some name) n
    return .node (some n)
  | .solver name grammar store start journal guarded => do
    let g ← find grammars grammar
    let given ← store.mapM findStore
    let j ← journal.mapM (find journals)
    match given with
    | some s => if guarded && !s.guarded then throw .unguardedStore
    | none => pure ()
    let s ← match given with
      | some s => pure s
      | none => newStore guarded
    let made : Solver := ⟨g, start, j.getD Solver.silentJournal⟩
    modify fun session => { session with solvers := session.solvers.insert name (made, s.number) }
    return .solver (made.summary s)
  | .solve solver word => do
    let (s, number) ← find solvers solver
    let answer ← atBench number (s.solve word)
    return .member answer (← tallyAt number)
  | .derive solver word name => do
    let (s, number) ← find solvers solver
    let n ← atBench number (s.derive word)
    save name n
    return .derived n (← tallyAt number)
  | .chart solver word => do
    let (s, number) ← find solvers solver
    let rows ← atBench number (s.chart word)
    return .rows rows (← tallyAt number)
  | .combine solver left right text name => do
    let (s, number) ← find solvers solver
    let l ← find nodes left
    let r ← find nodes right
    let n ← atBench number (s.combine l r text)
    save name n
    return .derived n (← tallyAt number)
  | .summary solver => do
    let (s, number) ← find solvers solver
    return .text (s.summary (← storeAt number))
  | .solveAll solver words => do
    let (s, number) ← find solvers solver
    let answers ← words.mapM fun word => atBench number (s.solve word)
    return .members answers (← tallyAt number)
  | .get store text name => do
    match (← findStore store).get? text with
    | some n => do
      save name n
      return .node (some n)
    | none => return .node none
  | .obtain store text maker name => obtain store text maker name
  | .race store text maker times => do
    let s ← findStore store
    let made := makerOf (← get).nodes maker
    let known := s.contains text
    let (stamps, after) := obtainTimes text made times s
    keepStore after
    match stamps with
    | .error f => throw f
    | .ok stamps => return .race known (after.issued - s.issued) (allSame stamps) after.tally
  | .contains store text => do return .flag ((← findStore store).contains text)
  | .tally store => do
    let s ← findStore store
    return .store s.tally s.summary
  | .clear store => do
    let s := (← findStore store).clear
    keepStore s
    return .store s.tally s.summary
  | .showNode node => do return .node (some (← find nodes node))
  | .query node symbol => do
    let n ← find nodes node
    return .query (n.derives symbol) (n.isAmbiguousFor symbol) (n.derivationsFor symbol)
  | .chains node => do
    let n ← find nodes node
    return .chains n.leftChain n.rightChain
  | .same a b => do
    let m ← find nodes a
    let n ← find nodes b
    return .same (m.stamp = n.stamp)

end Session
end Pyramid
