import Pyramid.Chart.Store
import Pyramid.Grammar.Basic
import Pyramid.Journal

/-!
# Growing the chart

The chart of a word is a pyramid of rows. The bottom row has one node for each character. Each
further row has one node for every pair of neighbours in the row below:

```text
row 2        [abb]   [bba]
row 1     [ab]   [bb]   [ba]
row 0   [a]   [b]   [b]   [a]
```

The node of `abb` is combined from `ab`, its left ancestor, and `bb`, its right ancestor. The left
chain of `ab` holds the shorter prefixes `ab`, `a`, the right chain of `bb` the shorter suffixes
`bb`, `b`; the left chain beside the reversed right chain pairs the halves `(ab, b)`, `(a, bb)` of
every split of `abb`. So every split is visited, without a table of all places.

Nodes come from a store and are never made twice for one text. A solver enters in its journal each
row that was grown, each word that was decided, and chains that do not fit.

Specification §4.3: the chart builder. `seedRow` is its first step, `growRow` and `growRows` are the
second, where a row with a single node is the last one (`Solver.chart_eq_growWhile`), and
`Grammar.combine` is the third, from the two chains to the union over all pairs whose sides both
have derivations.
-/

namespace Pyramid

/-! ## Nodes from a grammar -/

namespace Grammar

/-- The derivations of a single character. -/
def derivationsOf (g : Grammar) (c : Char) : SortedSet Derivation :=
  .ofList ((g.withBody (.text [c])).toList.map fun p => ⟨p, 0⟩)

/-- The node of a single character. -/
def seed (g : Grammar) (c : Char) (stamp : Stamp) : Node :=
  .make stamp [c] (g.derivationsOf c) none none

/-- The derivations of a text that split it into the texts of two nodes. -/
def derivationsAt (g : Grammar) (l r : Node) : List Derivation :=
  l.heads.toList.flatMap fun b =>
    r.heads.toList.flatMap fun c =>
      (g.withBody (.symbols [b, c])).toList.map fun p => ⟨p, l.text.length⟩

/-- The chains of two neighbours do not fit. -/
def unbalanced (left right : Node) (text : Text) : Fault where
  kind := .unbalancedChain
  message := "cannot combine '" ++ left.text ++ "' (" ++ Text.ofNat left.leftChain.length
    ++ " ancestors) with '" ++ right.text ++ "' (" ++ Text.ofNat right.rightChain.length
    ++ " ancestors) into '" ++ text ++ "'"

/-- The node of a text from the nodes of the two neighbours below it. -/
def combine (g : Grammar) (left right : Node) (text : Text) (stamp : Stamp) : Except Failure Node :=
  let lefts := left.leftChain
  let rights := right.rightChain
  if lefts.length = rights.length then
    -- The halves of all splits of the text, the longest left half first. A split with a half that
    -- nothing derives is passed over.
    let pairs := (lefts.zip rights.reverse).filter fun (l, r) => l.isDerivable && r.isDerivable
    let derivations := pairs.flatMap fun (l, r) => g.derivationsAt l r
    .ok (.make stamp text (.ofList derivations) (some left) (some right))
  else .error (.fault (unbalanced left right text))

end Grammar

/-! ## Solvers -/

/-- What decides words: a grammar, the variable that a word has to derive from, and a journal. -/
structure Solver where
  grammar : Grammar
  start : Text
  journal : Journal

/-- What a solver works with: the store of nodes, the disk, and the time. -/
structure Bench where
  store : Store
  disk : Disk
  now : Moment

/-- The nodes of all substrings of one length, from left to right. -/
abbrev Row := List Node

namespace Solver

/-- The variable to derive from when none is named. -/
def defaultStart : Text := "S"

/-- The journal of a solver that is given none. -/
def silentJournal : Journal := ⟨Journal.defaultDirectory, "cnfchart", "solver", .silent⟩

/-- Enters a message in the solver's journal. -/
def note (s : Solver) (severity : Severity) (message : Text) : Act Bench Unit := fun b =>
  match s.journal.record b.now severity message b.disk with
  | (.ok (), disk) => (.ok (), { b with disk })
  | (.error e, disk) => (.error (.disk e), { b with disk })

/-- The node for a text, from the store or made by `make`. A fault in making it is entered in the
journal. -/
def obtain (s : Solver) (text : Text) (make : Stamp → Except Failure Node) : Act Bench Node :=
  fun b =>
    match b.store.obtain text make with
    | (.ok n, store) => (.ok n, { b with store })
    | (.error f, store) =>
      match f with
      | .fault _ =>
        let (r, disk) := s.journal.raise b.now f b.disk
        (r, { b with store, disk })
      | _ => (.error f, { b with store })

/-- The node for a text, combined from two neighbours if the store does not have it. -/
def combine (s : Solver) (left right : Node) (text : Text) : Act Bench Node :=
  s.obtain text (s.grammar.combine left right text)

/-- The bottom row: the nodes of the characters of a word. -/
def seedRow (s : Solver) : (word : Text) → Act Bench Row
  | [] => return []
  | c :: word => do
    let n ← s.obtain [c] fun stamp => .ok (s.grammar.seed c stamp)
    return n :: (← s.seedRow word)

/-- The row above a row: the nodes of the substrings of `span` characters, where `word` begins at
the first node of the row below. -/
def growRow (s : Solver) (span : Nat) (word : Text) : Row → Act Bench Row
  | left :: right :: row => do
    let n ← s.combine left right (word.take span)
    return n :: (← s.growRow span word.tail (right :: row))
  | _ => return []

/-- The number of nodes in a row, as the journal tells it. -/
def rowMessage (word : Text) (height : Nat) (row : Row) : Text :=
  "built row " ++ Text.ofNat height ++ " of '" ++ word ++ "' with " ++ Text.ofNat row.length
    ++ " nodes"

/-- The next `count` rows above a row that stands at `height`. -/
def growRows (s : Solver) (word : Text) (height : Nat) (row : Row) : (count : Nat) →
    Act Bench (List Row)
  | 0 => return []
  | count + 1 => do
    let above ← s.growRow (height + 2) word row
    s.note .debug (rowMessage word (height + 1) above)
    return above :: (← s.growRows word (height + 1) above count)

/-- The empty word has no chart. -/
def emptyWord : Fault := ⟨.emptyWord, "cannot build a chart for the empty word", none⟩

/-- The chart of a word, bottom row first: as many rows as the word has characters. The last row is
the first one with a single node. -/
def chart (s : Solver) (word : Text) : Act Bench (List Row) :=
  if word = [] then throw (.fault emptyWord)
  else do
    let row ← s.seedRow word
    return row :: (← s.growRows word 0 row (word.length - 1))

/-- The node at the top of a word's chart: it holds every derivation of the whole word. Only the
empty word has no such node. -/
def derive (s : Solver) (word : Text) : Act Bench Node := do
  let rows ← s.chart word
  match rows.getLast?.bind (·.head?) with
  | some n => return n
  | none => throw (.fault emptyWord)

/-- Is the word in the language? -/
def solve (s : Solver) (word : Text) : Act Bench Bool := do
  let n ← s.derive word
  let answer := n.derives s.start
  let b ← get
  s.note .info (word ++ ": " ++ Text.ofBool answer ++ " (" ++ b.store.summary ++ ")")
  return answer

/-- The solver and the store it works with, in words. -/
def summary (s : Solver) (store : Store) : Text :=
  "Read " ++ Text.ofNat s.grammar.size ++ " rules. Current cache size: " ++ Text.ofNat store.size
    ++ " entries."

end Solver
end Pyramid
