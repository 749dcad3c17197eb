import Pyramid.Chart.Solver
import Pyramid.Grammar.Source

/-!
# Commands of a session

A session holds journals, grammars, stores, solvers and nodes by name, each kind with names of its
own. Here are its state, the commands it takes and the answers it gives; `Session.run` carries the
commands out.

Several solvers may work with one store, and a store may be given a second name, so stores are kept
by number and names lead to numbers.

The commands are the surface of the components in the specification (§4, §10), each call by itself.
-/

namespace Pyramid

/-- Things by name. -/
abbrev Names (α : Type) := Std.TreeMap Text α

/-- The state of a session. -/
structure Session where
  disk : Disk
  now : Moment
  journals : Names Journal := ∅
  grammars : Names Grammar := ∅
  /-- All stores, by number. -/
  stores : Std.TreeMap Nat Store := ∅
  storeNumbers : Names Nat := ∅
  /-- Solvers, each with the number of its store. -/
  solvers : Names (Solver × Nat) := ∅
  nodes : Names Node := ∅
  /-- How many nodes were made by hand. -/
  handmade : Nat := 0

/-- The counters of a store. -/
structure Tally where
  size : Nat
  computations : Nat
  hits : Nat
deriving DecidableEq, Repr

/-- The counters of a store as they stand. -/
def Store.tally (s : Store) : Tally := ⟨s.size, s.computations, s.hits⟩

/-- A derivation made by hand: head, body and offset. -/
structure HandDerivation where
  head : Text
  body : Text
  offset : Int
deriving Repr

/-- What a store is given to make a node with, if it has none. -/
inductive Maker where
  /-- The node that goes by a name when it is asked for. -/
  | node (name : Text)
  | failing (failure : Failure)
deriving Repr

/-- What a session can be asked to do. Where a field is optional, its default applies. -/
inductive Command where
  /-- Opens a journal. -/
  | journal (name file tag : Text) (level directory : Option Text)
  /-- Opens a journal on the files of another one. -/
  | child (name parent tag : Text)
  /-- Enters a message. -/
  | record (journal : Text) (severity : Severity) (message : Text)
  /-- Enters a failure and fails with it. -/
  | raise (journal : Text) (failure : Failure)
  /-- Asks whether a journal takes messages of a level. -/
  | takes (journal level : Text)
  /-- Reads a grammar. -/
  | grammar (name : Text) (source : Grammar.Source) (journal : Option Text)
  /-- Makes a store. -/
  | store (name : Text) (guarded : Bool)
  /-- Names the store of a solver. -/
  | storeOf (solver name : Text)
  /-- Makes a node by hand. -/
  | node (name text : Text) (derivations : List HandDerivation) (left right : Option Text)
  /-- Makes a solver. -/
  | solver (name grammar : Text) (store : Option Text) (start : Text) (journal : Option Text)
      (guarded : Bool)
  /-- Decides a word. -/
  | solve (solver word : Text)
  /-- Derives a word. -/
  | derive (solver word : Text) (save : Option Text)
  /-- Charts a word. -/
  | chart (solver word : Text)
  /-- Combines two nodes. -/
  | combine (solver left right text : Text) (save : Option Text)
  /-- Describes a solver. -/
  | summary (solver : Text)
  /-- Decides several words. -/
  | solveAll (solver : Text) (words : List Text)
  /-- Looks a text up in a store. -/
  | get (store text : Text) (save : Option Text)
  /-- Obtains a text's node from a store. -/
  | obtain (store text : Text) (maker : Maker) (save : Option Text)
  /-- Obtains a text's node several times at once. -/
  | race (store text : Text) (maker : Maker) (times : Nat)
  /-- Asks whether a store has a text. -/
  | contains (store text : Text)
  /-- Describes a store. -/
  | tally (store : Text)
  /-- Clears a store. -/
  | clear (store : Text)
  /-- Shows a node. -/
  | showNode (node : Text)
  /-- Asks a node about a variable. -/
  | query (node symbol : Text)
  /-- Lists the chains of a node. -/
  | chains (node : Text)
  /-- Asks whether two nodes are one. -/
  | same (a b : Text)

/-- What a session answers. -/
inductive Answer where
  | nothing
  | flag (b : Bool)
  | text (t : Text)
  | journal (j : Journal)
  | size (n : Nat)
  | guarded (b : Bool)
  | solver (summary : Text)
  | node (n : Option Node)
  | member (b : Bool) (tally : Tally)
  | members (bs : List Bool) (tally : Tally)
  | derived (n : Node) (tally : Tally)
  | rows (rows : List Row) (tally : Tally)
  | obtained (result : Except Failure Node) (calls : Nat) (tally : Tally)
  | race (known : Bool) (calls : Nat) (oneNode : Bool) (tally : Tally)
  | store (tally : Tally) (summary : Text)
  | query (derives ambiguous : Bool) (derivations : List Derivation)
  | chains (left right : List Node)
  | same (b : Bool)

end Pyramid
