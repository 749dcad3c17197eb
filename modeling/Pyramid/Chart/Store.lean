import Pyramid.Chart.Node
import Pyramid.Failure
import Std.Data.TreeMap

/-!
# Stores of nodes

A store keeps the nodes made so far by their text, so that the node of a text is shared by every
word, and every place of a word, in which the text occurs. It counts how many nodes it has taken in
and how often it could answer from what it had. There is no eviction; `Store.clear` forgets
everything.

A store that is *guarded* may be shared by several threads; used by one of them at a time it behaves
like any other.

Specification §4.2: the derivation cache, `Store.obtain` being its get-or-compute. Guarded stores
are its thread-safe variant (§5); their locks are the subject of `Pyramid.Proofs.Chart.Guard`.
-/

namespace Pyramid

/-- Nodes by their text. -/
structure Store where
  /-- The store's number, by which its nodes are told from those of other stores. -/
  number : Nat
  guarded : Bool
  nodes : Std.TreeMap Text Node := ∅
  /-- Nodes taken in since the store was made or last cleared. -/
  computations : Nat := 0
  /-- Requests answered from the store since then. -/
  hits : Nat := 0
  /-- Nodes taken in ever. -/
  issued : Nat := 0

namespace Store

/-- The node kept for a text. -/
def get? (s : Store) (text : Text) : Option Node := s.nodes[text]?

/-- Is there a node for the text? -/
def contains (s : Store) (text : Text) : Bool := s.nodes.contains text

/-- The number of nodes kept. -/
def size (s : Store) : Nat := s.nodes.size

/-- A stamp that no node of this store carries yet. -/
def nextStamp (s : Store) : Stamp := ⟨s.number, s.issued⟩

/-- The store with one more node. -/
def take (s : Store) (n : Node) : Store :=
  { s with
    nodes := s.nodes.insert n.text n
    computations := s.computations + 1
    issued := s.issued + 1 }

/-- The node for a text: the one that is kept, or else the one that `make` gives, which is kept from
then on. A failure of `make`, or a node for another text, leaves the store as it was. -/
def obtain (s : Store) (text : Text) (make : Stamp → Except Failure Node) :
    Except Failure Node × Store :=
  match s.get? text with
  | some n => (.ok n, { s with hits := s.hits + 1 })
  | none =>
    match make s.nextStamp with
    | .error f => (.error f, s)
    | .ok n => if n.text = text then (.ok n, s.take n) else (.error (.foreignNode n.text text), s)

/-- The store without its nodes, its counters at zero. -/
def clear (s : Store) : Store := { s with nodes := ∅, computations := 0, hits := 0 }

/-- The state of a store in words. -/
def summary (s : Store) : Text :=
  Text.ofNat s.size ++ " entries, " ++ Text.ofNat s.computations ++ " computed, "
    ++ Text.ofNat s.hits ++ " hits"

/-! ## What the operations do to the view -/

@[simp] theorem get?_clear (s : Store) (t : Text) : s.clear.get? t = none := by
  simp [clear, get?]

theorem get?_take (s : Store) (n : Node) (t : Text) :
    (s.take n).get? t = if n.text = t then some n else s.get? t := by
  simp [take, get?, Std.TreeMap.getElem?_insert]

theorem contains_eq_isSome_get? (s : Store) (t : Text) : s.contains t = (s.get? t).isSome := by
  simp [contains, get?]

end Store
end Pyramid
