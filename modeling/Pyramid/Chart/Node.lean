import Pyramid.Production
import Pyramid.SortedSet

/-!
# Nodes of the chart

A node holds every known way to derive a text. A *derivation* is a production together with the
number of characters that its first body symbol produces; for one-symbol bodies that number is zero.

The two *ancestors* of a node are the nodes it was combined from: they tell how the chart was grown
and are no parse tree. Following left ancestors gives the left chain, following right ancestors the
right chain. Nodes of single characters have no ancestors.

A node carries a *stamp*, and no two nodes that were made in different places have the same one. Two
nodes are one and the same node exactly when their stamps agree, whatever their content.

Specification §3: the derivation node and its derived views. Its equality is that of objects, for
which the stamps stand.
-/

namespace Pyramid

open Text

/-! ## Derivations -/

/-- One way to derive a text. -/
structure Derivation where
  production : Production
  /-- How many characters the first symbol of the body produces; zero for a terminal. -/
  offset : Int
deriving DecidableEq

namespace Derivation

@[ext] theorem ext {d e : Derivation} (hp : d.production = e.production)
    (ho : d.offset = e.offset) : d = e := by
  cases d; cases e; simp_all

/-- Derivations are ordered by offset, then by production. -/
instance : Ord Derivation := ⟨compareLex (compareOn offset) (compareOn production)⟩

instance : Std.TransOrd Derivation :=
  inferInstanceAs (Std.TransCmp (compareLex (compareOn offset) (compareOn production)))

instance : Std.LawfulEqOrd Derivation where
  eq_of_compare {d e} h := by
    have h' : compareLex (compareOn offset) (compareOn production) d e = .eq := h
    simp only [compareLex, Ordering.then_eq_eq, compareOn, Std.LawfulEqOrd.compare_eq_iff_eq] at h'
    exact ext h'.2 h'.1

/-- The written form, `head->key (offset)`. -/
def text (d : Derivation) : Text := d.production.text ++ " (" ++ Text.ofInt d.offset ++ ")"

/-- The order in which the derivations of one variable are listed: by offset, then by key. -/
def precedes (d e : Derivation) : Bool :=
  (compareLex (compareOn offset) (compareOn (·.production.key)) d e).isLE

/-- The variables that the given derivations derive from. -/
def headsOf (ds : SortedSet Derivation) : SortedSet Text :=
  .ofList (ds.toList.map (·.production.head))

@[simp] theorem mem_headsOf {ds : SortedSet Derivation} {a : Text} :
    a ∈ headsOf ds ↔ ∃ d ∈ ds, d.production.head = a := by
  simp [headsOf, SortedSet.mem_iff]

end Derivation

/-! ## Nodes -/

/-- What tells a node from all others: its maker, and its number among the maker's nodes. -/
structure Stamp where
  maker : Nat
  serial : Nat
deriving DecidableEq, Repr

/-- A text with all its derivations. -/
structure Node where
  stamp : Stamp
  text : Text
  derivations : SortedSet Derivation
  left : Option Node
  right : Option Node
  /-- The variables that derive the text, worked out once. -/
  heads : SortedSet Text := Derivation.headsOf derivations
  heads_eq : heads = Derivation.headsOf derivations := by rfl

namespace Node

/-- A node whose variables are those of its derivations. -/
def make (stamp : Stamp) (text : Text) (derivations : SortedSet Derivation)
    (left right : Option Node) : Node :=
  { stamp, text, derivations, left, right }

/-- A variable derives the node's text exactly when one of its derivations starts from it. -/
theorem mem_heads {n : Node} {a : Text} :
    a ∈ n.heads ↔ ∃ d ∈ n.derivations, d.production.head = a := by
  rw [n.heads_eq, Derivation.mem_headsOf]

/-- Is there any derivation? -/
def isDerivable (n : Node) : Bool := !n.derivations.isEmpty

theorem isDerivable_of_mem_heads {n : Node} {a : Text} (h : a ∈ n.heads) :
    n.isDerivable = true := by
  obtain ⟨d, hd, -⟩ := mem_heads.mp h
  cases hempty : n.derivations.isEmpty with
  | false => rw [isDerivable, hempty, Bool.not_false]
  | true => exact absurd hd (SortedSet.isEmpty_iff.mp hempty d)

/-- Does the variable derive the node's text? -/
def derives (n : Node) (a : Text) : Bool := a ∈ n.heads

/-- The derivations that start from a variable, in order. -/
def derivationsFor (n : Node) (a : Text) : List Derivation :=
  (n.derivations.toList.filter (·.production.head = a)).mergeSort Derivation.precedes

/-- Does the variable have more than one derivation here? -/
def isAmbiguousFor (n : Node) (a : Text) : Bool := 1 < (n.derivationsFor a).length

/-- The derivations as text, one on a line, the lines in order. -/
def listing (n : Node) : Text := join "\n" (sort (n.derivations.toList.map (·.text)))

/-! ## Chains -/

/-- The node and its left ancestors. -/
def leftChain : Node → List Node
  | n@⟨_, _, _, none, _, _, _⟩ => [n]
  | n@⟨_, _, _, some l, _, _, _⟩ => n :: l.leftChain

/-- The node and its right ancestors. -/
def rightChain : Node → List Node
  | n@⟨_, _, _, _, none, _, _⟩ => [n]
  | n@⟨_, _, _, _, some r, _, _⟩ => n :: r.rightChain

theorem leftChain_eq (n : Node) :
    n.leftChain = n :: (n.left.map leftChain).getD [] := by
  obtain ⟨_, _, _, _ | l, _, _, _⟩ := n <;> simp [leftChain]

theorem rightChain_eq (n : Node) :
    n.rightChain = n :: (n.right.map rightChain).getD [] := by
  obtain ⟨_, _, _, _, _ | r, _, _⟩ := n <;> simp [rightChain]

end Node
end Pyramid
