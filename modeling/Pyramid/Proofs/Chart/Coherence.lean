import Mathlib
import Pyramid.Proofs.Chart.Content

/-!
# Coherent stores

A store is *coherent* if every node in it is linked to the nodes it was combined from, and these are
the very nodes that the store has for their texts. The links were made when the node was, perhaps
for another word; coherence says that they still lead where they should.

* `Coherent.leftChain`, `Coherent.rightChain`: the chains of a node in a coherent store are the
  nodes that the store has for the prefixes and the suffixes of its text.
* `Coherent.visited`: so the pairs that combining two neighbours looks at are the nodes of the
  splits.

A store is *exact* for a grammar if every node holds the entries of its text and no others.

What a solver can do to a store is one `Store.Request` after another, and a request keeps all of
this (`Request.keptIn`, `Request.coherent`, `Request.exact`).
-/

namespace Pyramid

open Text

namespace Store

variable {st st' st'' : Store} {t : Text} {n : Node}

/-! ## Nodes that stay -/

/-- Every node of the one store is in the other, under the same text. -/
def KeptIn (st st' : Store) : Prop := ∀ ⦃t n⦄, st.get? t = some n → st'.get? t = some n

theorem KeptIn.refl (st : Store) : st.KeptIn st := fun _ _ h => h

theorem KeptIn.trans (h : st.KeptIn st') (h' : st'.KeptIn st'') : st.KeptIn st'' :=
  fun _ _ hn => h' (h hn)

/-- Taking in a node for a new text loses no node. -/
theorem keptIn_take (absent : st.get? n.text = none) : st.KeptIn (st.take n) := by
  intro t m hm
  have hne : n.text ≠ t := by
    rintro rfl
    rw [absent] at hm
    cases hm
  rw [get?_take, if_neg hne]
  exact hm

/-- The nodes are, one by one, those that the store has for the texts. -/
def Holds (st : Store) (ts : List Text) (ns : List Node) : Prop := ns.map some = ts.map st.get?

theorem Holds.length_eq {ts : List Text} {ns : List Node} (h : st.Holds ts ns) :
    ns.length = ts.length := by
  simpa using congrArg List.length h

theorem holds_nil : st.Holds [] [] := rfl

theorem Holds.cons {ts : List Text} {ns : List Node} (hn : st.get? t = some n)
    (h : st.Holds ts ns) : st.Holds (t :: ts) (n :: ns) := by
  unfold Holds at h ⊢
  rw [List.map_cons, List.map_cons, h, hn]

theorem holds_cons_iff {ts : List Text} {ns : List Node} :
    st.Holds (t :: ts) (n :: ns) ↔ st.get? t = some n ∧ st.Holds ts ns := by
  simp [Holds, eq_comm]

theorem Holds.mono (hk : st.KeptIn st') {ts : List Text} {ns : List Node} (h : st.Holds ts ns) :
    st'.Holds ts ns := by
  induction ts generalizing ns with
  | nil => exact h
  | cons t ts ih =>
    cases ns with
    | nil => simp [Holds] at h
    | cons n ns =>
      obtain ⟨hn, hns⟩ := holds_cons_iff.mp h
      exact .cons (hk hn) (ih hns)

theorem Holds.forall₂ {ts : List Text} {ns : List Node} (h : st.Holds ts ns) :
    List.Forall₂ (fun t n => st.get? t = some n) ts ns := by
  have heq : List.Forall₂ Eq (ts.map st.get?) (ns.map some) := by
    rw [List.forall₂_eq_eq_eq]
    exact h.symm
  rwa [List.forall₂_map_left_iff, List.forall₂_map_right_iff] at heq

/-- The node at a place is the one that the store has for the text at that place. -/
theorem Holds.getElem? {ts : List Text} {ns : List Node} (h : st.Holds ts ns) {i : Nat}
    (hi : ts[i]? = some t) : ∃ n, ns[i]? = some n ∧ st.get? t = some n := by
  have hmap : ns[i]?.map some = some (st.get? t) := by
    rw [← List.getElem?_map, h, List.getElem?_map, hi]
    rfl
  obtain ⟨n, hn, hs⟩ := Option.map_eq_some_iff.mp hmap
  exact ⟨n, hn, hs.symm⟩

/-! ## Links -/

/-- The node is the one for the text, and what it was combined from are the nodes that the store has
for the text without its last and without its first character. -/
structure Linked (st : Store) (t : Text) (n : Node) : Prop where
  text_eq : n.text = t
  ne_nil : t ≠ []
  /-- A single character is combined from nothing. -/
  single : t.length = 1 → n.left = none ∧ n.right = none
  left : 2 ≤ t.length → ∃ l, n.left = some l ∧ st.get? t.dropLast = some l
  right : 2 ≤ t.length → ∃ r, n.right = some r ∧ st.get? t.tail = some r

theorem Linked.mono (hk : st.KeptIn st') (h : st.Linked t n) : st'.Linked t n where
  text_eq := h.text_eq
  ne_nil := h.ne_nil
  single := h.single
  left := fun h2 => by
    obtain ⟨l, hl, hget⟩ := h.left h2
    exact ⟨l, hl, hk hget⟩
  right := fun h2 => by
    obtain ⟨r, hr, hget⟩ := h.right h2
    exact ⟨r, hr, hk hget⟩

theorem linked_seed (st : Store) (g : Grammar) (c : Char) (stamp : Stamp) :
    st.Linked [c] (g.seed c stamp) where
  text_eq := rfl
  ne_nil := List.cons_ne_nil _ _
  single := fun _ => ⟨rfl, rfl⟩
  left := fun h2 => absurd h2 (by simp)
  right := fun h2 => absurd h2 (by simp)

theorem linked_make {l r : Node} (h2 : 2 ≤ t.length) (hl : st.get? t.dropLast = some l)
    (hr : st.get? t.tail = some r) (stamp : Stamp) (ds : SortedSet Derivation) :
    st.Linked t (.make stamp t ds (some l) (some r)) where
  text_eq := rfl
  ne_nil := by
    rintro rfl
    simp at h2
  single := fun h1 => absurd h2 (by simp [h1])
  left := fun _ => ⟨l, rfl, hl⟩
  right := fun _ => ⟨r, rfl, hr⟩

/-- Every node of the store is linked to nodes of the store. -/
def Coherent (st : Store) : Prop := ∀ ⦃t n⦄, st.get? t = some n → st.Linked t n

theorem coherent_of_empty (h : ∀ t, st.get? t = none) : st.Coherent := by
  intro t n hn
  rw [h t] at hn
  cases hn

theorem Coherent.take (hc : st.Coherent) (absent : st.get? n.text = none)
    (hn : st.Linked n.text n) : (st.take n).Coherent := by
  intro t m hm
  have hk : st.KeptIn (st.take n) := keptIn_take absent
  rw [get?_take] at hm
  by_cases he : n.text = t
  · rw [if_pos he] at hm
    cases hm
    rw [← he]
    exact hn.mono hk
  · rw [if_neg he] at hm
    exact (hc hm).mono hk

/-! ## Chains -/

/-- **The left chain of a node is the nodes of the prefixes of its text.** -/
theorem Coherent.leftChain (hc : st.Coherent) {t : Text} {n : Node} (hn : st.get? t = some n) :
    st.Holds (prefixes t) n.leftChain := by
  have hlink := hc hn
  rw [prefixes_eq_cons hlink.ne_nil, Node.leftChain_eq]
  refine .cons hn ?_
  have hpos : 0 < t.length := List.length_pos_iff.mpr hlink.ne_nil
  by_cases h2 : 2 ≤ t.length
  · obtain ⟨l, hl, hget⟩ := hlink.left h2
    rw [hl]
    exact hc.leftChain hget
  · have h1 : t.length = 1 := by omega
    have hlast : t.dropLast = [] := List.length_eq_zero_iff.mp (by simp [h1])
    rw [(hlink.single h1).1, hlast]
    exact holds_nil
termination_by t.length
decreasing_by
  rw [List.length_dropLast]
  omega

/-- **The right chain of a node is the nodes of the suffixes of its text.** -/
theorem Coherent.rightChain (hc : st.Coherent) {t : Text} {n : Node} (hn : st.get? t = some n) :
    st.Holds (suffixes t) n.rightChain := by
  have hlink := hc hn
  rw [suffixes_eq_cons hlink.ne_nil, Node.rightChain_eq]
  refine .cons hn ?_
  have hpos : 0 < t.length := List.length_pos_iff.mpr hlink.ne_nil
  by_cases h2 : 2 ≤ t.length
  · obtain ⟨r, hr, hget⟩ := hlink.right h2
    rw [hr]
    exact hc.rightChain hget
  · have h1 : t.length = 1 := by omega
    have htail : t.tail = [] := List.length_eq_zero_iff.mp (by simp [h1])
    rw [(hlink.single h1).2, htail]
    exact holds_nil
termination_by t.length
decreasing_by
  rw [List.length_tail]
  omega

/-- **Two neighbours meet at every split.** The left chain of the one beside the right chain of the
other, read backwards, is the nodes of the halves of every split, and of each split once. -/
theorem Coherent.visited (hc : st.Coherent) {l r : Node} (hl : st.get? t.dropLast = some l)
    (hr : st.get? t.tail = some r) :
    (l.leftChain.zip r.rightChain.reverse).map (Prod.map some some)
      = (splits t).map (Prod.map st.get? st.get?) := by
  have hlefts := hc.leftChain hl
  have hrights := hc.rightChain hr
  unfold Holds at hlefts hrights
  rw [← List.zip_map, List.map_reverse, hlefts, hrights, ← List.map_reverse, List.zip_map,
    zip_prefixes_suffixes]

/-- The chains of two neighbours have the same length. -/
theorem Coherent.balanced (hc : st.Coherent) {l r : Node} (hl : st.get? t.dropLast = some l)
    (hr : st.get? t.tail = some r) : l.leftChain.length = r.rightChain.length := by
  rw [(hc.leftChain hl).length_eq, (hc.rightChain hr).length_eq]
  simp

/-! ## Exact nodes -/

/-- The node holds the entries of its text and no other derivations. -/
def Exact (g : Grammar) (st : Store) : Prop :=
  ∀ ⦃t n⦄, st.get? t = some n → ∀ d, d ∈ n.derivations ↔ g.Entry t d

theorem exact_of_empty {g : Grammar} (h : ∀ t, st.get? t = none) : st.Exact g := by
  intro t n hn
  rw [h t] at hn
  cases hn

/-- The variables of a node are those that yield its text. -/
theorem Exact.mem_heads {g : Grammar} (he : st.Exact g) (hn : st.get? t = some n) {a : Text} :
    a ∈ n.heads ↔ g.Yields a t := by
  rw [Node.mem_heads, Grammar.yields_iff_entry]
  simp only [he hn]

theorem Exact.take {g : Grammar} (he : st.Exact g)
    (hn : ∀ d, d ∈ n.derivations ↔ g.Entry n.text d) : (st.take n).Exact g := by
  intro t m hm
  rw [get?_take] at hm
  by_cases heq : n.text = t
  · rw [if_pos heq] at hm
    cases hm
    rw [← heq]
    exact hn
  · rw [if_neg heq] at hm
    exact he hm

/-- **Combining two neighbours of an exact store gives the entries of the text between them.** -/
theorem Exact.mem_combine {g h : Grammar} (hsame : h.SameProductions g) (hc : st.Coherent)
    (he : st.Exact g) (h2 : 2 ≤ t.length) {l r : Node} (hl : st.get? t.dropLast = some l)
    (hr : st.get? t.tail = some r) {d : Derivation} :
    d ∈ (l.leftChain.zip r.rightChain.reverse).flatMap (fun (x, y) => h.derivationsAt x y)
      ↔ g.Entry t d := by
  have hrecords : ∀ u m, st.get? u = some m → g.Records u m :=
    fun u m hm => ⟨(hc hm).text_eq, he hm⟩
  exact Grammar.mem_combined hsame h2 ((hc.leftChain hl).forall₂.imp hrecords)
    ((hc.rightChain hr).forall₂.imp hrecords)

/-! ## Requests -/

/-- One request of a solver for the node of a text, and the store after it. The grammar of the
solver is one of those that `P` admits. -/
inductive Request (P : Grammar → Prop) (st : Store) : Text → Store → Prop where
  /-- The store has the node. -/
  | found {t : Text} {n : Node} (present : st.get? t = some n) :
      Request P st t { st with hits := st.hits + 1 }
  /-- The node of a character is made from the grammar. -/
  | seeded {g : Grammar} {c : Char} (admitted : P g) (absent : st.get? [c] = none) :
      Request P st [c] (st.take (g.seed c st.nextStamp))
  /-- The node of a longer text is combined from two nodes of the store. -/
  | combined {g : Grammar} {t : Text} {l r n : Node} (admitted : P g) (absent : st.get? t = none)
      (two_le : 2 ≤ t.length) (left : st.get? t.dropLast = some l) (right : st.get? t.tail = some r)
      (made : g.combine l r t st.nextStamp = .ok n) : Request P st t (st.take n)

/-- Requests for texts, one after another. -/
inductive Requests (P : Grammar → Prop) : Store → List Text → Store → Prop where
  | nil (st : Store) : Requests P st [] st
  | cons {st st' st'' : Store} {t : Text} {ts : List Text} (first : Request P st t st')
      (rest : Requests P st' ts st'') : Requests P st (t :: ts) st''

variable {P : Grammar → Prop} {ts us : List Text}

theorem Request.single (h : Request P st t st') : Requests P st [t] st' := .cons h (.nil st')

theorem Requests.append (h : Requests P st ts st') (h' : Requests P st' us st'') :
    Requests P st (ts ++ us) st'' := by
  induction h with
  | nil => exact h'
  | cons first _ ih => exact .cons first (ih h')

theorem Request.keptIn (h : Request P st t st') : st.KeptIn st' := by
  cases h with
  | found => exact fun _ _ hn => hn
  | seeded _ absent => exact keptIn_take absent
  | combined _ absent _ _ _ made =>
    obtain ⟨-, rfl⟩ := Grammar.combine_eq_ok_iff.mp made
    exact keptIn_take absent

theorem Request.coherent (h : Request P st t st') (hc : st.Coherent) : st'.Coherent := by
  cases h with
  | found =>
    have hk : st.KeptIn { st with hits := st.hits + 1 } := fun _ _ hm => hm
    exact fun t n hn => (hc hn).mono hk
  | seeded _ absent => exact hc.take absent (linked_seed st _ _ _)
  | combined _ absent two_le left right made =>
    obtain ⟨-, rfl⟩ := Grammar.combine_eq_ok_iff.mp made
    exact hc.take absent (linked_make two_le left right _ _)

theorem Request.exact {g : Grammar} (h : Request (·.SameProductions g) st t st') (hc : st.Coherent)
    (he : st.Exact g) : st'.Exact g := by
  cases h with
  | found => exact he
  | seeded admitted _ =>
    refine he.take fun d => ?_
    constructor
    · exact fun hd => (Grammar.mem_derivationsOf.mp hd).congr admitted
    · exact fun hd => Grammar.mem_derivationsOf.mpr (hd.congr admitted.symm)
  | combined admitted _ two_le left right made =>
    obtain ⟨-, rfl⟩ := Grammar.combine_eq_ok_iff.mp made
    refine he.take fun d => ?_
    exact SortedSet.mem_ofList.trans (he.mem_combine admitted hc two_le left right)

theorem Requests.keptIn (h : Requests P st ts st') : st.KeptIn st' := by
  induction h with
  | nil => exact .refl _
  | cons first _ ih => exact first.keptIn.trans ih

theorem Requests.coherent (h : Requests P st ts st') (hc : st.Coherent) : st'.Coherent := by
  induction h with
  | nil => exact hc
  | cons first _ ih => exact ih (first.coherent hc)

theorem Requests.exact {g : Grammar} (h : Requests (·.SameProductions g) st ts st')
    (hc : st.Coherent) (he : st.Exact g) : st'.Exact g := by
  induction h with
  | nil => exact he
  | cons first _ ih => exact ih (first.coherent hc) (first.exact hc he)

end Store
end Pyramid
