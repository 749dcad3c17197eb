import Mathlib
import Pyramid.Proofs.Grammar.Yield
import Pyramid.Proofs.Text.Pieces

/-!
# What nodes hold

A node *records* a text for a grammar if it is a node of the text and holds its entries and no other
derivations. It is *sound* if it records its text and so does every node that it was combined from,
all the way down. This says nothing of any store: the nodes that a sound node was combined from may
have been overwritten or cleared away since.

Chains of sound nodes spell the prefixes and the suffixes of the text (`Sound.leftChain`,
`Sound.rightChain`), and that is all that combining needs: nodes that record the prefixes beside
nodes that record the suffixes give exactly the entries of the text (`mem_combined`).
-/

namespace Pyramid.Grammar

open Text

/-! ## Lists -/

section Lists

variable {α β γ δ : Type}

theorem forall₂_zip_zip {R : α → γ → Prop} {S : β → δ → Prop} {as : List α} {xs : List γ}
    {bs : List β} {ys : List δ} (h : List.Forall₂ R as xs) (h' : List.Forall₂ S bs ys) :
    List.Forall₂ (fun p q => R p.1 q.1 ∧ S p.2 q.2) (as.zip bs) (xs.zip ys) := by
  induction h generalizing bs ys with
  | nil => exact .nil
  | cons hab _ ih =>
    cases h' with
    | nil => exact .nil
    | cons hcd hrest => exact .cons ⟨hab, hcd⟩ (ih hrest)

theorem mem_flatMap_iff_of_forall₂ {R : α → β → Prop} {as : List α} {bs : List β} {f : β → List γ}
    {x : γ} {F : α → Prop} (h : List.Forall₂ R as bs) (hf : ∀ a b, R a b → (x ∈ f b ↔ F a)) :
    x ∈ bs.flatMap f ↔ ∃ a ∈ as, F a := by
  induction h with
  | nil => simp
  | cons hab _ ih => simp [hf _ _ hab, ih]

/-- Elements that give nothing may be passed over. -/
theorem flatMap_filter_eq {p : α → Bool} {f : α → List β}
    (h : ∀ a x, x ∈ f a → p a = true) (as : List α) : (as.filter p).flatMap f = as.flatMap f := by
  induction as with
  | nil => rfl
  | cons a as ih =>
    cases hp : p a with
    | true => rw [List.filter_cons_of_pos hp, List.flatMap_cons, List.flatMap_cons, ih]
    | false =>
      have hnil : f a = [] := List.eq_nil_iff_forall_not_mem.mpr fun x hx => by
        rw [h a x hx] at hp
        cases hp
      rw [List.filter_cons_of_neg (by simp [hp]), List.flatMap_cons, ih, hnil, List.nil_append]

end Lists

variable {g h : Grammar} {t : Text} {n l r : Node} {stamp : Stamp}

/-! ## Records -/

/-- The node is one of the text, and it holds the entries of the text and no other derivations. -/
structure Records (g : Grammar) (t : Text) (n : Node) : Prop where
  text_eq : n.text = t
  mem_iff : ∀ d, d ∈ n.derivations ↔ g.Entry t d

theorem Records.mem_heads (hn : g.Records t n) {a : Text} : a ∈ n.heads ↔ g.Yields a t := by
  rw [Node.mem_heads, yields_iff_entry]
  simp only [hn.mem_iff]

/-- Two nodes that record one text have the same content. -/
theorem Records.content_eq {m : Node} (hn : g.Records t n) (hm : g.Records t m) :
    (n.text, n.derivations) = (m.text, m.derivations) := by
  have hds : n.derivations = m.derivations := SortedSet.ext_mem fun d => by
    rw [hn.mem_iff, hm.mem_iff]
  rw [hn.text_eq, hm.text_eq, hds]

theorem isDerivable_of_mem_derivationsAt {d : Derivation} (hd : d ∈ g.derivationsAt l r) :
    (l.isDerivable && r.isDerivable) = true := by
  obtain ⟨b, hb, c, hc, -⟩ := mem_derivationsAt.mp hd
  rw [Node.isDerivable_of_mem_heads hb, Node.isDerivable_of_mem_heads hc, Bool.and_true]

/-- What combining gives: chains of one length, and all the derivations at the pairs of their nodes.
The pairs that are passed over have none. -/
theorem combine_eq_ok_iff :
    g.combine l r t stamp = .ok n ↔ l.leftChain.length = r.rightChain.length ∧
      n = .make stamp t (.ofList ((l.leftChain.zip r.rightChain.reverse).flatMap fun (x, y) =>
        g.derivationsAt x y)) (some l) (some r) := by
  unfold Grammar.combine
  simp only [flatMap_filter_eq fun _ _ hd => isDerivable_of_mem_derivationsAt hd]
  by_cases hlen : l.leftChain.length = r.rightChain.length
  · simp [hlen, eq_comm]
  · simp [hlen]

/-- **Nodes for the shorter prefixes, beside nodes for the shorter suffixes read backwards, give the
entries of the text.** -/
theorem mem_combined (hsame : h.SameProductions g) (h2 : 2 ≤ t.length) {ls rs : List Node}
    (hls : List.Forall₂ g.Records (prefixes t.dropLast) ls)
    (hrs : List.Forall₂ g.Records (suffixes t.tail) rs) {d : Derivation} :
    d ∈ (ls.zip rs.reverse).flatMap (fun (x, y) => h.derivationsAt x y) ↔ g.Entry t d := by
  have hpairs := forall₂_zip_zip hls (List.forall₂_reverse_iff.mpr hrs)
  rw [zip_prefixes_suffixes] at hpairs
  rw [mem_flatMap_iff_of_forall₂ (F := fun p => ∃ b c, g.Yields b p.1 ∧ g.Yields c p.2 ∧
    d.production ∈ g.productions ∧ d.production.body = .pair b c ∧ d.offset = p.1.length) hpairs ?_,
    entry_iff_of_two_le h2]
  · constructor
    · rintro ⟨_, hsplit, b, c, hb, hc, hp, hbody, ho⟩
      obtain ⟨j, hj, hj', rfl⟩ := mem_splits.mp hsplit
      rw [List.length_take, Nat.min_eq_left (by omega)] at ho
      exact ⟨j, b, c, hj, hj', hb, hc, hp, hbody, ho⟩
    · rintro ⟨j, b, c, hj, hj', hb, hc, hp, hbody, ho⟩
      refine ⟨_, mem_splits.mpr ⟨j, hj, hj', rfl⟩, b, c, hb, hc, hp, hbody, ?_⟩
      rw [List.length_take, Nat.min_eq_left (by omega)]
      exact ho
  · -- At one split: the variables of the two nodes are those that yield the two halves.
    rintro ⟨u, v⟩ ⟨x, y⟩ ⟨hx, hy⟩
    obtain rfl : x.text = u := hx.text_eq
    simp only [mem_derivationsAt, hx.mem_heads, hy.mem_heads, hsame _]
    constructor
    · rintro ⟨b, hb, c, hc, hrest⟩
      exact ⟨b, c, hb, hc, hrest⟩
    · rintro ⟨b, c, hb, hc, hrest⟩
      exact ⟨b, hb, c, hc, hrest⟩

/-! ## Sound nodes -/

/-- The node records the text, and was combined from nodes that are sound for the text without its
last and without its first character. -/
inductive Sound (g : Grammar) : Text → Node → Prop where
  | single {c : Char} {n : Node} (records : g.Records [c] n) (left : n.left = none)
      (right : n.right = none) : Sound g [c] n
  | combined {t : Text} {n l r : Node} (records : g.Records t n) (two_le : 2 ≤ t.length)
      (left : n.left = some l) (right : n.right = some r) (soundl : Sound g t.dropLast l)
      (soundr : Sound g t.tail r) : Sound g t n

theorem Sound.records (hn : g.Sound t n) : g.Records t n := by
  cases hn with
  | single records => exact records
  | combined records => exact records

theorem Sound.ne_nil (hn : g.Sound t n) : t ≠ [] := by
  cases hn with
  | single => exact List.cons_ne_nil _ _
  | combined _ two_le =>
    rintro rfl
    simp at two_le

theorem Sound.leftChain (hn : g.Sound t n) : List.Forall₂ g.Sound (prefixes t) n.leftChain := by
  induction hn with
  | single records left right =>
    rw [Node.leftChain_eq, left]
    exact .cons (.single records left right) .nil
  | combined records two_le left right soundl soundr ihl =>
    have hn := Sound.combined records two_le left right soundl soundr
    rw [prefixes_eq_cons hn.ne_nil, Node.leftChain_eq, left]
    exact .cons hn ihl

theorem Sound.rightChain (hn : g.Sound t n) : List.Forall₂ g.Sound (suffixes t) n.rightChain := by
  induction hn with
  | single records left right =>
    rw [Node.rightChain_eq, right]
    exact .cons (.single records left right) .nil
  | combined records two_le left right soundl soundr _ ihr =>
    have hn := Sound.combined records two_le left right soundl soundr
    rw [suffixes_eq_cons hn.ne_nil, Node.rightChain_eq, right]
    exact .cons hn ihr

theorem sound_seed (hsame : h.SameProductions g) (c : Char) (stamp : Stamp) :
    g.Sound [c] (h.seed c stamp) := by
  refine .single ⟨rfl, fun d => ?_⟩ rfl rfl
  constructor
  · exact fun hd => (mem_derivationsOf.mp hd).congr hsame
  · exact fun hd => mem_derivationsOf.mpr (hd.congr hsame.symm)

/-- **Two sound neighbours can always be combined, and the node is sound.** -/
theorem exists_sound_combine (hsame : h.SameProductions g) (h2 : 2 ≤ t.length)
    (hl : g.Sound t.dropLast l) (hr : g.Sound t.tail r) (stamp : Stamp) :
    ∃ n, h.combine l r t stamp = .ok n ∧ g.Sound t n := by
  have hlefts := hl.leftChain
  have hrights := hr.rightChain
  have hlen : l.leftChain.length = r.rightChain.length := by
    rw [← hlefts.length_eq, ← hrights.length_eq]
    simp
  refine ⟨_, combine_eq_ok_iff.mpr ⟨hlen, rfl⟩, .combined ⟨rfl, fun d => ?_⟩ h2 rfl rfl hl hr⟩
  exact SortedSet.mem_ofList.trans (mem_combined hsame h2 (hlefts.imp fun _ _ => Sound.records)
    (hrights.imp fun _ _ => Sound.records))

end Pyramid.Grammar
