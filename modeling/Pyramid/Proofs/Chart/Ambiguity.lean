import Mathlib
import Pyramid.Proofs.Chart.Shape
import Pyramid.Proofs.Grammar.ParseTree

/-!
# Ambiguity

A chart has no parse trees. It has the entries of each node, and to read a tree off them one picks
an entry for the variable at the top, then entries for the two variables of its body at the nodes of
the two halves, and so on down. `Store.Offers` describes what can be picked in this way.

* `offers_choice`, `Offers.exists_parseTree`: what can be picked is what the parse trees choose.
* `Exact.nontrivial_parseTree_iff`: a variable has several trees exactly if some node that its
  entries lead to, directly or not, has several entries for the variable that they lead to there.
  The node at the top alone does not tell.
-/

namespace Pyramid

open Text Grammar

/-! ## Entries for a variable -/

namespace Node

variable {n : Node} {a : Text} {d : Derivation}

theorem mem_derivationsFor :
    d ∈ n.derivationsFor a ↔ d ∈ n.derivations ∧ d.production.head = a := by
  rw [derivationsFor, List.mem_mergeSort, List.mem_filter, decide_eq_true_iff, SortedSet.mem_iff]

theorem nodup_derivationsFor (n : Node) (a : Text) : (n.derivationsFor a).Nodup := by
  unfold derivationsFor
  rw [(List.mergeSort_perm _ _).nodup_iff]
  exact n.derivations.nodup_toList.filter _

/-- More than one entry means two different ones, since none is listed twice. -/
theorem isAmbiguousFor_iff :
    n.isAmbiguousFor a = true ↔ ∃ d ∈ n.derivationsFor a, ∃ e ∈ n.derivationsFor a, d ≠ e := by
  rw [isAmbiguousFor, decide_eq_true_iff,
    ← List.toFinset_card_of_nodup (nodup_derivationsFor n a), Finset.one_lt_card]
  simp only [List.mem_toFinset]

end Node

namespace Store

variable {st : Store} {g : Grammar} {a w : Text} {n : Node} {d : Derivation} {x : Choice}

theorem Exact.mem_derivationsFor (he : st.Exact g) (hn : st.get? w = some n) :
    d ∈ n.derivationsFor a ↔ g.Entry w d ∧ d.production.head = a := by
  rw [Node.mem_derivationsFor, he hn]

theorem Exact.exists_parseTree (he : st.Exact g) (hn : st.get? w = some n)
    (hd : d ∈ n.derivationsFor a) : ∃ t : ParseTree g a w, t.choice.entry = d := by
  obtain ⟨hentry, rfl⟩ := (he.mem_derivationsFor hn).mp hd
  exact hentry.exists_parseTree

/-- A coherent store that has a node for a text has nodes for the halves of every cut. -/
theorem Coherent.exists_halves (hc : st.Coherent) (hn : st.get? w = some n) {j : Nat} (hpos : 0 < j)
    (hlt : j < w.length) :
    (∃ l, st.get? (w.take j) = some l) ∧ ∃ r, st.get? (w.drop j) = some r := by
  -- The halves are a prefix and a suffix, and the chains of the node have all of these.
  constructor
  · have hpre : (prefixes w)[w.length - j]? = some (w.take j) := by
      have hlen : w.length - (w.length - j) = j := by omega
      rw [prefixes, List.getElem?_map, List.getElem?_range (by omega), Option.map_some, hlen]
    obtain ⟨l, -, hl⟩ := (hc.leftChain hn).getElem? hpre
    exact ⟨l, hl⟩
  · have hsuf : (suffixes w)[j]? = some (w.drop j) := by
      rw [suffixes, List.getElem?_map, List.getElem?_range hlt, Option.map_some]
    obtain ⟨r, -, hr⟩ := (hc.rightChain hn).getElem? hsuf
    exact ⟨r, hr⟩

/-! ## Complete choices -/

/-- The choice picks one of the entries for the variable at the node of the text and, if that is a
pair, goes on with its two variables at the nodes of the two halves. -/
inductive Offers (st : Store) : Text → Text → Choice → Prop where
  | last {a w x : Text} {n : Node} {d : Derivation} (node : st.get? w = some n)
      (entry : d ∈ n.derivationsFor a) (body : d.production.body = .terminal x) :
      Offers st a w (.last d)
  | split {a b c w : Text} {n : Node} {d : Derivation} {j : Nat} {l r : Choice}
      (node : st.get? w = some n) (entry : d ∈ n.derivationsFor a)
      (body : d.production.body = .pair b c) (offset : d.offset = j)
      (left : Offers st b (w.take j) l) (right : Offers st c (w.drop j) r) :
      Offers st a w (.split d l r)

/-- **What a parse tree chooses is offered.** -/
theorem offers_choice (hc : st.Coherent) (he : st.Exact g) (t : ParseTree g a w)
    (hn : st.get? w = some n) : st.Offers a w t.choice := by
  induction t generalizing n with
  | terminal c rule =>
    have hentry := (ParseTree.terminal c rule).entry_choice
    exact .last hn ((he.mem_derivationsFor hn).mpr hentry) rfl
  | pair b c j pos lt rule left right ihl ihr =>
    have hentry := (ParseTree.pair b c j pos lt rule left right).entry_choice
    obtain ⟨⟨l, hl⟩, r, hr⟩ := hc.exists_halves hn pos lt
    exact .split hn ((he.mem_derivationsFor hn).mpr hentry) rfl rfl (ihl hl) (ihr hr)

/-- **What is offered is what a parse tree chooses.** -/
theorem Offers.exists_parseTree (h : st.Offers a w x) (he : st.Exact g) :
    ∃ t : ParseTree g a w, t.choice = x := by
  induction h with
  | last node entry body =>
    obtain ⟨hd, rfl⟩ := (he.mem_derivationsFor node).mp entry
    exact hd.exists_last body
  | split node entry body offset _ _ ihl ihr =>
    obtain ⟨hd, rfl⟩ := (he.mem_derivationsFor node).mp entry
    obtain ⟨left, rfl⟩ := ihl
    obtain ⟨right, rfl⟩ := ihr
    exact hd.exists_split body offset left right

/-! ## Where entries lead -/

/-- An entry for the variable at the node of the text leads to each of its two variables and the
half of the text that is left to it. -/
inductive Leads (st : Store) : Text × Text → Text × Text → Prop where
  | left {a b c w : Text} {n : Node} {d : Derivation} {j : Nat} (node : st.get? w = some n)
      (entry : d ∈ n.derivationsFor a) (body : d.production.body = .pair b c)
      (offset : d.offset = j) : Leads st (a, w) (b, w.take j)
  | right {a b c w : Text} {n : Node} {d : Derivation} {j : Nat} (node : st.get? w = some n)
      (entry : d ∈ n.derivationsFor a) (body : d.production.body = .pair b c)
      (offset : d.offset = j) : Leads st (a, w) (c, w.drop j)

/-- The store has a node for the text, and it is ambiguous for the variable. -/
def Ambiguous (st : Store) (p : Text × Text) : Prop :=
  ∃ n, st.get? p.2 = some n ∧ n.isAmbiguousFor p.1 = true

variable {p q : Text × Text}

/-- Entries only lead to texts that have a node. -/
theorem Leads.exists_node (h : st.Leads p q) (hc : st.Coherent) (he : st.Exact g) :
    ∃ m, st.get? q.2 = some m := by
  cases h with
  | left node entry body offset =>
    obtain ⟨hd, -⟩ := (he.mem_derivationsFor node).mp entry
    obtain ⟨hpos, hlt, -, -⟩ := hd.cut body offset
    exact (hc.exists_halves node hpos hlt).1
  | right node entry body offset =>
    obtain ⟨hd, -⟩ := (he.mem_derivationsFor node).mp entry
    obtain ⟨hpos, hlt, -, -⟩ := hd.cut body offset
    exact (hc.exists_halves node hpos hlt).2

theorem exists_node_of_leads (hc : st.Coherent) (he : st.Exact g) (hn : st.get? p.2 = some n)
    (h : Relation.ReflTransGen st.Leads p q) : ∃ m, st.get? q.2 = some m := by
  cases h with
  | refl => exact ⟨n, hn⟩
  | tail _ last => exact last.exists_node hc he

/-! ## One tree or several -/

/-- Two entries at a node are the first steps of two trees. -/
theorem Exact.nontrivial_of_ambiguous (he : st.Exact g) (h : st.Ambiguous p) :
    Nontrivial (ParseTree g p.1 p.2) := by
  obtain ⟨n, hn, hamb⟩ := h
  obtain ⟨d, hd, e, hd', hne⟩ := Node.isAmbiguousFor_iff.mp hamb
  obtain ⟨t, rfl⟩ := he.exists_parseTree hn hd
  obtain ⟨t', rfl⟩ := he.exists_parseTree hn hd'
  refine ⟨t, t', ?_⟩
  rintro rfl
  exact hne rfl

/-- Two trees for a half make two trees for the whole. -/
theorem Leads.nontrivial (h : st.Leads p q) (he : st.Exact g)
    (hq : Nontrivial (ParseTree g q.1 q.2)) : Nontrivial (ParseTree g p.1 p.2) := by
  obtain ⟨s, s', hne⟩ := hq
  cases h with
  | left node entry body offset =>
    obtain ⟨hd, rfl⟩ := (he.mem_derivationsFor node).mp entry
    obtain ⟨-, -, -, hright⟩ := hd.cut body offset
    obtain ⟨r⟩ := nonempty_parseTree_iff.mpr hright
    obtain ⟨t, ht⟩ := hd.exists_split body offset s r
    obtain ⟨t', ht'⟩ := hd.exists_split body offset s' r
    refine ⟨t, t', ?_⟩
    rintro rfl
    rw [ht, Choice.split.injEq] at ht'
    exact hne (ParseTree.choice_injective ht'.2.1)
  | right node entry body offset =>
    obtain ⟨hd, rfl⟩ := (he.mem_derivationsFor node).mp entry
    obtain ⟨-, -, hleft, -⟩ := hd.cut body offset
    obtain ⟨l⟩ := nonempty_parseTree_iff.mpr hleft
    obtain ⟨t, ht⟩ := hd.exists_split body offset l s
    obtain ⟨t', ht'⟩ := hd.exists_split body offset l s'
    refine ⟨t, t', ?_⟩
    rintro rfl
    rw [ht, Choice.split.injEq] at ht'
    exact hne (ParseTree.choice_injective ht'.2.2)

theorem Exact.nontrivial_of_leads (he : st.Exact g) (h : Relation.ReflTransGen st.Leads p q)
    (hq : st.Ambiguous q) : Nontrivial (ParseTree g p.1 p.2) := by
  induction h using Relation.ReflTransGen.head_induction_on with
  | refl => exact he.nontrivial_of_ambiguous hq
  | head first _ ih => exact first.nontrivial he ih

/-- Where no entry leads to an ambiguous node, there is one tree at most. -/
theorem Exact.parseTree_unique (he : st.Exact g) (hc : st.Coherent) (t t' : ParseTree g a w)
    (hn : st.get? w = some n)
    (hall : ∀ q, Relation.ReflTransGen st.Leads (a, w) q → ¬ st.Ambiguous q) : t = t' := by
  induction t generalizing n with
  | terminal c rule =>
    cases t' with
    | terminal => rfl
    | pair _ _ j pos lt =>
      rw [List.length_singleton] at lt
      omega
  | @pair a w b c j pos lt rule left right ihl ihr =>
    have hentry := (ParseTree.pair b c j pos lt rule left right).entry_choice
    have hmem := (he.mem_derivationsFor hn).mpr hentry
    have hmem' := (he.mem_derivationsFor hn).mpr t'.entry_choice
    -- The node has one entry for the variable at most, so both trees begin with it.
    have hsame : (ParseTree.pair b c j pos lt rule left right).choice.entry = t'.choice.entry := by
      by_contra hne
      exact hall _ .refl ⟨n, hn, Node.isAmbiguousFor_iff.mpr ⟨_, hmem, _, hmem', hne⟩⟩
    cases t' with
    | terminal =>
      rw [List.length_singleton] at lt
      omega
    | pair b' c' j' pos' lt' rule' left' right' =>
      obtain ⟨rfl, rfl, rfl⟩ := rule.pair_inj rule' hsame
      have hl : st.Leads (a, w) (b, w.take j) := .left hn hmem rfl rfl
      have hr : st.Leads (a, w) (c, w.drop j) := .right hn hmem rfl rfl
      obtain ⟨l, hgetl⟩ := hl.exists_node hc he
      obtain ⟨r, hgetr⟩ := hr.exists_node hc he
      rw [ihl left' hgetl fun q hq => hall q (.head hl hq),
        ihr right' hgetr fun q hq => hall q (.head hr hq)]

/-- **A variable has several trees for a text exactly if its entries lead to an ambiguous node.** -/
theorem Exact.nontrivial_parseTree_iff (he : st.Exact g) (hc : st.Coherent)
    (hn : st.get? w = some n) :
    Nontrivial (ParseTree g a w) ↔
      ∃ q, Relation.ReflTransGen st.Leads (a, w) q ∧ st.Ambiguous q := by
  constructor
  · rintro ⟨t, t', hne⟩
    by_contra hnone
    push Not at hnone
    exact hne (he.parseTree_unique hc t t' hn hnone)
  · rintro ⟨q, hlead, hamb⟩
    exact he.nontrivial_of_leads hlead hamb

end Store

/-! ## Deriving a word -/

namespace Solver

/-- **The entries of a chart are its parse trees.** Whatever solvers with the same productions have
left in the store, deriving a word gives the node that the store now has for it, unless the journal
is refused an entry.

No node of the store lists an entry twice, and each entry is the first step of a tree. For every
variable, the parse trees of the word correspond one to one to the choices that the store offers.
There is more than one if the node of the word is ambiguous for the variable, and exactly if its
entries lead, in no or more steps, to a node that is ambiguous. -/
theorem derive_parseTrees {g : Grammar} {s : Solver} {b : Bench} {word : Text}
    (hs : s.grammar.SameProductions g) (hb : b.store.Reachable (·.SameProductions g))
    (hw : word ≠ []) (hlog : ∀ e, (s.derive word b).1 ≠ .error (.disk e)) :
    ∃ n st, (s.derive word b).1 = .ok n ∧ (s.derive word b).2.store = st ∧
      st.get? word = some n ∧
      (∀ t m, st.get? t = some m → ∀ a, (m.derivationsFor a).Nodup ∧
        ∀ d ∈ m.derivationsFor a, ∃ tree : ParseTree g a t, tree.choice.entry = d) ∧
      ∀ a,
        Set.BijOn ParseTree.choice (Set.univ : Set (ParseTree g a word)) {x | st.Offers a word x} ∧
        (n.isAmbiguousFor a = true → Nontrivial (ParseTree g a word)) ∧
        (Nontrivial (ParseTree g a word) ↔
          ∃ q, Relation.ReflTransGen st.Leads (a, word) q ∧ st.Ambiguous q) ∧
        ∀ q, Relation.ReflTransGen st.Leads (a, word) q → ∃ m, st.get? q.2 = some m := by
  have hderive := delivers_derive (P := (·.SameProductions g)) hs hb.coherent hw
  obtain ⟨ts, n, hok, hreq, -, hn⟩ := hderive.exists_ok hlog
  have hc := hreq.coherent hb.coherent
  have he := hreq.exact hb.coherent hb.exact
  refine ⟨n, _, hok, rfl, hn, ?_, fun a => ⟨⟨?_, ?_, ?_⟩, ?_, ?_, ?_⟩⟩
  · intro t m hm a
    exact ⟨m.nodup_derivationsFor a, fun d hd => he.exists_parseTree hm hd⟩
  · exact fun tree _ => Store.offers_choice hc he tree hn
  · exact ParseTree.choice_injective.injOn
  · intro x hx
    obtain ⟨tree, rfl⟩ := Store.Offers.exists_parseTree hx he
    exact ⟨tree, Set.mem_univ tree, rfl⟩
  · exact fun hamb => he.nontrivial_of_ambiguous (p := (a, word)) ⟨n, hn, hamb⟩
  · exact he.nontrivial_parseTree_iff hc hn
  · exact fun q hq => Store.exists_node_of_leads hc he hn hq

/-- In a store that another word has filled, the node of `baaa` has one entry for `T`: a `B`, and an
`S` for the rest. That the word has several trees shows at the node of `aaa`. -/
theorem derive_parseTrees_below :
    let t : Production := ⟨"T", .pair "B" "S", by decide, by decide⟩
    let g := Grammar.ofProductions [t, ⟨"S", .pair "S" "S", by decide, by decide⟩,
      ⟨"S", .terminal "a", by decide, by decide⟩, ⟨"B", .terminal "b", by decide, by decide⟩]
    ∃ n, ((quiet g).derive "baaa" ((quiet g).solve "aab" .first).2).1 = .ok n ∧
      n.derivationsFor "T" = [⟨t, 1⟩] ∧ Nontrivial (ParseTree g "T" "baaa") := by
  intro t g
  have hb : ((quiet g).solve "aab" .first).2.store.Reachable (·.SameProductions g) :=
    .solve (b := .first) (.new 1 false) _ (.refl _) _
  have hok : ((quiet g).derive "baaa" ((quiet g).solve "aab" .first).2).1.isOk = true := by
    decide +kernel
  have hbaaa : ((quiet g).derive "baaa" ((quiet g).solve "aab" .first).2).1.toOption.map
      (·.derivationsFor "T") = some [⟨t, 1⟩] := by decide +kernel
  have haaa : (((quiet g).derive "baaa" ((quiet g).solve "aab" .first).2).2.store.get? "aaa").any
      (fun m => 1 < (m.derivations.toList.filter (·.production.head = ("S" : Text))).length)
      = true := by
    decide +kernel
  obtain ⟨n, st, hn, hst, hget, -, htrees⟩ := derive_parseTrees (s := quiet g) (.refl g) hb
    (show ("baaa" : Text) ≠ [] by decide) (fun _ => Act.ne_error_of_isOk hok _)
  rw [hn] at hbaaa
  rw [hst] at haaa
  have hone : n.derivationsFor "T" = [⟨t, 1⟩] := Option.some.inj hbaaa
  obtain ⟨m, hm, htwo⟩ := Option.any_eq_true _ _ |>.mp haaa
  have hamb : m.isAmbiguousFor "S" = true := by
    rw [Node.isAmbiguousFor, Node.derivationsFor, List.length_mergeSort]
    exact htwo
  have hlead : st.Leads ("T", "baaa") ("S", "aaa") :=
    .right hget (hone ▸ List.mem_singleton_self _) rfl rfl
  obtain ⟨-, -, hiff, -⟩ := htrees "T"
  exact ⟨n, hn, hone, hiff.mpr ⟨_, .single hlead, m, hm, hamb⟩⟩

end Solver
end Pyramid
