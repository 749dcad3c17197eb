import Mathlib
import Pyramid.Chart.Solver

/-!
# What a variable yields

`Grammar.Yields g a t` says that the variable `a` derives the text `t`, by recursion on the shape of
the derivation and without a chart. `Grammar.Entry g t d` says that `d` is the first step of such a
derivation: it is what the node of `t` ought to hold.

Both grow with the set of productions (`Yields.mono`, `Entry.mono`), so neither depends on the order
of the productions or on repetitions among them (`Grammar.SameProductions`).

The second half is about the look-ups that the chart makes: `mem_derivationsOf` for one character
and `mem_derivationsAt` for the two halves of a split. Both find all the productions that they
should and no others.
-/

namespace Pyramid.Grammar

open Text

variable {g h : Grammar}

/-! ## Rules -/

/-- Is there a production with this head and this body? -/
def HasRule (g : Grammar) (a : Text) (body : Body) : Prop :=
  ∃ p ∈ g.productions, p.head = a ∧ p.body = body

/-- Two grammars with the same set of productions, in whatever order and however often. -/
def SameProductions (g h : Grammar) : Prop := ∀ p, p ∈ g.productions ↔ p ∈ h.productions

theorem SameProductions.refl (g : Grammar) : SameProductions g g := fun _ => Iff.rfl

theorem SameProductions.symm (e : SameProductions g h) : SameProductions h g := fun p => (e p).symm

theorem SameProductions.subset (e : SameProductions g h) : g.productions ⊆ h.productions :=
  fun p => (e p).mp

theorem HasRule.mono (hsub : g.productions ⊆ h.productions) {a : Text} {body : Body}
    (hr : g.HasRule a body) : h.HasRule a body := by
  obtain ⟨p, hp, ha, hb⟩ := hr
  exact ⟨p, hsub hp, ha, hb⟩

/-! ## Yields -/

/-- The variable derives the text. -/
inductive Yields (g : Grammar) : Text → Text → Prop where
  /-- A one-symbol body yields its symbol, if that is a single character. -/
  | terminal {a : Text} {c : Char} (rule : g.HasRule a (.terminal [c])) : Yields g a [c]
  /-- A pair yields what its two variables yield, one after the other. -/
  | pair {a b c u v : Text} (rule : g.HasRule a (.pair b c)) (left : Yields g b u)
      (right : Yields g c v) : Yields g a (u ++ v)

/-- No variable yields the empty text. -/
theorem Yields.ne_nil {a t : Text} (hy : g.Yields a t) : t ≠ [] := by
  induction hy with
  | terminal => exact List.cons_ne_nil _ _
  | pair _ _ _ hu _ => exact List.append_ne_nil_of_left_ne_nil hu _

/-- A variable yields a text by one of its rules. -/
theorem yields_iff {a t : Text} :
    g.Yields a t ↔ (∃ c, g.HasRule a (.terminal [c]) ∧ t = [c]) ∨
      ∃ b c u v, g.HasRule a (.pair b c) ∧ g.Yields b u ∧ g.Yields c v ∧ t = u ++ v := by
  constructor
  · intro hy
    cases hy with
    | terminal rule => exact .inl ⟨_, rule, rfl⟩
    | pair rule left right => exact .inr ⟨_, _, _, _, rule, left, right, rfl⟩
  · rintro (⟨c, rule, rfl⟩ | ⟨b, c, u, v, rule, left, right, rfl⟩)
    · exact .terminal rule
    · exact .pair rule left right

/-- With more productions a variable yields no less. -/
theorem Yields.mono (hsub : g.productions ⊆ h.productions) {a t : Text} (hy : g.Yields a t) :
    h.Yields a t := by
  induction hy with
  | terminal rule => exact .terminal (rule.mono hsub)
  | pair rule _ _ hu hv => exact .pair (rule.mono hsub) hu hv

theorem Yields.congr (e : SameProductions g h) {a t : Text} (hy : g.Yields a t) : h.Yields a t :=
  hy.mono e.subset

/-! ## Entries -/

/-- The derivation is the first step of a derivation of the text. -/
inductive Entry (g : Grammar) : Text → Derivation → Prop where
  | terminal {p : Production} {c : Char} (mem : p ∈ g.productions) (body : p.body = .terminal [c]) :
      Entry g [c] ⟨p, 0⟩
  | pair {p : Production} {b c u v : Text} (mem : p ∈ g.productions) (body : p.body = .pair b c)
      (left : g.Yields b u) (right : g.Yields c v) : Entry g (u ++ v) ⟨p, u.length⟩

/-- With more productions a text has no fewer entries. -/
theorem Entry.mono (hsub : g.productions ⊆ h.productions) {t : Text} {d : Derivation}
    (hd : g.Entry t d) : h.Entry t d := by
  cases hd with
  | terminal mem body => exact .terminal (hsub mem) body
  | pair mem body left right => exact .pair (hsub mem) body (left.mono hsub) (right.mono hsub)

theorem Entry.congr (e : SameProductions g h) {t : Text} {d : Derivation} (hd : g.Entry t d) :
    h.Entry t d := hd.mono e.subset

/-- A variable yields a text exactly when some entry of the text starts from it. -/
theorem yields_iff_entry {a t : Text} :
    g.Yields a t ↔ ∃ d, g.Entry t d ∧ d.production.head = a := by
  constructor
  · intro hy
    cases hy with
    | terminal rule =>
      obtain ⟨p, hp, ha, hb⟩ := rule
      exact ⟨_, .terminal hp hb, ha⟩
    | pair rule left right =>
      obtain ⟨p, hp, ha, hb⟩ := rule
      exact ⟨_, .pair hp hb left right, ha⟩
  · rintro ⟨d, hd, rfl⟩
    cases hd with
    | terminal mem body => exact .terminal ⟨_, mem, rfl, body⟩
    | pair mem body left right => exact .pair ⟨_, mem, rfl, body⟩ left right

/-- The entries of a single character are the one-symbol productions for it. -/
theorem entry_singleton_iff {c : Char} {d : Derivation} :
    g.Entry [c] d ↔
      d.production ∈ g.productions ∧ d.production.body = .terminal [c] ∧ d.offset = 0 := by
  constructor
  · intro hd
    generalize ht : [c] = t at hd
    cases hd with
    | terminal mem body =>
      obtain rfl : c = _ := by simpa using ht
      exact ⟨mem, body, rfl⟩
    | pair mem body left right =>
      -- Both halves would have to be there, and a single character has only one.
      rcases List.append_eq_singleton_iff.mp ht.symm with ⟨hu, _⟩ | ⟨_, hv⟩
      · exact absurd hu left.ne_nil
      · exact absurd hv right.ne_nil
  · rintro ⟨mem, body, ho⟩
    obtain ⟨p, o⟩ := d
    obtain rfl : o = 0 := ho
    exact .terminal mem body

theorem yields_singleton_iff {a : Text} {c : Char} :
    g.Yields a [c] ↔ g.HasRule a (.terminal [c]) := by
  constructor
  · intro hy
    obtain ⟨d, hd, ha⟩ := yields_iff_entry.mp hy
    obtain ⟨mem, body, -⟩ := entry_singleton_iff.mp hd
    exact ⟨d.production, mem, ha, body⟩
  · exact .terminal

/-- The entries of a longer text are the pairs over one of its splits. -/
theorem entry_iff_of_two_le {t : Text} (ht : 2 ≤ t.length) {d : Derivation} :
    g.Entry t d ↔ ∃ (j : Nat) (b c : Text), 1 ≤ j ∧ j < t.length ∧ g.Yields b (t.take j) ∧
      g.Yields c (t.drop j) ∧ d.production ∈ g.productions ∧ d.production.body = .pair b c ∧
      d.offset = j := by
  constructor
  · intro hd
    cases hd with
    | terminal => simp at ht
    | @pair p b c u v mem body left right =>
      have hu : 0 < u.length := List.length_pos_iff.mpr left.ne_nil
      have hv : 0 < v.length := List.length_pos_iff.mpr right.ne_nil
      refine ⟨u.length, b, c, hu, ?_, ?_, ?_, mem, body, rfl⟩
      · rw [List.length_append]
        omega
      · rwa [List.take_left]
      · rwa [List.drop_left]
  · rintro ⟨j, b, c, -, hj, left, right, mem, body, ho⟩
    have hd := Entry.pair mem body left right
    have hlen : (t.take j).length = j := by
      rw [List.length_take]
      omega
    rw [List.take_append_drop, hlen, ← ho] at hd
    exact hd

theorem yields_iff_of_two_le {a t : Text} (ht : 2 ≤ t.length) :
    g.Yields a t ↔ ∃ j b c, 1 ≤ j ∧ j < t.length ∧ g.HasRule a (.pair b c) ∧
      g.Yields b (t.take j) ∧ g.Yields c (t.drop j) := by
  constructor
  · intro hy
    obtain ⟨d, hd, ha⟩ := yields_iff_entry.mp hy
    obtain ⟨j, b, c, hj, hj', left, right, mem, body, -⟩ := (entry_iff_of_two_le ht).mp hd
    exact ⟨j, b, c, hj, hj', ⟨d.production, mem, ha, body⟩, left, right⟩
  · rintro ⟨j, b, c, -, -, rule, left, right⟩
    have hy := Yields.pair rule left right
    rwa [List.take_append_drop] at hy

/-! ## Look-ups of the chart -/

/-- Two texts with a space between them are the key of one body only, whatever texts they are: a key
holds no other space than the one between two symbols. -/
theorem key_eq_pair_iff {p : Production} {b c : Text} :
    p.key = join " " [b, c] ↔ p.body = .pair b c := by
  have hkey : join " " [b, c] = b ++ ' ' :: c := by simp
  have hspace : ∀ s ∈ p.body.symbols, ' ' ∉ s := fun s hs => (p.body_symbols s hs).2.1
  rw [hkey]
  unfold Production.key
  cases hb : p.body with
  | terminal a =>
    have hne : a ≠ b ++ ' ' :: c := by
      intro he
      exact hspace a (by simp [hb, Body.symbols]) (by simp [he])
    simpa using hne
  | pair b' c' =>
    have hb' : ' ' ∉ b' := hspace b' (by simp [hb, Body.symbols])
    have hc' : ' ' ∉ c' := hspace c' (by simp [hb, Body.symbols])
    rw [Body.key_pair, List.append_cons_inj_of_notMem hb' hc', Body.pair.injEq]
    simp

theorem mem_withBody_pair {p : Production} {b c : Text} :
    p ∈ g.withBody (.symbols [b, c]) ↔ p ∈ g.productions ∧ p.body = .pair b c := by
  rw [withBody, mem_lookup, BodyName.key, key_eq_pair_iff]

/-- No body has an empty key. -/
theorem key_ne_nil (p : Production) : p.key ≠ [] := by
  have hs := p.body_symbols
  unfold Production.key
  cases hb : p.body with
  | terminal a =>
    rw [Body.key_terminal]
    exact (hs a (by simp [hb, Body.symbols])).1
  | pair b c => simp

/-- The key of a single character that is not a space is the key of one body only. -/
theorem key_eq_singleton_iff {p : Production} {c : Char} (hc : c ≠ ' ') :
    p.key = [c] ↔ p.body = .terminal [c] := by
  unfold Production.key
  cases hb : p.body with
  | terminal a => simp
  | pair b d =>
    have hne : b ++ ' ' :: d ≠ [c] := by
      intro he
      have hmem : ' ' ∈ [c] := he ▸ by simp
      exact hc (List.mem_singleton.mp hmem).symm
    simpa using hne

theorem mem_withBody_char {p : Production} {c : Char} :
    p ∈ g.withBody (.text [c]) ↔ p ∈ g.productions ∧ p.body = .terminal [c] := by
  rw [withBody, mem_lookup]
  by_cases hc : c = ' '
  · -- A space by itself names no body, and no symbol is a space.
    subst hc
    have hname : (BodyName.text [' ']).key = [] := by decide
    rw [hname]
    constructor
    · rintro ⟨_, hk⟩
      exact absurd hk (key_ne_nil p)
    · rintro ⟨_, hb⟩
      have hs : IsSymbol [' '] := p.body_symbols [' '] (by simp [hb, Body.symbols])
      exact absurd (by simp) hs.2.1
  · have hname : (BodyName.text [c]).key = [c] := by
      simp [BodyName.key, Ne.symm hc]
    rw [hname, key_eq_singleton_iff hc]

/-- **The derivations of a character are its entries.** -/
theorem mem_derivationsOf {c : Char} {d : Derivation} :
    d ∈ g.derivationsOf c ↔ g.Entry [c] d := by
  simp only [derivationsOf, SortedSet.mem_ofList, List.mem_map, ← SortedSet.mem_iff,
    mem_withBody_char, entry_singleton_iff]
  constructor
  · rintro ⟨p, ⟨hp, hb⟩, rfl⟩
    exact ⟨hp, hb, rfl⟩
  · rintro ⟨hp, hb, ho⟩
    exact ⟨d.production, ⟨hp, hb⟩, Derivation.ext rfl ho.symm⟩

/-- **The derivations at a split are the pairs of variables of its halves.** -/
theorem mem_derivationsAt {l r : Node} {d : Derivation} :
    d ∈ g.derivationsAt l r ↔ ∃ b ∈ l.heads, ∃ c ∈ r.heads,
      d.production ∈ g.productions ∧ d.production.body = .pair b c ∧ d.offset = l.text.length := by
  simp only [derivationsAt, List.mem_flatMap, List.mem_map, ← SortedSet.mem_iff, mem_withBody_pair]
  constructor
  · rintro ⟨b, hb, c, hc, p, ⟨hp, hpair⟩, rfl⟩
    exact ⟨b, hb, c, hc, hp, hpair, rfl⟩
  · rintro ⟨b, hb, c, hc, hp, hpair, ho⟩
    exact ⟨b, hb, c, hc, d.production, ⟨hp, hpair⟩, Derivation.ext rfl ho.symm⟩

end Pyramid.Grammar
