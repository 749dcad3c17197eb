import Mathlib
import Pyramid.Proofs.Grammar.Yield
import Pyramid.Proofs.Text.Padding

/-!
# Looking up a body

The productions with a body are found by going through the list (`Grammar.scan`), or in the table
under the key of the body. In the table pairs and terminals stand side by side under joined texts;
still no look-up that the chart makes finds too much or too little (`withBody_exact`).

A body can be named by its symbols or by one text. Its symbols always lead to its own key
(`withBody_symbols`). One text is cut at blanks of any kind if it holds a space, while a production
is cut at spaces only. So the key of a pair, given as one text, leads back to the pair if its
symbols are names; if one of them holds a blank, the text falls into three fields or more, and there
is no such body (`withBody_text_key`).
-/

namespace Pyramid

open Text

/-! ## Symbols with a blank inside -/

theorem IsName.fields_eq {t : Text} (h : IsName t) : fields t = [t] := fields_eq_singleton h.1 h.2

/-- A symbol that is no name falls into two fields at least. -/
theorem IsSymbol.two_le_length_fields {t : Text} (h : IsSymbol t) (hname : ¬ IsName t) :
    2 ≤ (fields t).length := by
  obtain ⟨hne, -, htrimmed⟩ := h
  obtain ⟨c, hc, hblank⟩ : ∃ c ∈ t, isBlank c = true := by
    by_contra hno
    refine hname ⟨hne, fun c hc => ?_⟩
    by_contra hblank
    exact hno ⟨c, hc, by simpa using hblank⟩
  exact Text.two_le_length_fields htrimmed hc hblank

theorem IsSymbol.length_fields_pos {t : Text} (h : IsSymbol t) : 0 < (fields t).length := by
  by_cases hname : IsName t
  · rw [hname.fields_eq]
    exact Nat.one_pos
  · have := h.two_le_length_fields hname
    omega

/-- A body that is found by its key: one terminal, or two symbols without blanks. -/
def Body.IsPlain (b : Body) : Prop := b.isTerminal = true ∨ ∀ s ∈ b.symbols, IsName s

instance (b : Body) : Decidable b.IsPlain := inferInstanceAs (Decidable (_ ∨ _))

theorem Body.isPlain_terminal (a : Text) : (terminal a).IsPlain := .inl rfl

theorem Body.isPlain_pair_iff {b c : Text} : (pair b c).IsPlain ↔ IsName b ∧ IsName c := by
  unfold IsPlain
  simp [isTerminal, symbols]

namespace Grammar

variable {g : Grammar} {p q : Production}

/-! ## Going through the list -/

/-- The productions with a body, found by going through all of them. -/
def scan (g : Grammar) (body : Body) : SortedSet Production :=
  .ofList (g.productions.filter (·.body = body))

theorem mem_scan {body : Body} : p ∈ g.scan body ↔ p ∈ g.productions ∧ p.body = body := by
  unfold scan
  rw [SortedSet.mem_ofList, List.mem_filter, decide_eq_true_eq]

theorem key_eq_iff : q.key = p.key ↔ q.body = p.body := by
  constructor
  · exact Production.body_eq_of_key q.body_symbols p.body_symbols
  · intro h
    unfold Production.key
    rw [h]

/-- **The table leads from the key of a body to what going through the list finds.** -/
theorem lookup_key (g : Grammar) (p : Production) : g.lookup p.key = g.scan p.body :=
  SortedSet.ext_mem fun q => by rw [mem_lookup, mem_scan, key_eq_iff]

theorem withBody_symbols (g : Grammar) (p : Production) :
    g.withBody (.symbols p.body.symbols) = g.scan p.body := g.lookup_key p

/-! ## Keys as names -/

theorem count_space_key (p : Production) : p.key.count ' ' = p.body.symbols.length - 1 :=
  count_join fun s hs => (p.body_symbols s hs).2.1

/-- There is no body of more than two fields. -/
theorem lookup_join_eq_empty (g : Grammar) {parts : List Text} (hparts : ∀ s ∈ parts, ' ' ∉ s)
    (hlen : 3 ≤ parts.length) : g.lookup (join " " parts) = ∅ := by
  have hnone : ∀ q, q ∉ g.lookup (join " " parts) := by
    intro q hq
    obtain ⟨-, hkey⟩ := mem_lookup.mp hq
    have hcount : (join " " parts).count ' ' = parts.length - 1 := count_join hparts
    have hsize : q.body.symbols.length ≤ 2 := by cases q.body <;> simp [Body.symbols]
    rw [← hkey, count_space_key] at hcount
    omega
  exact SortedSet.eq_empty_of_forall_not_mem hnone

/-- A text without a space is one symbol, whatever blanks it holds. -/
theorem key_text_of_not_mem {t : Text} (h : ' ' ∉ t) : (BodyName.text t).key = t := if_neg h

/-- Two symbols with a space between them are cut at their own blanks as well. -/
theorem key_text_pair (b c : Text) :
    (BodyName.text (b ++ ' ' :: c)).key = join " " (fields b ++ fields c) := by
  have hspace : ' ' ∈ b ++ ' ' :: c := by simp
  rw [← fields_append_cons isBlank_space]
  exact if_pos hspace

theorem lookup_fields_pair (g : Grammar) {b c : Text} (hb : IsSymbol b) (hc : IsSymbol c) :
    g.lookup (join " " (fields b ++ fields c))
      = if IsName b ∧ IsName c then g.lookup (join " " [b, c]) else ∅ := by
  by_cases hnames : IsName b ∧ IsName c
  · rw [if_pos hnames, hnames.1.fields_eq, hnames.2.fields_eq]
    rfl
  · rw [if_neg hnames]
    refine g.lookup_join_eq_empty (fun s hs hspace => ?_) ?_
    · have hblank : isBlank ' ' = false := by
        rcases List.mem_append.mp hs with hs | hs
        · exact not_isBlank_of_mem_fields hs hspace
        · exact not_isBlank_of_mem_fields hs hspace
      exact absurd hblank (by decide)
    · have hposb := hb.length_fields_pos
      have hposc := hc.length_fields_pos
      rw [List.length_append]
      rcases not_and_or.mp hnames with hname | hname
      · have := hb.two_le_length_fields hname
        omega
      · have := hc.two_le_length_fields hname
        omega

/-- **What the key of a production finds when it is given as one text.** -/
theorem withBody_text_key (g : Grammar) (p : Production) :
    g.withBody (.text p.key) = if p.body.IsPlain then g.scan p.body else ∅ := by
  have hsymbols := p.body_symbols
  rw [← g.lookup_key p]
  unfold withBody Production.key
  cases hb : p.body with
  | terminal a =>
    have hspace : ' ' ∉ a := (hsymbols a (by simp [hb, Body.symbols])).2.1
    rw [if_pos (Body.isPlain_terminal a), Body.key_terminal, key_text_of_not_mem hspace]
  | pair b c =>
    have hsb : IsSymbol b := hsymbols b (by simp [hb, Body.symbols])
    have hsc : IsSymbol c := hsymbols c (by simp [hb, Body.symbols])
    rw [Body.key_pair, key_text_pair, g.lookup_fields_pair hsb hsc]
    simp [Body.isPlain_pair_iff]

/-- **Three ways to find the productions with the body of a listed one.** Naming the body by its
symbols finds what going through the list finds, the production itself among it. Naming it by its
key finds the same if the body is one terminal or its symbols are names, and nothing at all
otherwise. -/
theorem withBody_of_mem (hp : p ∈ g.productions) :
    g.withBody (.symbols p.body.symbols) = g.scan p.body ∧ p ∈ g.scan p.body ∧
      g.withBody (.text p.key) = if p.body.IsPlain then g.scan p.body else ∅ :=
  ⟨g.withBody_symbols p, mem_scan.mpr ⟨hp, rfl⟩, g.withBody_text_key p⟩

/-- Two pairs and a terminal; a pair and the terminal have a tab inside a symbol. -/
def tabbed : Grammar :=
  .ofProductions [⟨"P", .pair "Q" "R", by decide, by decide⟩,
    ⟨"P", .pair "Q\tR" "T", by decide, by decide⟩, ⟨"P", .terminal "q\tr", by decide, by decide⟩]

/-- The key of the pair with a tab inside finds nothing; the two others are found by their keys. -/
theorem withBody_of_mem_tabbed :
    (∃ p ∈ tabbed.productions, p.key = "Q R" ∧ p ∈ tabbed.withBody (.text p.key)) ∧
    (∃ p ∈ tabbed.productions, p.key = "Q\tR T" ∧
      p ∈ tabbed.withBody (.symbols p.body.symbols) ∧ tabbed.withBody (.text p.key) = ∅) ∧
    ∃ p ∈ tabbed.productions, p.key = "q\tr" ∧ p ∈ tabbed.withBody (.text p.key) := by
  refine ⟨⟨_, .head _, by decide, ?_⟩, ⟨_, .tail _ (.head _), by decide, ?_⟩,
    _, .tail _ (.tail _ (.head _)), by decide, ?_⟩
  · obtain ⟨-, hmem, hkey⟩ := withBody_of_mem (g := tabbed) (.head _)
    rw [hkey, if_pos (by decide)]
    exact hmem
  · obtain ⟨hsymbols, hmem, hkey⟩ := withBody_of_mem (g := tabbed) (.tail _ (.head _))
    rw [hsymbols, hkey, if_neg (by decide)]
    exact ⟨hmem, rfl⟩
  · obtain ⟨-, hmem, hkey⟩ := withBody_of_mem (g := tabbed) (.tail _ (.tail _ (.head _)))
    rw [hkey, if_pos (by decide)]
    exact hmem

/-! ## The look-ups of the chart -/

theorem withBody_blank_eq_empty {c : Char} (hc : isBlank c = true) :
    g.withBody (.text [c]) = ∅ := by
  have hnone : ∀ q, q ∉ g.withBody (.text [c]) := by
    intro q hq
    obtain ⟨-, hbody⟩ := mem_withBody_char.mp hq
    have hsymbol : IsSymbol [c] := q.body_symbols [c] (by simp [hbody, Body.symbols])
    have hfalse := hsymbol.2.2.1 c rfl
    rw [hc] at hfalse
    cases hfalse
  exact SortedSet.eq_empty_of_forall_not_mem hnone

/-- **The look-ups of the chart are exact.** Two symbols find the listed productions whose body is
that pair, and no one-symbol body; and this holds of any two texts. A character finds the listed
productions whose body is that one symbol, and no pair; a blank finds nothing. -/
theorem withBody_exact (ps : List Production) :
    (∀ x y : Text,
      (∀ p, p ∈ (ofProductions ps).withBody (.symbols [x, y]) ↔ p ∈ ps ∧ p.body = .pair x y) ∧
      ∀ p ∈ (ofProductions ps).withBody (.symbols [x, y]), p.body.isTerminal = false) ∧
    ∀ c : Char,
      (∀ p, p ∈ (ofProductions ps).withBody (.text [c]) ↔ p ∈ ps ∧ p.body = .terminal [c]) ∧
      (∀ p ∈ (ofProductions ps).withBody (.text [c]), p.body.isTerminal = true) ∧
      (isBlank c = true → (ofProductions ps).withBody (.text [c]) = ∅) := by
  refine ⟨fun x y => ⟨fun p => mem_withBody_pair, fun p hp => ?_⟩,
    fun c => ⟨fun p => mem_withBody_char, fun p hp => ?_, withBody_blank_eq_empty⟩⟩
  · rw [(mem_withBody_pair.mp hp).2]
    rfl
  · rw [(mem_withBody_char.mp hp).2]
    rfl

/-- In a list with repetitions, a pair with a tab inside is found by its symbols, and a tab by
itself finds nothing. -/
theorem withBody_exact_repeated :
    let ps := tabbed.productions ++ tabbed.productions
    (∃ p ∈ (ofProductions ps).withBody (.symbols ["Q\tR", "T"]), p.body.isTerminal = false) ∧
      (ofProductions ps).withBody (.text ['\t']) = ∅ := by
  intro ps
  obtain ⟨hpairs, hchars⟩ := withBody_exact ps
  obtain ⟨hfound, hpair⟩ := hpairs "Q\tR" "T"
  obtain ⟨-, -, hblank⟩ := hchars '\t'
  have hmem := (hfound ⟨"P", .pair "Q\tR" "T", by decide, by decide⟩).mpr
    ⟨List.mem_append_left _ (.tail _ (.head _)), rfl⟩
  exact ⟨⟨_, hmem, hpair _ hmem⟩, hblank (by decide)⟩

end Grammar
end Pyramid
