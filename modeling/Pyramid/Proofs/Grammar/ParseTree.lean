import Mathlib
import Pyramid.Proofs.Grammar.Yield

/-!
# Parse trees

A parse tree of a variable and a text is a derivation of the text as data: two trees can be told
apart by the rules and by the places where they cut the text. A variable has a tree for a text
exactly if it yields the text (`nonempty_parseTree_iff`).

`ParseTree.choice` lists what the tree does at each of its nodes, as the entry that a chart would
have for it. Nothing is lost by that (`choice_injective`).
-/

namespace Pyramid.Grammar

variable {g : Grammar} {a b c w x : Text} {body : Body} {d : Derivation}

def HasRule.production (rule : g.HasRule a body) : Production where
  head := a
  body := body
  head_name := by
    obtain ⟨p, -, rfl, -⟩ := rule
    exact p.head_name
  body_symbols := by
    obtain ⟨p, -, -, rfl⟩ := rule
    exact p.body_symbols

theorem HasRule.production_eq (rule : g.HasRule a body) {p : Production} (hh : p.head = a)
    (hb : p.body = body) : rule.production = p := Production.ext hh.symm hb.symm

theorem HasRule.production_mem (rule : g.HasRule a body) : rule.production ∈ g.productions := by
  obtain ⟨p, hp, hh, hb⟩ := id rule
  rw [rule.production_eq hh hb]
  exact hp

/-- The derivation by a pair tells the two variables and the cut. -/
theorem HasRule.pair_inj {b' c' : Text} {j j' : Nat} (rule : g.HasRule a (.pair b c))
    (rule' : g.HasRule a (.pair b' c'))
    (h : (⟨rule.production, j⟩ : Derivation) = ⟨rule'.production, j'⟩) :
    b = b' ∧ c = c' ∧ j = j' := by
  have hbody : Body.pair b c = Body.pair b' c' := congrArg (·.production.body) h
  have hoffset : (j : Int) = j' := congrArg (·.offset) h
  obtain ⟨hb, hc⟩ : b = b' ∧ c = c' := by simpa using hbody
  exact ⟨hb, hc, by omega⟩

/-! ## Trees -/

/-- A tree for a variable and a text: a one-symbol rule if the text is its character, or a rule for
a pair and a cut, with trees for the two halves. -/
inductive ParseTree (g : Grammar) : Text → Text → Type where
  | terminal {a : Text} (c : Char) (rule : g.HasRule a (.terminal [c])) : ParseTree g a [c]
  | pair {a w : Text} (b c : Text) (j : Nat) (pos : 0 < j) (lt : j < w.length)
      (rule : g.HasRule a (.pair b c)) (left : ParseTree g b (w.take j))
      (right : ParseTree g c (w.drop j)) : ParseTree g a w

theorem ParseTree.yields (t : ParseTree g a w) : g.Yields a w := by
  induction t with
  | terminal c rule => exact .terminal rule
  | @pair a w b c j _ _ rule _ _ ihl ihr =>
    have hy := Yields.pair rule ihl ihr
    rwa [List.take_append_drop] at hy

/-- **A variable has a tree for the texts that it yields.** -/
theorem nonempty_parseTree_iff : Nonempty (ParseTree g a w) ↔ g.Yields a w := by
  constructor
  · rintro ⟨t⟩
    exact t.yields
  · intro hy
    induction hy with
    | terminal rule => exact ⟨.terminal _ rule⟩
    | @pair a b c u v rule hu hv ihu ihv =>
      have hposu : 0 < u.length := List.length_pos_iff.mpr hu.ne_nil
      have hposv : 0 < v.length := List.length_pos_iff.mpr hv.ne_nil
      have hlt : u.length < (u ++ v).length := by
        rw [List.length_append]
        omega
      have hleft : Nonempty (ParseTree g b ((u ++ v).take u.length)) := by
        rwa [List.take_left]
      have hright : Nonempty (ParseTree g c ((u ++ v).drop u.length)) := by
        rwa [List.drop_left]
      exact ⟨.pair b c u.length hposu hlt rule hleft.some hright.some⟩

/-! ## Choices -/

/-- An entry for each node of a tree of choices. -/
inductive Choice where
  | last (d : Derivation)
  | split (d : Derivation) (left right : Choice)

def Choice.entry : Choice → Derivation
  | .last d => d
  | .split d _ _ => d

/-- What a parse tree chooses: at each node the production of its rule, and how much of the text
goes to the left. -/
def ParseTree.choice {a w : Text} : ParseTree g a w → Choice
  | .terminal _ rule => .last ⟨rule.production, 0⟩
  | .pair _ _ j _ _ rule left right => .split ⟨rule.production, j⟩ left.choice right.choice

theorem ParseTree.choice_injective :
    Function.Injective (choice : ParseTree g a w → Choice) := by
  intro t t' h
  induction t with
  | terminal c rule =>
    cases t' with
    | terminal => rfl
    | pair => cases h
  | pair b c j pos lt rule left right ihl ihr =>
    cases t' with
    | terminal => cases h
    | pair b' c' j' pos' lt' rule' left' right' =>
      rw [choice, choice, Choice.split.injEq] at h
      obtain ⟨hd, hl, hr⟩ := h
      obtain ⟨rfl, rfl, rfl⟩ := rule.pair_inj rule' hd
      rw [ihl hl, ihr hr]

/-! ## Entries as first steps -/

theorem Entry.of_terminal (hd : g.Entry w d) (hbody : d.production.body = .terminal x) :
    ∃ c, w = [c] ∧ x = [c] ∧ d.offset = 0 := by
  cases hd with
  | @terminal p c _ body =>
    obtain rfl : x = [c] := by simpa [body] using hbody.symm
    exact ⟨c, rfl, rfl, rfl⟩
  | pair _ body => simp [body] at hbody

/-- An entry with a pair for its body cuts the text into halves that the two variables yield. -/
theorem Entry.of_pair (hd : g.Entry w d) (hbody : d.production.body = .pair b c) :
    ∃ j : Nat, d.offset = j ∧ 0 < j ∧ j < w.length ∧ g.Yields b (w.take j) ∧
      g.Yields c (w.drop j) := by
  cases hd with
  | terminal _ body => simp [body] at hbody
  | @pair p b' c' u v _ body left right =>
    obtain ⟨rfl, rfl⟩ : b' = b ∧ c' = c := by simpa [body] using hbody
    have hu : 0 < u.length := List.length_pos_iff.mpr left.ne_nil
    have hv : 0 < v.length := List.length_pos_iff.mpr right.ne_nil
    refine ⟨u.length, rfl, hu, ?_, ?_, ?_⟩
    · rw [List.length_append]
      omega
    · rwa [List.take_left]
    · rwa [List.drop_left]

theorem Entry.cut (hd : g.Entry w d) (hbody : d.production.body = .pair b c) {j : Nat}
    (ho : d.offset = j) :
    0 < j ∧ j < w.length ∧ g.Yields b (w.take j) ∧ g.Yields c (w.drop j) := by
  obtain ⟨i, hi, hcut⟩ := hd.of_pair hbody
  obtain rfl : i = j := by omega
  exact hcut

theorem Entry.hasRule (hd : g.Entry w d) : g.HasRule d.production.head d.production.body := by
  cases hd with
  | terminal mem => exact ⟨_, mem, rfl, rfl⟩
  | pair mem => exact ⟨_, mem, rfl, rfl⟩

/-- The choice at the root of a tree is an entry of the text for the variable. -/
theorem ParseTree.entry_choice (t : ParseTree g a w) :
    g.Entry w t.choice.entry ∧ t.choice.entry.production.head = a := by
  cases t with
  | terminal c rule => exact ⟨.terminal rule.production_mem rfl, rfl⟩
  | pair b c j pos lt rule left right =>
    have hd := Entry.pair rule.production_mem rfl left.yields right.yields
    rw [List.take_append_drop, List.length_take, Nat.min_eq_left (by omega)] at hd
    exact ⟨hd, rfl⟩

theorem Entry.exists_last (hd : g.Entry w d) (hbody : d.production.body = .terminal x) :
    ∃ t : ParseTree g d.production.head w, t.choice = .last d := by
  have hrule := hd.hasRule
  rw [hbody] at hrule
  obtain ⟨c, rfl, rfl, ho⟩ := hd.of_terminal hbody
  refine ⟨.terminal c hrule, ?_⟩
  rw [ParseTree.choice, hrule.production_eq rfl hbody, ← ho]

/-- An entry for a pair goes with any trees for the two halves. -/
theorem Entry.exists_split (hd : g.Entry w d) (hbody : d.production.body = .pair b c) {j : Nat}
    (ho : d.offset = j) (left : ParseTree g b (w.take j)) (right : ParseTree g c (w.drop j)) :
    ∃ t : ParseTree g d.production.head w, t.choice = .split d left.choice right.choice := by
  have hrule := hd.hasRule
  rw [hbody] at hrule
  obtain ⟨hpos, hlt, -, -⟩ := hd.cut hbody ho
  refine ⟨.pair b c j hpos hlt hrule left right, ?_⟩
  rw [ParseTree.choice, hrule.production_eq rfl hbody, ← ho]

/-- **Every entry is the first step of a tree.** -/
theorem Entry.exists_parseTree (hd : g.Entry w d) :
    ∃ t : ParseTree g d.production.head w, t.choice.entry = d := by
  cases hbody : d.production.body with
  | terminal x =>
    obtain ⟨t, ht⟩ := hd.exists_last hbody
    exact ⟨t, by rw [ht, Choice.entry]⟩
  | pair b c =>
    obtain ⟨j, ho, -, -, hb, hc⟩ := hd.of_pair hbody
    obtain ⟨left⟩ := nonempty_parseTree_iff.mpr hb
    obtain ⟨right⟩ := nonempty_parseTree_iff.mpr hc
    obtain ⟨t, ht⟩ := hd.exists_split hbody ho left right
    exact ⟨t, by rw [ht, Choice.entry]⟩

end Pyramid.Grammar
