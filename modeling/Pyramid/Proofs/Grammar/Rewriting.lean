import Mathlib
import Pyramid.Proofs.Grammar.Yield

/-!
# Rewriting

A grammar as a context-free grammar in the general sense: sentential forms are lists of tagged
symbols, and a step replaces one variable by a body of it, wherever it stands. One-symbol bodies are
terminals and never lead from variable to variable; a terminal may have several characters, but then
it stands in no word, because a word is spelled with terminals of one character each.

The main statement is `yields_iff_derives`: a variable yields a text exactly when it can be
rewritten to it. In one direction the steps are collected from the shape of the derivation; in the
other, `Reads` says how a sentential form is laid over a text, and a step taken backwards keeps it.
-/

namespace Pyramid

/-- A body as a sentential form. -/
def Body.form : Body → List (Symbol Text Text)
  | .terminal a => [.terminal a]
  | .pair b c => [.nonterminal b, .nonterminal c]

/-- A production as a rewriting rule. -/
def Production.rule (p : Production) : ContextFreeRule Text Text := ⟨p.head, p.body.form⟩

/-- A text as a sentential form, one terminal for each character. -/
def Text.form (t : Text) : List (Symbol Text Text) := t.map fun c => .terminal [c]

theorem Text.form_append (t u : Text) : Text.form (t ++ u) = Text.form t ++ Text.form u := by
  simp [Text.form]

namespace Grammar

/-- The grammar with a start variable, as a context-free grammar. -/
@[reducible] def contextFree (g : Grammar) (start : Text) : ContextFreeGrammar Text where
  NT := Text
  initial := start
  rules := (g.productions.map Production.rule).toFinset

variable {g : Grammar} {start : Text}

theorem mem_rules {r : ContextFreeRule Text Text} :
    r ∈ (g.contextFree start).rules ↔ ∃ p ∈ g.productions, p.rule = r := by
  simp

/-! ## From yields to steps -/

theorem HasRule.produces {a : Text} {body : Body} (hr : g.HasRule a body) :
    (g.contextFree start).Produces [.nonterminal a] body.form := by
  obtain ⟨p, hp, rfl, rfl⟩ := hr
  exact ⟨p.rule, mem_rules.mpr ⟨p, hp, rfl⟩, ContextFreeRule.Rewrites.input_output⟩

theorem Yields.derives {a t : Text} (hy : g.Yields a t) :
    (g.contextFree start).Derives [.nonterminal a] t.form := by
  induction hy with
  | terminal rule => exact rule.produces.single
  | @pair a b c u v rule _ _ hu hv =>
    -- The left variable is rewritten first, then the right one.
    have hleft : (g.contextFree start).Derives [.nonterminal b, .nonterminal c]
        (Text.form u ++ [.nonterminal c]) := hu.append_right [.nonterminal c]
    have hright : (g.contextFree start).Derives (Text.form u ++ [.nonterminal c])
        (Text.form u ++ Text.form v) := hv.append_left (Text.form u)
    rw [Text.form_append]
    exact (rule.produces.trans_derives hleft).trans hright

/-! ## From steps to yields -/

/-- The sentential form can be laid over the text: terminals on the characters that they are,
variables on texts that they yield. -/
inductive Reads (g : Grammar) : List (Symbol Text Text) → Text → Prop where
  | nil : Reads g [] []
  | terminal {c : Char} {form : List (Symbol Text Text)} {t : Text} (rest : Reads g form t) :
      Reads g (.terminal [c] :: form) (c :: t)
  | nonterminal {a u t : Text} {form : List (Symbol Text Text)} (piece : g.Yields a u)
      (rest : Reads g form t) : Reads g (.nonterminal a :: form) (u ++ t)

theorem reads_form (t : Text) : g.Reads t.form t := by
  induction t with
  | nil => exact .nil
  | cons c t ih => exact .terminal ih

theorem Reads.append {x y : List (Symbol Text Text)} {t u : Text} (hx : g.Reads x t)
    (hy : g.Reads y u) : g.Reads (x ++ y) (t ++ u) := by
  induction hx with
  | nil => exact hy
  | terminal _ ih => exact .terminal ih
  | nonterminal piece _ ih =>
    rw [List.cons_append, List.append_assoc]
    exact .nonterminal piece ih

/-- Where two forms stand one after the other, so do the texts that they are laid over. -/
theorem Reads.exists_parts {x y : List (Symbol Text Text)} {t : Text} (hxy : g.Reads (x ++ y) t) :
    ∃ u v, t = u ++ v ∧ g.Reads x u ∧ g.Reads y v := by
  induction x generalizing t with
  | nil => exact ⟨[], t, rfl, .nil, hxy⟩
  | cons s x ih =>
    cases hxy with
    | terminal rest =>
      obtain ⟨u, v, rfl, hx, hy⟩ := ih rest
      exact ⟨_ :: u, v, rfl, .terminal hx, hy⟩
    | nonterminal piece rest =>
      obtain ⟨u, v, rfl, hx, hy⟩ := ih rest
      exact ⟨_ ++ u, v, (List.append_assoc _ _ _).symm, .nonterminal piece hx, hy⟩

theorem reads_variable_iff {a t : Text} : g.Reads [.nonterminal a] t ↔ g.Yields a t := by
  constructor
  · intro hr
    cases hr with
    | nonterminal piece rest =>
      cases rest
      rwa [List.append_nil]
  · intro hy
    have hr : g.Reads [.nonterminal a] (t ++ []) := .nonterminal hy .nil
    rwa [List.append_nil] at hr

/-- What the body of a rule is laid over, its head yields. -/
theorem HasRule.yields {a t : Text} {body : Body} (hr : g.HasRule a body)
    (ht : g.Reads body.form t) : g.Yields a t := by
  cases body with
  | terminal s =>
    cases ht with
    | terminal rest =>
      cases rest
      exact .terminal hr
  | pair b c =>
    obtain ⟨u, v, rfl, hu, hv⟩ := Reads.exists_parts (x := [.nonterminal b]) ht
    exact .pair hr (reads_variable_iff.mp hu) (reads_variable_iff.mp hv)

/-- One step backwards: the form before it can be laid over the same text. -/
theorem Reads.of_produces {x y : List (Symbol Text Text)} {t : Text}
    (hp : (g.contextFree start).Produces x y) (hy : g.Reads y t) : g.Reads x t := by
  obtain ⟨r, hr, hrw⟩ := hp
  obtain ⟨p, hp, rfl⟩ := mem_rules.mp hr
  obtain ⟨before, after, rfl, rfl⟩ := hrw.exists_parts
  obtain ⟨u, v, rfl, hu, hv⟩ := hy.exists_parts
  obtain ⟨u', m, rfl, hbefore, hm⟩ := hu.exists_parts
  have hhead : g.Yields p.head m := HasRule.yields ⟨p, hp, rfl, rfl⟩ hm
  exact (hbefore.append (reads_variable_iff.mpr hhead)).append hv

theorem Reads.of_derives {x y : List (Symbol Text Text)} {t : Text}
    (hd : (g.contextFree start).Derives x y) (hy : g.Reads y t) : g.Reads x t := by
  induction hd using Relation.ReflTransGen.head_induction_on with
  | refl => exact hy
  | head hp _ ih => exact .of_produces hp ih

/-- **A variable yields a text exactly when it can be rewritten to it.** -/
theorem yields_iff_derives {a t : Text} :
    g.Yields a t ↔ (g.contextFree start).Derives [.nonterminal a] t.form :=
  ⟨Yields.derives, fun hd => reads_variable_iff.mp (.of_derives hd (reads_form t))⟩

end Grammar
end Pyramid
