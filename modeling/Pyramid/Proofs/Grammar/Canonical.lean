import Mathlib
import Pyramid.Proofs.Grammar.RoundTrip

/-!
# Canonical productions

Many pairs of texts make the same production: there may be more or fewer blanks around the head, at
the ends of the body, and at the spaces between its symbols (`IsSpread`). None of this changes the
symbols of a body (`symbolsIn_of_isSpread`). Of all these pairs, the head and the key of the
production are the canonical one: they make the production again, and no other production has them.
-/

namespace Pyramid.Production

open Text

variable {body body' blanks : Text} {c : Char}

/-! ## Blanks before a body -/

theorem symbolsIn_cons_blank (t : Text) (hc : isBlank c = true) :
    symbolsIn (c :: t) = symbolsIn t := by
  by_cases hspace : c = ' '
  · subst hspace
    exact symbolsIn_append_space [] t
  · -- Only what stands before some space has to be looked at.
    by_cases ht : ' ' ∈ t
    · obtain ⟨u, v, rfl⟩ := List.append_of_mem ht
      rw [← List.cons_append, symbolsIn_append_space, symbolsIn_append_space,
        symbolsIn_cons_blank u hc]
    · have ht' : ' ' ∉ c :: t := by
        rw [List.mem_cons]
        rintro (rfl | hmem)
        · exact hspace rfl
        · exact ht hmem
      have hpad : IsPadded t (c :: t) :=
        ⟨[c], [], by simp, fun d hd => List.mem_singleton.mp hd ▸ hc, fun d hd => by cases hd⟩
      rw [symbolsIn_of_not_mem ht', symbolsIn_of_not_mem ht, hpad.strip_eq]
termination_by t.length
decreasing_by
  subst_vars
  simp

theorem symbolsIn_blanks_append (h : AllBlank blanks) (t : Text) :
    symbolsIn (blanks ++ t) = symbolsIn t := by
  induction blanks with
  | nil => rfl
  | cons c blanks ih =>
    rw [List.cons_append, symbolsIn_cons_blank _ (h c List.mem_cons_self)]
    exact ih fun d hd => h d (List.mem_cons_of_mem _ hd)

/-- Blanks around a body do not change its symbols. -/
theorem symbolsIn_of_isPadded (h : IsPadded body body') : symbolsIn body' = symbolsIn body := by
  obtain ⟨before, after, rfl, hbefore, hafter⟩ := h
  rw [symbolsIn_append_blanks _ hafter, symbolsIn_blanks_append hbefore]

/-! ## Blanks inside a body -/

/-- The second body is the first with more blanks at its ends and on both sides of its spaces. -/
def IsSpread (body body' : Text) : Prop :=
  ∃ parts, List.Forall₂ IsPadded (body.splitOn ' ') parts ∧ body' = join [' '] parts

theorem symbolsIn_join (parts : List Text) :
    symbolsIn (join [' '] parts) = parts.flatMap symbolsIn := by
  induction parts with
  | nil => rfl
  | cons part parts ih =>
    cases parts with
    | nil => rw [join_singleton, List.flatMap_cons, List.flatMap_nil, List.append_nil]
    | cons next parts =>
      have hjoin : join [' '] (part :: next :: parts)
          = part ++ ' ' :: join [' '] (next :: parts) := by
        unfold join
        rw [List.intercalate_cons_cons, List.append_assoc, List.singleton_append]
      rw [hjoin, symbolsIn_append_space, ih, ← List.flatMap_cons]

/-- **Blanks at the spaces of a body do not change its symbols.** -/
theorem symbolsIn_of_isSpread (h : IsSpread body body') : symbolsIn body' = symbolsIn body := by
  obtain ⟨parts, hparts, rfl⟩ := h
  have hbody : join [' '] (body.splitOn ' ') = body := List.intercalate_splitOn ' '
  have hsame : parts.flatMap symbolsIn = (body.splitOn ' ').flatMap symbolsIn := by
    generalize body.splitOn ' ' = pieces at hparts
    induction hparts with
    | nil => rfl
    | cons hpart _ ih => rw [List.flatMap_cons, List.flatMap_cons, symbolsIn_of_isPadded hpart, ih]
  conv_rhs => rw [← hbody]
  rw [symbolsIn_join, symbolsIn_join, hsame]

/-- Texts with more blanks make the same production. -/
theorem ofTexts_of_isSpread {head head' : Text} {p : Production} (h : ofTexts head body = .ok p)
    (hhead : IsPadded head head') (hbody : IsSpread body body') : ofTexts head' body' = .ok p := by
  obtain ⟨hname, hsymbols⟩ := ofTexts_eq_ok_iff.mp h
  rw [ofTexts_eq_ok_iff, hhead.strip_eq, symbolsIn_of_isSpread hbody]
  exact ⟨hname, hsymbols⟩

/-! ## The canonical texts -/

theorem eq_iff_head_key {p q : Production} : p = q ↔ p.head = q.head ∧ p.key = q.key := by
  constructor
  · rintro rfl
    exact ⟨rfl, rfl⟩
  · rintro ⟨hhead, hkey⟩
    exact ext_key hhead hkey

/-- **Productions are canonical.**

If two texts make a production, its head is the one without blanks around it; it is not empty and
holds no blank. Its body has one or two symbols, those of the other text; none of them is empty,
holds a space, or has a blank at an end. Head and key make the production again, and so do the two
texts with more blanks around the head, at the ends of the body or on either side of its spaces. Two
productions are the same exactly when their heads and their keys are. -/
theorem ofTexts_canonical :
    (∀ head body p, ofTexts head body = .ok p →
      (p.head = strip head ∧ p.head ≠ [] ∧ ∀ c ∈ p.head, isBlank c = false) ∧
      (p.body.symbols = symbolsIn body ∧
        (p.body.symbols.length = 1 ∨ p.body.symbols.length = 2) ∧
        ∀ s ∈ p.body.symbols, s ≠ [] ∧ ' ' ∉ s ∧ IsTrimmed s) ∧
      ofTexts p.head p.key = .ok p ∧
      ∀ head' body', IsPadded head head' → IsSpread body body' → ofTexts head' body' = .ok p) ∧
    ∀ p q : Production, p = q ↔ p.head = q.head ∧ p.key = q.key := by
  refine ⟨fun head body p h => ?_, fun p q => eq_iff_head_key⟩
  obtain ⟨hname, hsymbols⟩ := ofTexts_eq_ok_iff.mp h
  have hcount : p.body.symbols.length = 1 ∨ p.body.symbols.length = 2 := by
    cases p.body with
    | terminal a => exact .inl rfl
    | pair b c => exact .inr rfl
  exact ⟨⟨hname.symm, p.head_name⟩, ⟨hsymbols.symm, hcount, p.body_symbols⟩, ofTexts_head_key p,
    fun head' body' => ofTexts_of_isSpread h⟩

/-- A tab inside a symbol is kept; a no-break space, a vertical tab and more spaces around the
symbols make no difference. -/
theorem ofTexts_canonical_spread :
    ∃ p, ofTexts "S" "a\tb c" = .ok p ∧ p.key = "a\tb c" ∧ ofTexts p.head p.key = .ok p ∧
      ofTexts "\x0BS\n" "\u00A0 a\tb\t  \x0B c " = .ok p := by
  let p : Production := ⟨"S", .pair "a\tb" "c", by decide, by decide⟩
  have hmade : ofTexts "S" "a\tb c" = .ok p := by decide +kernel
  obtain ⟨-, -, hagain, hspread⟩ := ofTexts_canonical.1 _ _ p hmade
  refine ⟨p, hmade, by decide, hagain, hspread _ _ ?_ ?_⟩
  · exact ⟨['\x0B'], ['\n'], rfl, by decide, by decide⟩
  · refine ⟨["\u00A0 a\tb\t", " \x0B c "], .cons ?_ (.cons ?_ .nil), rfl⟩
    · exact ⟨"\u00A0 ", "\t", rfl, by decide, by decide⟩
    · exact ⟨" \x0B ", " ", rfl, by decide, by decide⟩

end Pyramid.Production
