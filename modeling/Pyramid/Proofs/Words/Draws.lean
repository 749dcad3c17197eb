import Mathlib
import Pyramid.Words.Generator

/-!
# What is drawn

Words are generated from a source of chance, and nothing is known about its numbers but their
bounds. `Gives draw Q` says that a draw never fails and that what it gives has the property `Q`,
from whatever state and by whatever source.

* `gives_randomWord`: a random word is so many letters of the alphabet, put together.
* `gives_valid`: a list of palindromes has as many words as were asked for, and each of them is such
  a word of an allowed number of letters with its reversal behind it (`Request.IsDoubled`).
* `invalid_eq`: a list of words with a suffix is the list of palindromes from the same state, with
  the suffix behind each.
-/

namespace Pyramid.Words

variable {σ α β : Type} {draw : Draw σ α} {Q : α → Prop}

/-- The draw never fails, and what it gives has the property. -/
def Gives (draw : Draw σ α) (Q : α → Prop) : Prop := ∀ s, ∃ a s', draw s = .ok (a, s') ∧ Q a

theorem Gives.pure {a : α} (h : Q a) : Gives (pure a : Draw σ α) Q := fun s => ⟨a, s, rfl, h⟩

theorem bind_of_ok {f : α → Draw σ β} {s s' : σ} {a : α} (h : draw s = .ok (a, s')) :
    (draw >>= f) s = f a s' := by
  show (draw s >>= fun p => f p.1 p.2) = _
  rw [h]
  rfl

theorem Gives.bind {f : α → Draw σ β} {R : β → Prop} (h : Gives draw Q)
    (hf : ∀ a, Q a → Gives (f a) R) : Gives (draw >>= f) R := by
  intro s
  obtain ⟨a, s', hdraw, ha⟩ := h s
  obtain ⟨b, s'', hf, hb⟩ := hf a ha s'
  exact ⟨b, s'', (bind_of_ok hdraw).trans hf, hb⟩

/-! ## Letters and words -/

variable (chance : Chance σ) {alphabet : List Text}

theorem gives_letter (h : alphabet ≠ []) : Gives (letter chance alphabet) (· ∈ alphabet) := by
  intro s
  unfold letter
  rw [dif_pos (List.length_pos_iff.mpr h)]
  exact ⟨_, _, rfl, List.getElem_mem _⟩

theorem gives_between {low high : Int} (h : low < high) :
    Gives (between chance low high) fun n => low ≤ n ∧ n < high := by
  intro s
  have hpos : 0 < (high - low).toNat := by omega
  unfold between
  rw [dif_pos hpos]
  refine ⟨_, _, rfl, ?_⟩
  have hlt := (chance.below (high - low).toNat hpos s).1.isLt
  omega

/-- The word is `count` letters of the alphabet, one after another. -/
def IsSpelled (alphabet : List Text) (count : Nat) (w : Text) : Prop :=
  ∃ letters : List Text, letters.length = count ∧ (∀ a ∈ letters, a ∈ alphabet) ∧
    w = letters.flatten

theorem IsSpelled.cons {count : Nat} {a w : Text} (ha : a ∈ alphabet)
    (hw : IsSpelled alphabet count w) : IsSpelled alphabet (count + 1) (a ++ w) := by
  obtain ⟨letters, hlen, hletters, rfl⟩ := hw
  refine ⟨a :: letters, by simp [hlen], ?_, by simp⟩
  intro b hb
  rcases List.mem_cons.mp hb with rfl | hb
  · exact ha
  · exact hletters b hb

theorem gives_randomWord (h : alphabet ≠ []) (length : Nat) :
    Gives (randomWord chance alphabet length) (IsSpelled alphabet length) := by
  induction length with
  | zero => exact .pure ⟨[], rfl, by simp, rfl⟩
  | succ length ih =>
    refine (gives_letter chance h).bind fun a ha => ?_
    exact ih.bind fun w hw => .pure (hw.cons ha)

/-! ## Lists of words -/

/-- The word is one of an allowed number of letters, with its reversal behind it. -/
def Request.IsDoubled (r : Request) (high : Int) (w : Text) : Prop :=
  ∃ count half, r.low ≤ count ∧ count < high ∧ IsSpelled r.alphabet count.toNat half ∧
    w = half ++ half.reverse

variable {r : Request} {high : Int}

/-- **Every list of palindromes that is asked for can be drawn**, and its words are what they should
be. -/
theorem gives_valid (hhigh : r.high = some high) (hlow : r.low < high) (halphabet : r.alphabet ≠ [])
    (count : Nat) :
    Gives (valid chance r count) fun words =>
      words.length = count ∧ ∀ w ∈ words, r.IsDoubled high w := by
  have hlength : Gives (r.length chance) fun n => r.low ≤ n ∧ n < high := by
    unfold Request.length
    rw [hhigh]
    exact gives_between chance hlow
  induction count with
  | zero => exact .pure ⟨rfl, by simp⟩
  | succ count ih =>
    refine hlength.bind fun n hn => ?_
    have hword : Gives (palindrome chance r.alphabet n.toNat) (r.IsDoubled high) :=
      (gives_randomWord chance halphabet n.toNat).bind fun half hhalf =>
        .pure ⟨n, half, hn.1, hn.2, hhalf, rfl⟩
    refine hword.bind fun w hw => ih.bind fun words hwords => .pure ⟨by simp [hwords.1], ?_⟩
    intro v hv
    rcases List.mem_cons.mp hv with rfl | hv
    · exact hw
    · exact hwords.2 v hv

/-- **The same chance gives the same palindromes**, here with the suffix behind each. -/
theorem invalid_eq (suffix : Text) {count : Nat} {s s' : σ} {words : List Text}
    (h : valid chance r count s = .ok (words, s')) :
    invalid chance r suffix count s = .ok (words.map (· ++ suffix), s') :=
  bind_of_ok h

end Pyramid.Words
