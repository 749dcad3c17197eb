import Mathlib
import Pyramid.Proofs.Chart.Silence
import Pyramid.Proofs.Language.Palindromes
import Pyramid.Proofs.Words.Draws

/-!
# Generated words and the bundled palindromes

The words that are generated as valid are palindromes of even length over the letters of the
alphabet, and if these are made of `a` and `b` the bundled grammar derives them. A suffix of odd
length makes the length of every such word odd, and then it does not.

`solve_generated` says so for every source of chance, so for every word that can ever be drawn.
These are the first two testable properties of the specification (§8).
-/

namespace Pyramid.Palindromes

open Grammar

variable {alphabet : List Text} {count : Nat} {half : Text}

/-- The letters are not empty, and made of `a` and `b`. -/
def IsAlphabet (alphabet : List Text) : Prop := ∀ a ∈ alphabet, a ≠ [] ∧ ∀ c ∈ a, c = 'a' ∨ c = 'b'

theorem mem_of_isSpelled (hletters : IsAlphabet alphabet)
    (h : Words.IsSpelled alphabet count half) : ∀ c ∈ half, c = 'a' ∨ c = 'b' := by
  obtain ⟨letters, -, hmem, rfl⟩ := h
  intro c hc
  obtain ⟨a, ha, hca⟩ := List.mem_flatten.mp hc
  exact (hletters a (hmem a ha)).2 c hca

theorem ne_nil_of_isSpelled (hletters : IsAlphabet alphabet) (hcount : 1 ≤ count)
    (h : Words.IsSpelled alphabet count half) : half ≠ [] := by
  obtain ⟨letters, rfl, hmem, rfl⟩ := h
  cases letters with
  | nil => simp at hcount
  | cons a letters =>
    have ha : a ≠ [] := (hletters a (hmem a (by simp))).1
    simp [ha]

/-- A word with its reversal behind it is a palindrome of even length. -/
theorem isEvenPalindrome_double (h : ∀ c ∈ half, c = 'a' ∨ c = 'b') :
    IsEvenPalindrome (half ++ half.reverse) := by
  refine ⟨?_, ?_, by simp⟩
  · intro c hc
    rcases List.mem_append.mp hc with hc | hc
    · exact h c hc
    · exact h c (List.mem_reverse.mp hc)
  · rw [List.length_append, List.length_reverse]
    exact ⟨_, rfl⟩

theorem IsEvenPalindrome.not_append {w suffix : Text} (h : IsEvenPalindrome w)
    (hsuffix : Odd suffix.length) : ¬ IsEvenPalindrome (w ++ suffix) := by
  rintro ⟨-, heven, -⟩
  rw [List.length_append] at heven
  exact Nat.not_even_iff_odd.mpr (h.2.1.add_odd hsuffix) heven

/-- What is generated as valid is in the language. -/
theorem isEvenPalindrome_of_isDoubled {r : Words.Request} {high : Int} {w : Text} (hlow : 1 ≤ r.low)
    (hletters : IsAlphabet r.alphabet) (h : r.IsDoubled high w) : w ≠ [] ∧ IsEvenPalindrome w := by
  obtain ⟨count, half, hcount, -, hhalf, rfl⟩ := h
  have hne : half ≠ [] := ne_nil_of_isSpelled hletters (by omega) hhalf
  exact ⟨by simp [hne], isEvenPalindrome_double (mem_of_isSpelled hletters hhalf)⟩

/-- The answer of a solver with the rules of the bundled grammar. -/
theorem solve_eq {g : Grammar} (hg : g.HasRules rules) {s : Solver} {b : Bench} {word : Text}
    {answer : Bool} (hs : s.grammar = g) (hstart : s.start = ['S'])
    (hb : b.store.Reachable (·.SameProductions g)) (hne : word ≠ [])
    (hanswer : answer = true ↔ IsEvenPalindrome word)
    (hheard : s.IsHeard word b) : (s.solve word b).1 = .ok answer := by
  obtain ⟨found, hok, hiff⟩ := Solver.solve_iff_yields (hs ▸ .refl g) hb hne hheard.solve_ne_disk
  rw [hstart, yields_start_iff hg hne, ← hanswer] at hiff
  rw [hok, Bool.eq_iff_iff.mpr hiff]

/-- **Generated words are what they are called.** Load the bundled grammar, take any source of
chance in any state, letters made of `a` and `b`, and halves of at least one letter. Then as many
valid words as are asked for can be drawn; the invalid words from the same state are these with the
suffix behind each; and a solver with the start variable `S`, on any store that was used with the
grammar only, accepts every valid word and rejects, if the suffix has odd length, every invalid one,
unless its journal is refused an entry. -/
theorem solve_generated {journal : Option Journal} {now : Moment} {d : Disk}
    (hload : ∀ e, ((Source.bundled (some "palindromes.txt")).load journal now d).1
      ≠ .error (.disk e)) :
    ∃ g, ((Source.bundled (some "palindromes.txt")).load journal now d).1 = .ok g ∧
      ∀ (σ : Type) (chance : Chance σ) (seed : σ) (r : Words.Request) (high count : Int)
        (suffix : Text), 1 ≤ r.low → r.high = some high → r.low < high → r.alphabet ≠ [] →
        (∀ a ∈ r.alphabet, a ≠ [] ∧ ∀ c ∈ a, c = 'a' ∨ c = 'b') → Odd suffix.length →
        ∃ words rest, Words.valid chance r count.toNat seed = .ok (words, rest) ∧
          words.length = count.toNat ∧
          Words.invalid chance r suffix count.toNat seed
            = .ok (words.map (· ++ suffix), rest) ∧
          ∀ (s : Solver) (b : Bench), s.grammar = g → s.start = ['S'] →
            b.store.Reachable (·.SameProductions g) → ∀ w ∈ words,
            (s.IsHeard w b → (s.solve w b).1 = .ok true) ∧
            (s.IsHeard (w ++ suffix) b → (s.solve (w ++ suffix) b).1 = .ok false) := by
  obtain ⟨g, hread, hg⟩ := exists_grammar
  have hname : bundled? (bundledName (some "palindromes.txt")) = some palindromes := by
    decide +kernel
  refine ⟨g, load_bundled hname (by decide +kernel) hread hload, ?_⟩
  intro σ chance seed r high count suffix hlow hhigh hrange halphabet hletters hsuffix
  obtain ⟨words, rest, hvalid, hcount, hwords⟩ :=
    Words.gives_valid chance hhigh hrange halphabet count.toNat seed
  refine ⟨words, rest, hvalid, hcount, Words.invalid_eq chance suffix hvalid, ?_⟩
  intro s b hs hstart hb w hw
  obtain ⟨hne, hpalindrome⟩ := isEvenPalindrome_of_isDoubled hlow hletters (hwords w hw)
  constructor
  · exact solve_eq hg hs hstart hb hne (by simp [hpalindrome])
  · exact solve_eq hg hs hstart hb (by simp [hne])
      (by simp [hpalindrome.not_append hsuffix])

/-- Two halves from an alphabet with a letter of two characters: of one letter, and of two. -/
def sampleRequest : Words.Request := { low := 1, high := some 3, alphabet := ["ab", "b"] }

/-- The words `abba` and `babbab`, and both with a suffix of three characters, on the store that the
first word has left behind. -/
theorem solve_generated_sample :
    let chance := Chance.picks [0, 0, 1, 1, 0]
    ∃ g words rest,
      ((Source.bundled (some "palindromes.txt")).load none Bench.first.now Bench.first.disk).1
        = .ok g ∧
      Words.valid chance sampleRequest 2 0 = .ok (words, rest) ∧ words = ["abba", "babbab"] ∧
      ∀ w ∈ words,
        ((Solver.quiet g).solve w ((Solver.quiet g).solve "abba" .first).2).1 = .ok true ∧
        ((Solver.quiet g).solve (w ++ "bcd") ((Solver.quiet g).solve "abba" .first).2).1
          = .ok false := by
  intro chance
  have hload : ((Source.bundled (some "palindromes.txt")).load none Bench.first.now
    Bench.first.disk).1.isOk = true := by decide +kernel
  obtain ⟨g, hg, hwords⟩ := solve_generated (fun _ => Act.ne_error_of_isOk hload _)
  obtain ⟨words, rest, hvalid, -, -, hsolve⟩ := hwords Nat chance 0 sampleRequest 3 2 "bcd"
    (by decide) rfl (by decide) (by decide) (by simp [sampleRequest]) (by decide)
  have hdrawn : (Words.valid chance sampleRequest 2 0).map (·.1) = .ok ["abba", "babbab"] := by
    decide +kernel
  have hb : (((Solver.quiet g).solve "abba" .first).2).store.Reachable (·.SameProductions g) :=
    .solve (b := .first) (.new 1 false) (Solver.quiet g) (.refl g) _
  refine ⟨g, words, rest, hg, hvalid, ?_, fun w hw => ?_⟩
  · rw [show Words.valid chance sampleRequest 2 0 = .ok (words, rest) from hvalid] at hdrawn
    exact Except.ok.inj hdrawn
  · obtain ⟨hyes, hno⟩ := hsolve (Solver.quiet g) _ rfl rfl hb w hw
    exact ⟨hyes (.inl rfl), hno (.inl rfl)⟩

end Pyramid.Palindromes
