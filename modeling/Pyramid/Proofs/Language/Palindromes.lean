import Mathlib
import Pyramid.Proofs.Chart.Membership
import Pyramid.Proofs.Grammar.Bundled

/-!
# The language of the bundled palindromes

The variables `S`, `X` and `Y` of the grammar need each other, so their languages are found
together: `A` and `B` yield one letter, `X` and `Y` what `S` yields with one more letter at the end,
and `S` a letter, what `S` yields or nothing, and the same letter again. That is the way in which
palindromes of even length are built from the middle (`yields_start_iff`).
-/

namespace Pyramid.Palindromes

open Grammar

/-- The rules of the bundled grammar. -/
def rules : List (Text × Body) := [
  (['S'], .pair ['A'] ['X']), (['S'], .pair ['B'] ['Y']),
  (['S'], .pair ['A'] ['A']), (['S'], .pair ['B'] ['B']),
  (['X'], .pair ['S'] ['A']), (['Y'], .pair ['S'] ['B']),
  (['A'], .terminal ['a']), (['B'], .terminal ['b'])]

theorem exists_grammar : ∃ g, readText palindromes = .ok g ∧ g.HasRules rules :=
  readText_eq_ok (by decide +kernel)

/-- A text over `a` and `b` of even length that reads the same backwards. -/
def IsEvenPalindrome (t : Text) : Prop :=
  (∀ c ∈ t, c = 'a' ∨ c = 'b') ∧ Even t.length ∧ t.reverse = t

/-! ## Palindromes from the middle -/

theorem isEvenPalindrome_wrap_iff {c : Char} {t : Text} :
    IsEvenPalindrome (c :: (t ++ [c])) ↔ (c = 'a' ∨ c = 'b') ∧ IsEvenPalindrome t := by
  have hreverse : (c :: (t ++ [c])).reverse = c :: (t ++ [c]) ↔ t.reverse = t := by
    simp
  have heven : Even (c :: (t ++ [c])).length ↔ Even t.length := by
    have hlen : (c :: (t ++ [c])).length = t.length + 2 := by simp
    rw [hlen, Nat.even_add]
    simp
  unfold IsEvenPalindrome
  rw [hreverse, heven]
  constructor
  · rintro ⟨hletters, hlen, hrev⟩
    exact ⟨hletters c (by simp), fun d hd => hletters d (by simp [hd]), hlen, hrev⟩
  · rintro ⟨hc, hletters, hlen, hrev⟩
    refine ⟨?_, hlen, hrev⟩
    intro d hd
    rw [List.mem_cons, List.mem_append, List.mem_singleton] at hd
    rcases hd with rfl | hd | rfl
    · exact hc
    · exact hletters d hd
    · exact hc

/-! ## What the variables yield -/

variable {g : Grammar}

theorem yields_A_iff (hg : g.HasRules rules) {t : Text} : g.Yields ['A'] t ↔ t = ['a'] := by
  rw [yields_iff]
  simp [hg _ _, rules]

theorem yields_B_iff (hg : g.HasRules rules) {t : Text} : g.Yields ['B'] t ↔ t = ['b'] := by
  rw [yields_iff]
  simp [hg _ _, rules]

theorem yields_X_iff (hg : g.HasRules rules) {t : Text} :
    g.Yields ['X'] t ↔ ∃ u, g.Yields ['S'] u ∧ t = u ++ ['a'] := by
  rw [yields_iff]
  simp [hg _ _, rules, yields_A_iff hg]

theorem yields_Y_iff (hg : g.HasRules rules) {t : Text} :
    g.Yields ['Y'] t ↔ ∃ u, g.Yields ['S'] u ∧ t = u ++ ['b'] := by
  rw [yields_iff]
  simp [hg _ _, rules, yields_B_iff hg]

/-- The start variable yields a letter twice, or around what it yields itself. -/
theorem yields_S_iff (hg : g.HasRules rules) {t : Text} :
    g.Yields ['S'] t ↔ ∃ c u, (c = 'a' ∨ c = 'b') ∧ (u = [] ∨ g.Yields ['S'] u) ∧
      t = c :: (u ++ [c]) := by
  constructor
  · intro hy
    rcases yields_iff.mp hy with ⟨c, hrule, rfl⟩ | ⟨b, c, u, v, hrule, hu, hv, rfl⟩
    · simp [hg _ _, rules] at hrule
    · have hcases : (b = ['A'] ∧ c = ['X']) ∨ (b = ['B'] ∧ c = ['Y']) ∨
          (b = ['A'] ∧ c = ['A']) ∨ (b = ['B'] ∧ c = ['B']) := by
        simpa [hg _ _, rules] using hrule
      rcases hcases with ⟨rfl, rfl⟩ | ⟨rfl, rfl⟩ | ⟨rfl, rfl⟩ | ⟨rfl, rfl⟩
      · obtain rfl := (yields_A_iff hg).mp hu
        obtain ⟨m, hm, rfl⟩ := (yields_X_iff hg).mp hv
        exact ⟨'a', m, .inl rfl, .inr hm, rfl⟩
      · obtain rfl := (yields_B_iff hg).mp hu
        obtain ⟨m, hm, rfl⟩ := (yields_Y_iff hg).mp hv
        exact ⟨'b', m, .inr rfl, .inr hm, rfl⟩
      · obtain rfl := (yields_A_iff hg).mp hu
        obtain rfl := (yields_A_iff hg).mp hv
        exact ⟨'a', [], .inl rfl, .inl rfl, rfl⟩
      · obtain rfl := (yields_B_iff hg).mp hu
        obtain rfl := (yields_B_iff hg).mp hv
        exact ⟨'b', [], .inr rfl, .inl rfl, rfl⟩
  · have hA : g.Yields ['A'] ['a'] := (yields_A_iff hg).mpr rfl
    have hB : g.Yields ['B'] ['b'] := (yields_B_iff hg).mpr rfl
    rintro ⟨c, u, rfl | rfl, rfl | hu, rfl⟩
    · exact .pair ((hg _ _).mpr (by decide)) hA hA
    · exact .pair ((hg _ _).mpr (by decide)) hA ((yields_X_iff hg).mpr ⟨u, hu, rfl⟩)
    · exact .pair ((hg _ _).mpr (by decide)) hB hB
    · exact .pair ((hg _ _).mpr (by decide)) hB ((yields_Y_iff hg).mpr ⟨u, hu, rfl⟩)

/-! ## The language -/

theorem isEvenPalindrome_of_yields (hg : g.HasRules rules) {t : Text} (hy : g.Yields ['S'] t) :
    IsEvenPalindrome t := by
  obtain ⟨c, u, hc, hu, ht⟩ := (yields_S_iff hg).mp hy
  have hlen : u.length < t.length := by
    rw [ht, List.length_cons, List.length_append]
    omega
  rw [ht]
  refine isEvenPalindrome_wrap_iff.mpr ⟨hc, ?_⟩
  rcases hu with rfl | hu
  · exact ⟨by simp, by simp, rfl⟩
  · exact isEvenPalindrome_of_yields hg hu
termination_by t.length

theorem yields_of_isEvenPalindrome (hg : g.HasRules rules) {t : Text} (hne : t ≠ [])
    (ht : IsEvenPalindrome t) : g.Yields ['S'] t := by
  have hp : t.Palindrome := .of_reverse_eq ht.2.2
  induction hp with
  | nil => exact absurd rfl hne
  | singleton c => exact absurd ht.2.1 (by simp)
  | @cons_concat c u _ ih =>
    obtain ⟨hc, hu⟩ := isEvenPalindrome_wrap_iff.mp ht
    refine (yields_S_iff hg).mpr ⟨c, u, hc, ?_, rfl⟩
    by_cases hnil : u = []
    · exact .inl hnil
    · exact .inr (ih hnil hu)

/-- **The start variable yields exactly the palindromes of even length over `a` and `b`.** -/
theorem yields_start_iff (hg : g.HasRules rules) {t : Text} (hne : t ≠ []) :
    g.Yields ['S'] t ↔ IsEvenPalindrome t :=
  ⟨isEvenPalindrome_of_yields hg, yields_of_isEvenPalindrome hg hne⟩

/-- **A solver with the bundled default grammar recognises the even palindromes.** The grammar can
be loaded with or without a journal, and the store may have been used with it before. -/
theorem solve_iff_isEvenPalindrome {journal : Option Journal} {now : Moment} {d : Disk}
    (hload : ∀ e, ((Source.bundled (some "palindromes.txt")).load journal now d).1
      ≠ .error (.disk e)) :
    ∃ g, ((Source.bundled (some "palindromes.txt")).load journal now d).1 = .ok g ∧
      ∀ (s : Solver) (b : Bench) (word : Text), s.grammar = g → s.start = ['S'] →
        b.store.Reachable (·.SameProductions g) → word ≠ [] →
        (∀ e, (s.solve word b).1 ≠ .error (.disk e)) →
        ∃ answer, (s.solve word b).1 = .ok answer ∧
          (answer = true ↔
            (∀ c ∈ word, c = 'a' ∨ c = 'b') ∧ Even word.length ∧ word.reverse = word) := by
  obtain ⟨g, hread, hg⟩ := exists_grammar
  have hname : bundled? (bundledName (some "palindromes.txt")) = some palindromes := by
    decide +kernel
  refine ⟨g, load_bundled hname (by decide +kernel) hread hload, ?_⟩
  intro s b word hs hstart hb hw hlog
  obtain ⟨answer, hok, hiff⟩ := Solver.solve_iff_yields (hs ▸ .refl g) hb hw hlog
  refine ⟨answer, hok, hiff.trans ?_⟩
  rw [hstart]
  exact yields_start_iff hg hw

/-- Two words, the second with a foreign letter in the middle of a palindrome. -/
theorem solve_iff_isEvenPalindrome_abba :
    ∃ g, ((Source.bundled (some "palindromes.txt")).load none Bench.first.now Bench.first.disk).1
        = .ok g ∧
      ((Solver.quiet g).solve "abba" .first).1 = .ok true ∧
      ((Solver.quiet g).solve "acca" .first).1 = .ok false := by
  let loaded := ((Source.bundled (some "palindromes.txt")).load none Bench.first.now
    Bench.first.disk).1
  have hload : loaded.isOk = true := by decide +kernel
  obtain ⟨g, hg, hsolve⟩ := solve_iff_isEvenPalindrome (fun _ => Act.ne_error_of_isOk hload _)
  -- What was loaded can be looked at, so the two runs can be carried out.
  have hvalue : g = loaded.toOption.getD (.ofProductions []) := by
    show g = Option.getD (Except.toOption ((Source.bundled (some "palindromes.txt")).load none
      Bench.first.now Bench.first.disk).1) _
    rw [hg]
    rfl
  have hb : Bench.first.store.Reachable (·.SameProductions g) := .new 1 false
  refine ⟨g, hg, ?_, ?_⟩
  · have hok : ((Solver.quiet g).solve "abba" .first).1.isOk = true := by
      rw [hvalue]
      decide +kernel
    obtain ⟨answer, hans, hiff⟩ := hsolve (Solver.quiet g) .first "abba" rfl rfl hb (by decide)
      (fun _ => Act.ne_error_of_isOk hok _)
    rw [hans, hiff.mpr ⟨by simp, by decide, by decide⟩]
  · have hok : ((Solver.quiet g).solve "acca" .first).1.isOk = true := by
      rw [hvalue]
      decide +kernel
    obtain ⟨answer, hans, hiff⟩ := hsolve (Solver.quiet g) .first "acca" rfl rfl hb (by decide)
      (fun _ => Act.ne_error_of_isOk hok _)
    have hfalse : answer = false := by
      refine Bool.eq_false_iff.mpr fun ht => ?_
      have hc := (hiff.mp ht).1 'c' (by decide)
      revert hc
      decide
    rw [hans, hfalse]

end Pyramid.Palindromes
