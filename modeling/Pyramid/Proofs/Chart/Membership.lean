import Mathlib
import Pyramid.Proofs.Chart.Shape
import Pyramid.Proofs.Grammar.Rewriting

/-!
# Membership

A solver answers `true` for exactly those words that its start variable can be rewritten to,
whatever store it works with that solvers with the same productions have left behind
(`Solver.solve_iff_derives`). That is what the chart builder is for (specification §4.3).
-/

namespace Pyramid.Solver

/-- The answer for a word, told by what the start variable yields. -/
theorem solve_iff_yields {g : Grammar} {s : Solver} {b : Bench} {word : Text}
    (hs : s.grammar.SameProductions g) (hb : b.store.Reachable (·.SameProductions g))
    (hw : word ≠ []) (hlog : ∀ e, (s.solve word b).1 ≠ .error (.disk e)) :
    ∃ answer, (s.solve word b).1 = .ok answer ∧ (answer = true ↔ g.Yields s.start word) := by
  have hc := hb.coherent
  have hsolve := delivers_solve (P := (·.SameProductions g)) hs hc hw
  obtain ⟨ts, answer, hok, hreq, -, n, hn, rfl⟩ := hsolve.exists_ok hlog
  refine ⟨_, hok, ?_⟩
  have he := hreq.exact hc hb.exact
  rw [Node.derives, decide_eq_true_iff, he.mem_heads hn]

/-- **Membership is sound and complete in every reachable store.** If its journal is not refused an
entry, the solver gives an answer, and the answer is `true` exactly when the start variable can be
rewritten to the word. -/
theorem solve_iff_derives {s : Solver} {b : Bench} {word : Text}
    (hb : b.store.Reachable (·.SameProductions s.grammar)) (hw : word ≠ [])
    (hlog : ∀ e, (s.solve word b).1 ≠ .error (.disk e)) :
    ∃ answer, (s.solve word b).1 = .ok answer ∧
      (answer = true ↔
        (s.grammar.contextFree s.start).Derives [.nonterminal s.start] word.form) := by
  obtain ⟨answer, hok, hiff⟩ := solve_iff_yields (.refl _) hb hw hlog
  exact ⟨answer, hok, hiff.trans Grammar.yields_iff_derives⟩

/-- On a store that a broken chart and another word have left behind, one word is rewritten to and
one is not. -/
theorem solve_iff_derives_doubling :
    let s := Solver.quiet .doubling
    let b := (s.solve "ba" (s.lowerRows "aaba" 2 .first).2).2
    let cfg := Grammar.doubling.contextFree "S"
    ((s.solve "aaa" b).1 = .ok true ∧ cfg.Derives [.nonterminal cfg.initial] (Text.form "aaa")) ∧
      (s.solve "aba" b).1 = .ok false ∧
        ¬ cfg.Derives [.nonterminal cfg.initial] (Text.form "aba") := by
  intro s b cfg
  have hbroken : (s.lowerRows "aaba" 2 .first).2.store.Reachable (·.SameProductions s.grammar) :=
    .interrupted (b := .first) (.new 1 false) s (.refl _) _ _
  have hb : b.store.Reachable (·.SameProductions s.grammar) := .solve hbroken s (.refl _) _
  have hyes : (s.solve "aaa" b).1 = .ok true := by decide +kernel
  have hno : (s.solve "aba" b).1 = .ok false := by decide +kernel
  refine ⟨⟨hyes, ?_⟩, hno, ?_⟩
  · obtain ⟨answer, hok, hiff⟩ := solve_iff_derives hb (show ("aaa" : Text) ≠ [] by decide)
      (fun _ => Act.ne_error_of_isOk (by rw [hyes]; rfl) _)
    rw [hyes] at hok
    cases hok
    exact hiff.mp rfl
  · obtain ⟨answer, hok, hiff⟩ := solve_iff_derives hb (show ("aba" : Text) ≠ [] by decide)
      (fun _ => Act.ne_error_of_isOk (by rw [hno]; rfl) _)
    rw [hno] at hok
    cases hok
    exact fun hd => Bool.false_ne_true (hiff.mpr hd)

end Pyramid.Solver
