import Mathlib
import Pyramid.Proofs.Chart.Membership
import Pyramid.Proofs.Chart.Silence
import Pyramid.Proofs.Chart.Table

/-!
# Charts grow with the grammar

Two charts of one word, by solvers with different productions. Neither solver knows of the other,
and their stores have nothing in common; but the nodes of each hold what its productions yield, and
with more productions a text has no fewer entries. So the chart over the smaller set lies, cell by
cell, within the chart over the larger one (`Solver.chart_mono`).
-/

namespace Pyramid.Solver

variable {s s' : Solver} {b b' : Bench} {word : Text}

/-- Every cell of a chart holds the entries of the piece of the word at its place. -/
theorem exists_chart_entries (hb : b.store.Reachable (·.SameProductions s.grammar)) (hw : word ≠ [])
    (hlog : ∀ e, (s.chart word b).1 ≠ .error (.disk e)) :
    ∃ rows, (s.chart word b).1 = .ok rows ∧ ∀ k i, i + k < word.length →
      ∃ n, cellAt rows k i = some n ∧
        ∀ d, d ∈ n.derivations ↔ s.grammar.Entry ((word.drop i).take (k + 1)) d := by
  have hc := hb.coherent
  have hchart := delivers_chart (P := (·.SameProductions s.grammar)) (.refl s.grammar) hc hw
  obtain ⟨ts, rows, hok, hreq, -, hrows⟩ := hchart.exists_ok hlog
  refine ⟨rows, hok, fun k i hi => ?_⟩
  obtain ⟨n, hcell, hget⟩ := hrows.exists_cell hi
  exact ⟨n, hcell, hreq.exact hc hb.exact hget⟩

/-- With more productions no answer turns from `true` to `false`. -/
theorem solve_mono (hsub : s.grammar.productions ⊆ s'.grammar.productions)
    (hstart : s.start = s'.start) (hb : b.store.Reachable (·.SameProductions s.grammar))
    (hb' : b'.store.Reachable (·.SameProductions s'.grammar)) (hw : word ≠ [])
    (hlog' : ∀ e, (s'.solve word b').1 ≠ .error (.disk e)) (h : (s.solve word b).1 = .ok true) :
    (s'.solve word b').1 = .ok true := by
  have hlog : ∀ e, (s.solve word b).1 ≠ .error (.disk e) := by
    intro e he
    rw [h] at he
    cases he
  obtain ⟨answer, hok, hiff⟩ := solve_iff_yields (.refl _) hb hw hlog
  obtain ⟨answer', hok', hiff'⟩ := solve_iff_yields (.refl _) hb' hw hlog'
  obtain rfl : answer = true := by
    rw [h] at hok
    exact (Except.ok.inj hok).symm
  have hyields : s'.grammar.Yields s'.start word := hstart ▸ (hiff.mp rfl).mono hsub
  rw [hok', hiff'.mpr hyields]

/-- **Charts are monotone in the set of productions.** Let every production of one solver be one of
another's. On new stores, or on whatever stores solvers with their productions have left behind,
both solvers chart every word; each cell of the one chart holds only derivations that the same cell
of the other holds; and if the solvers have the same productions, in whatever order and however
often, the cells are equal. If they start from the same variable, a word that the first accepts is
accepted by the second. -/
theorem chart_mono (hsub : s.grammar.productions ⊆ s'.grammar.productions)
    (hb : b.store.Reachable (·.SameProductions s.grammar))
    (hb' : b'.store.Reachable (·.SameProductions s'.grammar)) (hw : word ≠ [])
    (hlog : s.IsHeard word b) (hlog' : s'.IsHeard word b') :
    (∃ rows rows', (s.chart word b).1 = .ok rows ∧ (s'.chart word b').1 = .ok rows' ∧
      ∀ k i, i + k < word.length → ∃ n n', cellAt rows k i = some n ∧ cellAt rows' k i = some n' ∧
        (∀ d ∈ n.derivations, d ∈ n'.derivations) ∧
        (s'.grammar.productions ⊆ s.grammar.productions → n.derivations = n'.derivations)) ∧
    (s.start = s'.start → (s.solve word b).1 = .ok true → (s'.solve word b').1 = .ok true) := by
  obtain ⟨rows, hrows, hcells⟩ := exists_chart_entries hb hw hlog.chart_ne_disk
  obtain ⟨rows', hrows', hcells'⟩ := exists_chart_entries hb' hw hlog'.chart_ne_disk
  refine ⟨⟨rows, rows', hrows, hrows', fun k i hi => ?_⟩, fun hstart => ?_⟩
  · obtain ⟨n, hcell, hentries⟩ := hcells k i hi
    obtain ⟨n', hcell', hentries'⟩ := hcells' k i hi
    refine ⟨n, n', hcell, hcell', fun d hd => ?_, fun hsub' => SortedSet.ext_mem fun d => ?_⟩
    · exact (hentries' d).mpr (((hentries d).mp hd).mono hsub)
    · rw [hentries, hentries']
      exact ⟨.mono hsub, .mono hsub'⟩
  · exact solve_mono hsub hstart hb hb' hw hlog'.solve_ne_disk

/-- Without the pair a word of two letters has no derivation; what there is below it stays. -/
theorem chart_mono_doubling :
    let s := quiet (.ofProductions (Grammar.doubling.productions.drop 1))
    let s' := quiet .doubling
    (∃ rows rows', (s.chart "aa" .first).1 = .ok rows ∧ (s'.chart "aa" .first).1 = .ok rows' ∧
      ∃ n n', cellAt rows 0 1 = some n ∧ cellAt rows' 0 1 = some n' ∧
        ∀ d ∈ n.derivations, d ∈ n'.derivations) ∧
    (s.solve "aa" .first).1 = .ok false ∧ (s'.solve "aa" .first).1 = .ok true ∧
      (s.solve "a" .first).1 = .ok true ∧ (s'.solve "a" .first).1 = .ok true := by
  intro s s'
  have hsub : s.grammar.productions ⊆ s'.grammar.productions := List.drop_subset 1 _
  have hb : Bench.first.store.Reachable (·.SameProductions s.grammar) := .new 1 false
  have hb' : Bench.first.store.Reachable (·.SameProductions s'.grammar) := .new 1 false
  obtain ⟨⟨rows, rows', hrows, hrows', hcells⟩, -⟩ :=
    chart_mono hsub hb hb' (show ("aa" : Text) ≠ [] by decide) (.inl rfl) (.inl rfl)
  obtain ⟨-, hsolve⟩ :=
    chart_mono hsub hb hb' (show ("a" : Text) ≠ [] by decide) (.inl rfl) (.inl rfl)
  obtain ⟨n, n', hn, hn', hmem, -⟩ := hcells 0 1 (by decide)
  have hone : (s.solve "a" .first).1 = .ok true := by decide +kernel
  exact ⟨⟨rows, rows', hrows, hrows', n, n', hn, hn', hmem⟩, by decide +kernel, by decide +kernel,
    hone, hsolve rfl hone⟩

end Pyramid.Solver
