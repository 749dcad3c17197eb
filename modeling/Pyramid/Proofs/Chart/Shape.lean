import Mathlib
import Pyramid.Proofs.Chart.Run

/-!
# The shape of stores and charts

`Store.Reachable` lists what can happen to a store: solvers chart, derive and decide words, a call
may be broken off when its journal is refused an entry, and the store may be cleared. The disk and
the time are whatever they are at each call.

Every such store is coherent, whatever the grammars of the solvers (`Reachable.coherent`), and exact
for the grammar if they all have the same productions (`Reachable.exact`). So no chart is ever found
inconsistent: `Reachable.shape` says that charting a word gives one row for each length, with one
node for each place, and that these are the nodes that the store has for the pieces of the word.
-/

namespace Pyramid

open Text

/-! ## Reachable stores -/

namespace Store

/-- The stores that solvers can leave behind whose grammars are among those that `P` admits. -/
inductive Reachable (P : Grammar → Prop) : Store → Prop where
  /-- A store without nodes. -/
  | new (number : Nat) (guarded : Bool) : Reachable P { number, guarded }
  | chart {b : Bench} (before : Reachable P b.store) (s : Solver) (admitted : P s.grammar)
      (word : Text) : Reachable P (s.chart word b).2.store
  | derive {b : Bench} (before : Reachable P b.store) (s : Solver) (admitted : P s.grammar)
      (word : Text) : Reachable P (s.derive word b).2.store
  | solve {b : Bench} (before : Reachable P b.store) (s : Solver) (admitted : P s.grammar)
      (word : Text) : Reachable P (s.solve word b).2.store
  /-- A call that is broken off by a refused entry, for whatever reason and after whatever row, has
  grown the rows up to there. -/
  | interrupted {b : Bench} (before : Reachable P b.store) (s : Solver) (admitted : P s.grammar)
      (word : Text) (count : Nat) : Reachable P (s.lowerRows word count b).2.store
  | clear {st : Store} (before : Reachable P st) : Reachable P st.clear

end Store

/-- A call that delivers has only made requests. -/
theorem Act.Delivers.requests {α : Type} {P : Grammar → Prop} {act : Act Bench α} {b : Bench}
    {Q : List Text → α → Store → Prop} (h : act.Delivers P b Q) :
    ∃ ts, Store.Requests P b.store ts (act b).2.store := by
  obtain ⟨ts, hts, -⟩ := h
  exact ⟨ts, hts⟩

/-- A call on a word has only made requests, if it does nothing for the empty word. -/
theorem Act.requests_of_word {α : Type} {P : Grammar → Prop} {call : Text → Act Bench α} {b : Bench}
    {Q : Text → List Text → α → Store → Prop} (hnil : (call [] b).2 = b)
    (hcall : ∀ word, word ≠ [] → (call word).Delivers P b (Q word)) (word : Text) :
    ∃ ts, Store.Requests P b.store ts (call word b).2.store := by
  by_cases hw : word = []
  · subst hw
    rw [hnil]
    exact ⟨[], .nil _⟩
  · exact (hcall word hw).requests

namespace Store

variable {P : Grammar → Prop} {st : Store}

/-- What holds of new stores and is kept by clearing, and by requests to a coherent store, holds of
every reachable store; and every reachable store is coherent. -/
theorem Reachable.inv {I : Store → Prop} (hnew : ∀ number guarded, I { number, guarded })
    (hclear : ∀ st, I st → I st.clear)
    (hrequests : ∀ st ts st', st.Coherent → I st → Requests P st ts st' → I st')
    (h : st.Reachable P) : st.Coherent ∧ I st := by
  -- All calls are alike: they only make requests, and these keep both.
  have hcall : ∀ {st st' : Store}, st.Coherent ∧ I st → (∃ ts, Requests P st ts st') →
      st'.Coherent ∧ I st' := by
    rintro st st' ⟨hc, hI⟩ ⟨ts, hts⟩
    exact ⟨hts.coherent hc, hrequests st ts st' hc hI hts⟩
  induction h with
  | new number guarded => exact ⟨coherent_of_empty fun _ => rfl, hnew number guarded⟩
  | chart _ s admitted word ih =>
    have hword := fun (word : Text) (hw : word ≠ []) =>
      Solver.delivers_chart (s := s) admitted ih.1 hw
    exact hcall ih (Act.requests_of_word rfl hword word)
  | derive _ s admitted word ih =>
    have hword := fun (word : Text) (hw : word ≠ []) =>
      Solver.delivers_derive (s := s) admitted ih.1 hw
    exact hcall ih (Act.requests_of_word rfl hword word)
  | solve _ s admitted word ih =>
    have hword := fun (word : Text) (hw : word ≠ []) =>
      Solver.delivers_solve (s := s) admitted ih.1 hw
    exact hcall ih (Act.requests_of_word rfl hword word)
  | interrupted _ s admitted word count ih =>
    exact hcall ih (Solver.delivers_lowerRows admitted ih.1 word count).requests
  | clear _ ih => exact ⟨coherent_of_empty (get?_clear _), hclear _ ih.2⟩

/-- **Every reachable store is coherent.** -/
theorem Reachable.coherent (h : st.Reachable P) : st.Coherent :=
  (h.inv (I := fun _ => True) (fun _ _ => trivial) (fun _ _ => trivial)
    (fun _ _ _ _ _ _ => trivial)).1

/-- **A store that was used with one set of productions only is exact for it.** -/
theorem Reachable.exact {g : Grammar} (h : st.Reachable (·.SameProductions g)) : st.Exact g :=
  (h.inv (I := (·.Exact g)) (fun _ _ => exact_of_empty fun _ => rfl)
    (fun _ _ => exact_of_empty (get?_clear _)) (fun _ _ _ hc he hts => hts.exact hc he)).2

/-! ## Nodes and charts -/

/-- **The shape of a reachable store, and of every chart that is grown on it.**

Every node is kept under its own text, which is not empty. The node of a character has no ancestors;
those of a longer text are the very nodes that the store has for the text without its last and
without its first character. So the chains are the nodes of all prefixes and of all suffixes.

Charting a word is never given up as inconsistent. The chart has a row for each length, and the node
at each place is the one that the store has for the piece of the word that begins there. -/
theorem Reachable.shape {b : Bench} (h : b.store.Reachable fun _ => True) :
    (∀ t n, b.store.get? t = some n →
      n.text = t ∧ t ≠ [] ∧
      (t.length = 1 → n.left = none ∧ n.right = none) ∧
      (2 ≤ t.length → ∃ l r, n.left = some l ∧ b.store.get? t.dropLast = some l ∧
        n.right = some r ∧ b.store.get? t.tail = some r) ∧
      b.store.Holds (prefixes t) n.leftChain ∧ n.leftChain.length = t.length ∧
      b.store.Holds (suffixes t) n.rightChain ∧ n.rightChain.length = t.length) ∧
    ∀ (s : Solver) (word : Text), word ≠ [] → (∀ e, (s.chart word b).1 ≠ .error (.disk e)) →
      ∃ rows, (s.chart word b).1 = .ok rows ∧ rows.length = word.length ∧
        ∀ k < word.length, ∃ row, rows[k]? = some row ∧ row.length = word.length - k ∧
          ∀ i < word.length - k, ∃ n, row[i]? = some n ∧
            (s.chart word b).2.store.get? ((word.drop i).take (k + 1)) = some n := by
  have hc := h.coherent
  refine ⟨?_, ?_⟩
  · intro t n hn
    have hlink := hc hn
    have hlefts := hc.leftChain hn
    have hrights := hc.rightChain hn
    refine ⟨hlink.text_eq, hlink.ne_nil, hlink.single, ?_, hlefts, ?_, hrights, ?_⟩
    · intro h2
      obtain ⟨l, hl, hgetl⟩ := hlink.left h2
      obtain ⟨r, hr, hgetr⟩ := hlink.right h2
      exact ⟨l, r, hl, hgetl, hr, hgetr⟩
    · rw [hlefts.length_eq, length_prefixes]
    · rw [hrights.length_eq, length_suffixes]
  · intro s word hw hlog
    have hchart := Solver.delivers_chart (P := fun _ => True) (s := s) trivial hc hw
    obtain ⟨-, rows, hok, -, -, hrows⟩ := hchart.exists_ok hlog
    refine ⟨rows, hok, by simpa using hrows.length_eq.symm, ?_⟩
    intro k hk
    obtain ⟨row, hrow, hholds⟩ := hrows.getElem? hk
    refine ⟨row, hrow, ?_, ?_⟩
    · rw [hholds.length_eq, length_windows]
      omega
    · intro i hi
      exact hholds.getElem? (getElem?_windows (by omega))

end Store

/-! ## A small run -/

/-- All non-empty sequences of `a`, with all their bracketings. -/
def Grammar.doubling : Grammar :=
  .ofProductions [⟨"S", .pair "S" "S", by decide, by decide⟩,
    ⟨"S", .terminal "a", by decide, by decide⟩]

/-- A new store on an empty disk. -/
def Bench.first : Bench := ⟨{ number := 1, guarded := false }, .empty [], ⟨1, 1, 0, 0, 0⟩⟩

/-- A solver that keeps no journal. -/
def Solver.quiet (g : Grammar) : Solver := ⟨g, Solver.defaultStart, Solver.silentJournal⟩

/-- A chart that is broken off after its second row, the chart of another grammar on what it left
behind, and then the first chart once more. -/
theorem Store.Reachable.shape_of_interrupted :
    let broken := (Solver.quiet .doubling).lowerRows "aba" 1 .first
    let other := (Solver.quiet (.ofProductions [])).chart "bab" broken.2
    let b := other.2
    (∃ n, b.store.get? "ab" = some n ∧ n.leftChain.length = 2) ∧
      ∃ rows, ((Solver.quiet .doubling).chart "aba" b).1 = .ok rows ∧ rows.length = 3 := by
  intro broken other b
  have hbroken : broken.2.store.Reachable fun _ => True :=
    .interrupted (b := .first) (.new 1 false) _ trivial _ _
  have hb : b.store.Reachable fun _ => True := by
    -- Otherwise the chart would be carried out to see that it is one.
    clear_value broken
    exact .chart hbroken _ trivial _
  obtain ⟨hnodes, hcharts⟩ := Store.Reachable.shape hb
  refine ⟨?_, ?_⟩
  · have hsome : (b.store.get? "ab").isSome = true := by decide +kernel
    obtain ⟨n, hn⟩ := Option.isSome_iff_exists.mp hsome
    obtain ⟨-, -, -, -, -, hlen, -⟩ := hnodes "ab" n hn
    exact ⟨n, hn, hlen⟩
  · have hok : ((Solver.quiet .doubling).chart "aba" b).1.isOk = true := by decide +kernel
    obtain ⟨rows, hrows, hlen, -⟩ := hcharts _ "aba" (by decide)
      (fun _ => Act.ne_error_of_isOk hok _)
    exact ⟨rows, hrows, hlen⟩

end Pyramid
