import Mathlib
import Pyramid.Proofs.Chart.Shape

/-!
# The chart as a table

The textbook decides words with a table: a cell for every length and every place, filled from the
shorter lengths by a loop over all splits, over all pairs of variables and over all productions.
`Grammar.cykTable` is that table, without stores, chains or look-ups.

The chart, which keeps no table and takes most of its nodes from other words, has the same cells.
Its nodes hold in addition how each variable comes about: `Solver.chart_exactCell` says for every
cell of every chart which derivations it holds and from which cells they come. The specification
names the agreement of the two among its testable properties (§8).
-/

namespace Pyramid

open Text

/-- What stands at a place of the row at a height. -/
def cellAt {α : Type} (rows : List (List α)) (k i : Nat) : Option α := rows[k]?.bind (·[i]?)

theorem cellAt_eq_some {α : Type} {rows : List (List α)} {row : List α} {k i : Nat} {a : α}
    (hrow : rows[k]? = some row) (ha : row[i]? = some a) : cellAt rows k i = some a := by
  unfold cellAt
  rw [hrow]
  exact ha

/-! ## The textbook's table -/

namespace Grammar

/-- The heads of all listed productions with a body. -/
def headsWith (g : Grammar) (body : Body) : List Text :=
  (g.productions.filter (·.body = body)).map (·.head)

/-- The cell at a height and a place, from the rows below: for each split, each variable of the left
half and each variable of the right half, the heads of the pair. -/
def cykCell (g : Grammar) (rows : List (List (SortedSet Text))) (k i : Nat) : SortedSet Text :=
  .ofList <| (List.range' 1 k).flatMap fun j =>
    ((cellAt rows (j - 1) i).getD ∅).toList.flatMap fun b =>
      ((cellAt rows (k - j) (i + j)).getD ∅).toList.flatMap fun c => g.headsWith (.pair b c)

/-- The rows of the table up to a height. -/
def cykRows (g : Grammar) (word : Text) : (height : Nat) → List (List (SortedSet Text))
  | 0 => [word.map fun c => .ofList (g.headsWith (.terminal [c]))]
  | k + 1 =>
    let rows := g.cykRows word k
    rows ++ [(List.range (word.length - (k + 1))).map (g.cykCell rows (k + 1))]

/-- The table of a word. -/
def cykTable (g : Grammar) (word : Text) : List (List (SortedSet Text)) :=
  g.cykRows word (word.length - 1)

variable {g : Grammar} {word : Text}

theorem mem_headsWith {a : Text} {body : Body} : a ∈ g.headsWith body ↔ g.HasRule a body := by
  simp only [headsWith, HasRule, List.mem_map, List.mem_filter, decide_eq_true_eq]
  constructor
  · rintro ⟨p, ⟨hp, hb⟩, ha⟩
    exact ⟨p, hp, ha, hb⟩
  · rintro ⟨p, hp, ha, hb⟩
    exact ⟨p, ⟨hp, hb⟩, ha⟩

/-- The cell holds the variables that yield the piece of the word at its place. -/
def IsCell (g : Grammar) (word : Text) (rows : List (List (SortedSet Text))) (k i : Nat) : Prop :=
  ∃ c, cellAt rows k i = some c ∧ ∀ a, a ∈ c ↔ g.Yields a ((word.drop i).take (k + 1))

theorem mem_cykCell {rows : List (List (SortedSet Text))} {k i : Nat} (hk : 1 ≤ k)
    (hi : i + k < word.length)
    (hrows : ∀ k' i', k' < k → i' + k' < word.length → g.IsCell word rows k' i') {a : Text} :
    a ∈ g.cykCell rows k i ↔ g.Yields a ((word.drop i).take (k + 1)) := by
  have hlen : ((word.drop i).take (k + 1)).length = k + 1 := length_window (by omega)
  -- The two cells of a split hold what yields its two halves.
  have hcells : ∀ j, 1 ≤ j → j ≤ k → ∀ b c,
      b ∈ (cellAt rows (j - 1) i).getD ∅ ∧ c ∈ (cellAt rows (k - j) (i + j)).getD ∅ ↔
        g.Yields b (((word.drop i).take (k + 1)).take j) ∧
          g.Yields c (((word.drop i).take (k + 1)).drop j) := by
    intro j hj hjk b c
    obtain ⟨x, hx, hx'⟩ := hrows (j - 1) i (by omega) (by omega)
    obtain ⟨y, hy, hy'⟩ := hrows (k - j) (i + j) (by omega) (by omega)
    have hleft : j - 1 + 1 = j := by omega
    have hright : k - j + 1 = k + 1 - j := by omega
    rw [hx, hy, Option.getD_some, Option.getD_some, hx', hy', take_window (by omega), drop_window,
      hleft, hright]
  simp only [cykCell, SortedSet.mem_ofList, List.mem_flatMap, ← SortedSet.mem_iff, mem_headsWith,
    List.mem_range'_1]
  rw [yields_iff_of_two_le (by omega), hlen]
  constructor
  · rintro ⟨j, hj, b, hb, c, hc, hrule⟩
    obtain ⟨hb', hc'⟩ := (hcells j hj.1 (by omega) b c).mp ⟨hb, hc⟩
    exact ⟨j, b, c, hj.1, by omega, hrule, hb', hc'⟩
  · rintro ⟨j, b, c, hj, hj', hrule, hb, hc⟩
    obtain ⟨hb', hc'⟩ := (hcells j hj (by omega) b c).mpr ⟨hb, hc⟩
    exact ⟨j, by omega, b, hb', c, hc', hrule⟩

theorem length_cykRows (g : Grammar) (word : Text) (height : Nat) :
    (g.cykRows word height).length = height + 1 := by
  induction height with
  | zero => rfl
  | succ k ih => rw [cykRows, List.length_append, ih, List.length_singleton]

/-- Every row of the table is right once it is there. -/
theorem isCell_cykRows {height k i : Nat} (hk : k ≤ height) (hi : i + k < word.length) :
    g.IsCell word (g.cykRows word height) k i := by
  induction height generalizing k i with
  | zero =>
    obtain rfl : k = 0 := by omega
    have hchar : (word.drop i).take 1 = [word[i]] := by
      rw [List.drop_eq_getElem_cons (by omega)]
      rfl
    refine ⟨.ofList (g.headsWith (.terminal [word[i]])), ?_, ?_⟩
    · refine cellAt_eq_some rfl ?_
      rw [List.getElem?_map, List.getElem?_eq_getElem (by omega)]
      rfl
    · intro a
      rw [hchar, SortedSet.mem_ofList, mem_headsWith, yields_singleton_iff]
  | succ m ih =>
    have hlen := length_cykRows g word m
    by_cases hkm : k ≤ m
    · -- A row below the new one is as it was.
      obtain ⟨c, hc, hmem⟩ := ih hkm hi
      refine ⟨c, ?_, hmem⟩
      unfold cellAt at hc ⊢
      rw [cykRows, List.getElem?_append_left (by omega)]
      exact hc
    · obtain rfl : k = m + 1 := by omega
      refine ⟨g.cykCell (g.cykRows word m) (m + 1) i, ?_, ?_⟩
      · have hrow : (g.cykRows word (m + 1))[m + 1]?
            = some ((List.range (word.length - (m + 1))).map
              (g.cykCell (g.cykRows word m) (m + 1))) := by
          rw [cykRows, List.getElem?_append_right (by omega), hlen, Nat.sub_self]
          rfl
        refine cellAt_eq_some hrow ?_
        rw [List.getElem?_map, List.getElem?_range (by omega)]
        rfl
      · intro a
        refine mem_cykCell (by omega) hi ?_
        intro k' i' hk' hi'
        exact ih (by omega) hi'

/-- **The cells of the table hold the variables that yield the pieces of the word.** -/
theorem isCell_cykTable {k i : Nat} (hi : i + k < word.length) :
    g.IsCell word (g.cykTable word) k i :=
  isCell_cykRows (by omega) hi

end Grammar

/-! ## The cells of a chart -/

/-- The derivation is a production for a pair of variables, one of each of the two cells that meet
at its offset. -/
def PairAt (g : Grammar) (rows : List Row) (k i : Nat) (d : Derivation) : Prop :=
  ∃ (j : Nat) (b c : Text) (l r : Node), 1 ≤ j ∧ j ≤ k ∧
    cellAt rows (j - 1) i = some l ∧ cellAt rows (k - j) (i + j) = some r ∧
    b ∈ l.heads ∧ c ∈ r.heads ∧
    d.production ∈ g.productions ∧ d.production.body = .pair b c ∧ d.offset = j

/-- The node at a height and a place of a chart, seen as a cell of the textbook's table. -/
structure ExactCell (g : Grammar) (word : Text) (rows : List Row) (k i : Nat) (n : Node) :
    Prop where
  text_eq : n.text = (word.drop i).take (k + 1)
  /-- In the bottom row stand the one-symbol productions of the character. -/
  bottom : k = 0 → ∀ d, d ∈ n.derivations ↔
    d.production ∈ g.productions ∧ d.production.body = .terminal n.text ∧ d.offset = 0
  /-- Above it stand the pairs over all splits. -/
  above : 1 ≤ k → ∀ d, d ∈ n.derivations ↔ PairAt g rows k i d
  /-- The variables are those of the table. -/
  heads_eq : cellAt (g.cykTable word) k i = some n.heads
  /-- The pairs of nodes that were looked at are the two cells of each split, every split once, the
  last one first. -/
  visited : 1 ≤ k → ∃ l r, n.left = some l ∧ n.right = some r ∧
    (l.leftChain.zip r.rightChain.reverse).map (Prod.map some some)
      = (List.range' 1 k).reverse.map fun j => (cellAt rows (j - 1) i, cellAt rows (k - j) (i + j))
  /-- A one-symbol production has no place above the bottom row. -/
  no_terminal : 1 ≤ k → ∀ d ∈ n.derivations, d.production.body.isTerminal = false

theorem PairAt.not_isTerminal {g : Grammar} {rows : List Row} {k i : Nat} {d : Derivation}
    (h : PairAt g rows k i d) : d.production.body.isTerminal = false := by
  obtain ⟨_, _, _, _, _, _, _, _, _, _, _, _, hbody, _⟩ := h
  rw [hbody]
  rfl

namespace Store

variable {st : Store} {g : Grammar} {word : Text} {rows : List Row} {k i : Nat} {n : Node}

theorem HoldsRows.exists_cell (h : st.HoldsRows word (List.range word.length) rows)
    (hi : i + k < word.length) :
    ∃ n, cellAt rows k i = some n ∧ st.get? ((word.drop i).take (k + 1)) = some n := by
  obtain ⟨row, hrow, hholds⟩ := h.getElem? (k := k) (by omega)
  obtain ⟨n, hn, hget⟩ := hholds.getElem? (getElem?_windows (i := i) (by omega))
  exact ⟨n, cellAt_eq_some hrow hn, hget⟩

/-- The two cells of a split are the nodes that the store has for its two halves. -/
theorem HoldsRows.cells_of_split (h : st.HoldsRows word (List.range word.length) rows)
    (hi : i + k < word.length) {j : Nat} (hj : 1 ≤ j) (hjk : j ≤ k) :
    cellAt rows (j - 1) i = st.get? (((word.drop i).take (k + 1)).take j) ∧
      cellAt rows (k - j) (i + j) = st.get? (((word.drop i).take (k + 1)).drop j) := by
  obtain ⟨l, hl, hgetl⟩ := h.exists_cell (k := j - 1) (i := i) (by omega)
  obtain ⟨r, hr, hgetr⟩ := h.exists_cell (k := k - j) (i := i + j) (by omega)
  have hleft : j - 1 + 1 = j := by omega
  have hright : k - j + 1 = k + 1 - j := by omega
  rw [hl, hr, take_window (by omega), drop_window, ← hgetl, ← hgetr, hleft, hright]
  exact ⟨rfl, rfl⟩

/-- Above the bottom row entries are pairs over a split, and a split is a pair of cells. -/
theorem HoldsRows.mem_derivations_iff (h : st.HoldsRows word (List.range word.length) rows)
    (he : st.Exact g) (hi : i + k < word.length) (hk : 1 ≤ k)
    (hget : st.get? ((word.drop i).take (k + 1)) = some n) {d : Derivation} :
    d ∈ n.derivations ↔ PairAt g rows k i d := by
  have hlen : ((word.drop i).take (k + 1)).length = k + 1 := length_window (by omega)
  rw [he hget, Grammar.entry_iff_of_two_le (by omega), hlen]
  constructor
  · rintro ⟨j, b, c, hj, hj', hb, hcv, hp, hbody, ho⟩
    obtain ⟨hleft, hright⟩ := h.cells_of_split hi hj (by omega)
    obtain ⟨l, hl, -⟩ := h.exists_cell (k := j - 1) (i := i) (by omega)
    obtain ⟨r, hr, -⟩ := h.exists_cell (k := k - j) (i := i + j) (by omega)
    exact ⟨j, b, c, l, r, hj, by omega, hl, hr, (he.mem_heads (hleft ▸ hl)).mpr hb,
      (he.mem_heads (hright ▸ hr)).mpr hcv, hp, hbody, ho⟩
  · rintro ⟨j, b, c, l, r, hj, hj', hl, hr, hb, hcv, hp, hbody, ho⟩
    obtain ⟨hleft, hright⟩ := h.cells_of_split hi hj hj'
    exact ⟨j, b, c, hj, by omega, (he.mem_heads (hleft ▸ hl)).mp hb,
      (he.mem_heads (hright ▸ hr)).mp hcv, hp, hbody, ho⟩

/-- The pairs that combining looked at are the cells of all splits. -/
theorem HoldsRows.visited (h : st.HoldsRows word (List.range word.length) rows)
    (hc : st.Coherent) (hi : i + k < word.length) (hk : 1 ≤ k)
    (hget : st.get? ((word.drop i).take (k + 1)) = some n) :
    ∃ l r, n.left = some l ∧ n.right = some r ∧
      (l.leftChain.zip r.rightChain.reverse).map (Prod.map some some)
        = (List.range' 1 k).reverse.map fun j =>
          (cellAt rows (j - 1) i, cellAt rows (k - j) (i + j)) := by
  have hlen : ((word.drop i).take (k + 1)).length = k + 1 := length_window (by omega)
  obtain ⟨l, hl, hgetl⟩ := (hc hget).left (by omega)
  obtain ⟨r, hr, hgetr⟩ := (hc hget).right (by omega)
  refine ⟨l, r, hl, hr, ?_⟩
  rw [hc.visited hgetl hgetr, splits, hlen, List.map_map]
  refine List.map_congr_left fun j hj => ?_
  rw [List.mem_reverse, List.mem_range'_1] at hj
  obtain ⟨hleft, hright⟩ := h.cells_of_split hi hj.1 (by omega)
  rw [hleft, hright]
  rfl

/-- **The rows of an exact store are the textbook's table, with back-pointers.** -/
theorem HoldsRows.exactCell (h : st.HoldsRows word (List.range word.length) rows)
    (hc : st.Coherent) (he : st.Exact g) (hi : i + k < word.length) :
    ∃ n, cellAt rows k i = some n ∧ ExactCell g word rows k i n := by
  obtain ⟨n, hcell, hget⟩ := h.exists_cell hi
  have htext : n.text = (word.drop i).take (k + 1) := (hc hget).text_eq
  refine ⟨n, hcell, htext, ?_, ?_, ?_, ?_, ?_⟩
  · intro hk d
    obtain rfl := hk
    have hone : ((word.drop i).take 1).length = 1 := length_window (by omega)
    obtain ⟨c, hchar⟩ := List.length_eq_one_iff.mp hone
    rw [he hget, htext, hchar, Grammar.entry_singleton_iff]
  · intro hk d
    exact h.mem_derivations_iff he hi hk hget
  · obtain ⟨heads, hheads, hmem⟩ := g.isCell_cykTable hi
    rw [hheads]
    refine congrArg some (SortedSet.ext_mem fun a => ?_)
    rw [hmem, he.mem_heads hget]
  · intro hk
    exact h.visited hc hi hk hget
  · intro hk d hd
    exact ((h.mem_derivations_iff he hi hk hget).mp hd).not_isTerminal

end Store

/-- **A chart is an exact table with back-pointers**, on whatever store it is grown that solvers
with the same productions have left behind. -/
theorem Solver.chart_exactCell {g : Grammar} {s : Solver} {b : Bench} {word : Text}
    (hs : s.grammar.SameProductions g) (hb : b.store.Reachable (·.SameProductions g))
    (hw : word ≠ []) (hlog : ∀ e, (s.chart word b).1 ≠ .error (.disk e)) :
    ∃ rows, (s.chart word b).1 = .ok rows ∧ ∀ k i, i + k < word.length →
      ∃ n, cellAt rows k i = some n ∧ ExactCell g word rows k i n := by
  have hc := hb.coherent
  have hchart := Solver.delivers_chart (P := (·.SameProductions g)) hs hc hw
  obtain ⟨ts, rows, hok, hreq, -, hrows⟩ := hchart.exists_ok hlog
  refine ⟨rows, hok, fun k i hi => ?_⟩
  exact hrows.exactCell (hreq.coherent hc) (hreq.exact hc hb.exact) hi

/-- The top cell of a word whose chart was broken off once before. -/
theorem Solver.chart_exactCell_doubling :
    let s := Solver.quiet .doubling
    let b := (s.lowerRows "aba" 1 .first).2
    ∃ rows, (s.chart "aaba" b).1 = .ok rows ∧
      ∃ n, cellAt rows 3 0 = some n ∧ ExactCell .doubling "aaba" rows 3 0 n := by
  intro s b
  have hb : b.store.Reachable (·.SameProductions .doubling) :=
    .interrupted (b := .first) (.new 1 false) s (.refl _) _ _
  have hok : (s.chart "aaba" b).1.isOk = true := by decide +kernel
  obtain ⟨rows, hrows, hcells⟩ := Solver.chart_exactCell (.refl _) hb (by decide)
    (fun _ => Act.ne_error_of_isOk hok _)
  exact ⟨rows, hrows, hcells 3 0 (by decide)⟩

end Pyramid
