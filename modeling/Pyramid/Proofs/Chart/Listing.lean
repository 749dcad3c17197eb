import Mathlib
import Pyramid.Proofs.Chart.Shape
import Pyramid.Proofs.Grammar.Format

/-!
# Listings read back

The listing of a node has its derivations as text, one on a line. Symbols may hold dashes, brackets
and digits, and a body of two variables has a space inside, so it takes an argument that nothing is
lost.

* A line is taken apart at its first arrow and then at its last ` (` (`Derivation.parts?`), and the
  derivation is made again from the parts (`Derivation.read?`). For a derivation that is writable
  this gives the derivation back (`read?_text`): the arrow stands at one place only, and behind the
  last ` (` there are digits and one bracket.
* The lines of a node whose derivations are writable are in strictly increasing order, and reading
  them back gives the derivations, each once (`pairwise_lines`, `map_read?_lines`).
* Whatever has been done with a store, its nodes hold productions of the grammars it was used with
  (`Store.Reachable.drawn`). Those of a grammar that was read are writable.

`Node.IsCharted.lossless` says this of every node of every chart.
-/

namespace Pyramid

/-! ## Cutting at a mark -/

namespace Text

variable {mark t u v : Text}

/-- The parts before and after the first place where the mark stands. -/
def cutAtFirst (mark : Text) : Text → Option (Text × Text)
  | [] => (dropStart? mark []).map fun rest => ([], rest)
  | c :: t =>
    match dropStart? mark (c :: t) with
    | some rest => some ([], rest)
    | none => (cutAtFirst mark t).map fun (before, after) => (c :: before, after)

/-- The parts before and after the last place where the mark stands. -/
def cutAtLast (mark t : Text) : Option (Text × Text) :=
  (cutAtFirst mark.reverse t.reverse).map fun (before, after) => (after.reverse, before.reverse)

theorem dropStart?_append (mark rest : Text) : dropStart? mark (mark ++ rest) = some rest :=
  dropStart?_eq_some.mpr rfl

/-- The text is cut where no other place of the mark comes before. -/
theorem cutAtFirst_eq_some (ht : t = u ++ mark ++ v)
    (hfirst : ∀ u' v', t = u' ++ mark ++ v' → u.length ≤ u'.length) :
    cutAtFirst mark t = some (u, v) := by
  induction t generalizing u with
  | nil =>
    obtain ⟨rfl, rfl, rfl⟩ : u = [] ∧ mark = [] ∧ v = [] := by simpa using ht.symm
    rfl
  | cons c t ih =>
    unfold cutAtFirst
    cases u with
    | nil =>
      rw [ht, List.nil_append, dropStart?_append]
    | cons d u =>
      obtain ⟨rfl, ht'⟩ : c = d ∧ t = u ++ mark ++ v := by simpa using ht
      -- The mark does not stand at the very beginning: that would be an earlier place.
      have hnone : dropStart? mark (c :: t) = none := by
        refine Option.eq_none_iff_forall_ne_some.mpr fun rest hrest => ?_
        have hlen := hfirst [] rest (dropStart?_eq_some.mp hrest)
        simp at hlen
      have hcut : cutAtFirst mark t = some (u, v) := by
        refine ih ht' fun u' v' h' => ?_
        have hlen := hfirst (c :: u') v' (by rw [h']; rfl)
        simpa using hlen
      rw [hnone, hcut]
      rfl

/-- The text is cut where no other place of the mark comes behind. -/
theorem cutAtLast_eq_some (ht : t = u ++ mark ++ v)
    (hlast : ∀ u' v', t = u' ++ mark ++ v' → v.length ≤ v'.length) :
    cutAtLast mark t = some (u, v) := by
  have hcut : cutAtFirst mark.reverse t.reverse = some (v.reverse, u.reverse) := by
    refine cutAtFirst_eq_some (by simp [ht]) fun u' v' h' => ?_
    have hback : t = v'.reverse ++ mark ++ u'.reverse := by
      rw [← List.reverse_reverse t, h']
      simp
    simpa using hlast _ _ hback
  unfold cutAtLast
  rw [hcut]
  simp

/-- The last place of a mark that begins with a space is not after the text's last space. -/
theorem length_le_of_append_eq {d : Char} (hv : ' ' ∉ v) (hd : d ≠ ' ') {u' v' : Text}
    (h : u ++ [' ', d] ++ v = u' ++ [' ', d] ++ v') : v.length ≤ v'.length := by
  rw [List.append_assoc, List.append_assoc] at h
  rcases List.append_eq_append_iff.mp h with ⟨w, rfl, hw⟩ | ⟨w, rfl, hw⟩
  · -- The other place begins in the mark or behind it, and only its first character is a space.
    rcases w with - | ⟨a, - | ⟨b, w⟩⟩
    · simp at hw
      simp [hw]
    · simp at hw
      exact absurd hw.2.1 hd
    · simp at hw
      exact absurd (by simp [hw.2.2]) hv
  · have hlen := congrArg List.length hw
    simp at hlen
    omega

theorem notMem_ofNat {c : Char} (hc : c.isDigit = false) (n : Nat) : c ∉ ofNat n := by
  intro h
  have hdigit := Nat.isDigit_of_mem_toDigits (b := 10) (by omega) (by omega) h
  rw [hc] at hdigit
  cases hdigit

/-! ## Sorted texts -/

theorem isLE_compare_total (a b : Text) : ((compare a b).isLE || (compare b a).isLE) = true := by
  rw [Std.OrientedOrd.eq_swap (a := b)]
  cases compare a b <;> rfl

theorem sort_perm (ts : List Text) : (sort ts).Perm ts := List.mergeSort_perm ts _

/-- Texts that are all different are sorted into strictly increasing order. -/
theorem pairwise_sort {ts : List Text} (h : ts.Nodup) :
    (sort ts).Pairwise fun a b => compare a b = .lt := by
  have hle : (sort ts).Pairwise fun a b => (compare a b).isLE = true := by
    refine List.pairwise_mergeSort ?_ isLE_compare_total ts
    exact fun _ _ _ => Std.TransOrd.isLE_trans
  have hnodup : (sort ts).Nodup := (sort_perm ts).nodup_iff.mpr h
  refine (hle.and hnodup).imp fun ⟨hab, hne⟩ => ?_
  rcases Ordering.isLE_iff_eq_lt_or_eq_eq.mp hab with hlt | heq
  · exact hlt
  · exact absurd (Std.LawfulEqOrd.eq_of_compare heq) hne

end Text

open Text

/-! ## One line -/

namespace Derivation

variable {d : Derivation}

/-- A line taken apart: the head before the first arrow, the key between it and the last ` (`, and
the number behind that, without the closing bracket. -/
def parts? (line : Text) : Option (Text × Text × Text) := do
  let (head, rest) ← cutAtFirst Production.arrow line
  let (key, number) ← cutAtLast " (" rest
  return (head, key, number.dropLast)

/-- The derivation on a line. -/
def read? (line : Text) : Option Derivation := do
  let (head, key, number) ← parts? line
  let production ← (Production.ofTexts head key).toOption
  return ⟨production, Nat.ofDigitChars 10 number 0⟩

/-- The production can be written, and the offset is a number of characters. -/
structure IsWritable (d : Derivation) : Prop where
  production : Grammar.IsWritable d.production
  offset : 0 ≤ d.offset

theorem IsWritable.exists_offset (h : d.IsWritable) : ∃ k : Nat, d.offset = k :=
  Int.eq_ofNat_of_zero_le h.offset

/-- No arrow stands in the key, and none in what follows it on the line. -/
theorem isArrowFree_behind {key : Text} (h : Grammar.IsArrowFree key) (k : Nat) :
    Grammar.IsArrowFree (key ++ " (" ++ (ofNat k ++ ")")) := by
  have hnumber : Grammar.IsArrowFree ('(' :: (ofNat k ++ ")")) := by
    refine (List.pairwise_of_forall_mem_list fun a _ b hb => ?_).isChain
    rintro ⟨-, rfl⟩
    simp [notMem_ofNat] at hb
  have hjoin := h.join hnumber
  simpa using hjoin

theorem text_eq {k : Nat} (hk : d.offset = k) :
    d.text = d.production.head ++ Production.arrow
      ++ (d.production.key ++ " (" ++ (ofNat k ++ ")")) := by
  unfold text Production.text
  rw [hk]
  simp [ofInt]

/-- **A writable derivation is taken apart into its head, its key and its offset.** -/
theorem parts?_text (h : d.IsWritable) :
    parts? d.text = some (d.production.head, d.production.key, ofInt d.offset) := by
  obtain ⟨k, hk⟩ := h.exists_offset
  -- There is only one arrow, so it is the first.
  have hfirst : cutAtFirst Production.arrow d.text
      = some (d.production.head, d.production.key ++ " (" ++ (ofNat k ++ ")")) := by
    have hcut := Grammar.cutAtArrow_iff.mpr
      (Grammar.arrowParts_append h.production.head_free
        (isArrowFree_behind h.production.key_free k))
    refine cutAtFirst_eq_some (text_eq hk) fun u v huv => ?_
    rw [((hcut u v).mp (by rw [← text_eq hk, huv])).1]
  -- Behind the last one there is no space any more, only digits and a bracket.
  have hlast : cutAtLast " (" (d.production.key ++ " (" ++ (ofNat k ++ ")"))
      = some (d.production.key, ofNat k ++ ")") := by
    refine cutAtLast_eq_some rfl fun u v huv => ?_
    exact length_le_of_append_eq (by simp [notMem_ofNat]) (by decide) huv
  simp only [parts?, hfirst, hlast, hk, Option.bind_eq_bind, Option.bind_some]
  simp [ofInt]

/-- **A writable derivation is read back from its line.** -/
theorem read?_text (h : d.IsWritable) : read? d.text = some d := by
  obtain ⟨k, hk⟩ := h.exists_offset
  have hnumber : (Nat.ofDigitChars 10 (ofInt d.offset) 0 : Int) = d.offset := by
    rw [hk]
    exact congrArg _ (Nat.ofDigitChars_toDigits (by omega) (by omega))
  simp only [read?, parts?_text h, Production.ofTexts_head_key, Option.bind_eq_bind,
    Option.bind_some]
  exact congrArg some (Derivation.ext rfl hnumber)

theorem newline_notMem_text (h : d.IsWritable) : '\n' ∉ d.text := by
  obtain ⟨k, hk⟩ := h.exists_offset
  have hline : '\n' ∉ d.production.text := h.production.one_line
  unfold text
  rw [hk]
  simp [hline, ofInt, notMem_ofNat]

end Derivation

/-! ## All lines of a node -/

namespace Node

variable {n m : Node}

/-- The lines of the listing. -/
def lines (n : Node) : List Text := n.listing.splitOn '\n'

/-- All derivations of the node can be written. -/
def IsWritable (n : Node) : Prop := ∀ d ∈ n.derivations, d.IsWritable

theorem lines_eq (h : n.IsWritable) (hn : n.isDerivable = true) :
    n.lines = sort (n.derivations.toList.map (·.text)) := by
  refine splitOn_join ?_ ?_
  · intro hnil
    have hempty : n.derivations.toList.map (·.text) = [] := by
      rw [← List.perm_nil, ← hnil]
      exact (sort_perm _).symm
    rw [List.map_eq_nil_iff] at hempty
    simp [isDerivable, SortedSet.isEmpty, hempty] at hn
  · intro line hline
    obtain ⟨d, hd, rfl⟩ := List.mem_map.mp (mem_sort.mp hline)
    exact Derivation.newline_notMem_text (h d hd)

theorem nodup_texts (h : n.IsWritable) : (n.derivations.toList.map (·.text)).Nodup := by
  refine List.Nodup.map_on (fun d hd e he heq => ?_) n.derivations.nodup_toList
  have hread := congrArg Derivation.read? heq
  rw [Derivation.read?_text (h d hd), Derivation.read?_text (h e he)] at hread
  exact Option.some.inj hread

theorem pairwise_lines (h : n.IsWritable) (hn : n.isDerivable = true) :
    n.lines.Pairwise fun a b => compare a b = .lt := by
  rw [lines_eq h hn]
  exact pairwise_sort (nodup_texts h)

theorem map_read?_lines (h : n.IsWritable) (hn : n.isDerivable = true) :
    (n.lines.map Derivation.read?).Perm (n.derivations.toList.map some) := by
  have hread : (n.derivations.toList.map (·.text)).map Derivation.read?
      = n.derivations.toList.map some := by
    rw [List.map_map]
    exact List.map_congr_left fun d hd => Derivation.read?_text (h d hd)
  rw [lines_eq h hn, ← hread]
  exact (sort_perm _).map _

theorem lines_of_not_isDerivable (hn : n.isDerivable = false) : n.lines = [[]] := by
  have hnil : n.derivations.toList = [] := by
    simpa [isDerivable, SortedSet.isEmpty] using hn
  simp [lines, listing, hnil, sort]

/-- The derivations of a node are what its lines are read as. -/
theorem mem_derivations_iff (h : n.IsWritable) {d : Derivation} :
    d ∈ n.derivations ↔ some d ∈ n.lines.map Derivation.read? := by
  cases hn : n.isDerivable with
  | true => simp [(map_read?_lines h hn).mem_iff, SortedSet.mem_iff]
  | false =>
    -- The listing is empty. Cut into lines it is one empty line, which is read as nothing.
    have hempty : n.derivations.isEmpty = true := by simpa [isDerivable] using hn
    have hnone : Derivation.read? [] = none := rfl
    simp [lines_of_not_isDerivable hn, hnone, SortedSet.isEmpty_iff.mp hempty d]

theorem derivations_eq_of_listing_eq (hn : n.IsWritable) (hm : m.IsWritable)
    (h : n.listing = m.listing) : n.derivations = m.derivations := by
  refine SortedSet.ext_mem fun d => ?_
  rw [mem_derivations_iff hn, mem_derivations_iff hm]
  unfold lines
  rw [h]

end Node

/-! ## Where derivations come from -/

/-- The derivation is one with a production of an admitted grammar. -/
def Derivation.IsDrawn (P : Grammar → Prop) (d : Derivation) : Prop :=
  ∃ g, P g ∧ d.production ∈ g.productions ∧ 0 ≤ d.offset

namespace Store

variable {P : Grammar → Prop} {st st' : Store} {t : Text} {ts : List Text}

/-- All derivations of all nodes of the store are drawn from admitted grammars. -/
def Drawn (P : Grammar → Prop) (st : Store) : Prop :=
  ∀ ⦃t n⦄, st.get? t = some n → ∀ d ∈ n.derivations, d.IsDrawn P

theorem drawn_of_empty (h : ∀ t, st.get? t = none) : st.Drawn P := by
  intro t n hn
  rw [h t] at hn
  cases hn

theorem Drawn.take {n : Node} (hst : st.Drawn P) (hn : ∀ d ∈ n.derivations, d.IsDrawn P) :
    (st.take n).Drawn P := by
  intro t m hm
  rw [get?_take] at hm
  by_cases he : n.text = t
  · rw [if_pos he] at hm
    cases hm
    exact hn
  · rw [if_neg he] at hm
    exact hst hm

theorem Request.drawn (h : Request P st t st') (hst : st.Drawn P) : st'.Drawn P := by
  cases h with
  | found => exact hst
  | @seeded g c admitted =>
    refine hst.take fun d hd => ?_
    obtain ⟨hp, -, ho⟩ := Grammar.entry_singleton_iff.mp (Grammar.mem_derivationsOf.mp hd)
    exact ⟨g, admitted, hp, ho.ge⟩
  | @combined g _ l r n admitted _ _ _ _ made =>
    obtain ⟨-, rfl⟩ := Grammar.combine_eq_ok_iff.mp made
    refine hst.take fun d hd => ?_
    -- Which nodes met at the split does not matter, nor whose grammar they come from.
    obtain ⟨⟨x, y⟩, -, hd⟩ := List.mem_flatMap.mp (SortedSet.mem_ofList.mp hd)
    obtain ⟨b, -, c, -, hp, -, ho⟩ := Grammar.mem_derivationsAt.mp hd
    exact ⟨g, admitted, hp, by omega⟩

theorem Requests.drawn (h : Requests P st ts st') (hst : st.Drawn P) : st'.Drawn P := by
  induction h with
  | nil => exact hst
  | cons first _ ih => exact ih (first.drawn hst)

/-- **The nodes of a reachable store hold productions of the grammars it was used with.** -/
theorem Reachable.drawn (h : st.Reachable P) : st.Drawn P :=
  (h.inv (I := (·.Drawn P)) (fun _ _ => drawn_of_empty fun _ => rfl)
    (fun _ _ => drawn_of_empty (get?_clear _)) (fun _ _ _ _ hst hts => hts.drawn hst)).2

/-! ## Nodes of rows -/

theorem Holds.exists_get? {ns : List Node} {n : Node} (h : st.Holds ts ns) (hn : n ∈ ns) :
    ∃ t, st.get? t = some n := by
  have hmem : some n ∈ ts.map st.get? := by
    rw [← h]
    exact List.mem_map_of_mem hn
  obtain ⟨t, -, ht⟩ := List.mem_map.mp hmem
  exact ⟨t, ht⟩

theorem HoldsRows.exists_get? {word : Text} {rows : List Row} {row : Row} {n : Node}
    (h : st.HoldsRows word (List.range word.length) rows) (hrow : row ∈ rows) (hn : n ∈ row) :
    ∃ t, st.get? t = some n := by
  obtain ⟨k, hk⟩ := List.mem_iff_getElem?.mp hrow
  have hlt : k < word.length := by
    have hlen := h.length_eq
    rw [List.length_range] at hlen
    rw [hlen]
    exact (List.getElem?_eq_some_iff.mp hk).1
  obtain ⟨row', hrow', hholds⟩ := h.getElem? hlt
  obtain rfl : row = row' := Option.some.inj (hk.symm.trans hrow')
  exact hholds.exists_get? hn

end Store

/-! ## Charts -/

/-- The grammar was read from a text. -/
def Grammar.IsRead (g : Grammar) : Prop := ∃ t, Grammar.read t = .ok g

theorem Derivation.IsDrawn.isWritable {d : Derivation} (h : d.IsDrawn Grammar.IsRead) :
    d.IsWritable := by
  obtain ⟨g, ⟨t, hread⟩, hp, ho⟩ := h
  exact ⟨Grammar.isWritable_of_read hread _ hp, ho⟩

/-- Only words that are not empty have a chart. -/
theorem Solver.ne_nil_of_chart {s : Solver} {b : Bench} {word : Text} {rows : List Row}
    (h : (s.chart word b).1 = .ok rows) : word ≠ [] := by
  rintro rfl
  cases h

namespace Node

variable {s s' : Solver} {b b' : Bench} {word word' : Text} {n m : Node}

/-- The node stands in the chart of the word. The grammar was read from a text, and so were all that
the store has been used with. -/
structure IsCharted (n : Node) (s : Solver) (word : Text) (b : Bench) : Prop where
  grammar : s.grammar.IsRead
  store : b.store.Reachable Grammar.IsRead
  mem : ∃ rows, (s.chart word b).1 = .ok rows ∧ ∃ row ∈ rows, n ∈ row

/-- The node of a chart is one that the store has afterwards. -/
theorem IsCharted.exists_get? (h : n.IsCharted s word b) :
    ∃ t, (s.chart word b).2.store.get? t = some n := by
  obtain ⟨rows, hok, row, hrow, hn⟩ := h.mem
  have hchart := Solver.delivers_chart h.grammar h.store.coherent (Solver.ne_nil_of_chart hok)
  have hlog : ∀ e, (s.chart word b).1 ≠ .error (.disk e) := by
    intro e he
    rw [hok] at he
    cases he
  obtain ⟨-, rows', hok', -, -, hrows⟩ := hchart.exists_ok hlog
  obtain rfl : rows = rows' := Except.ok.inj (hok.symm.trans hok')
  exact hrows.exists_get? hrow hn

theorem IsCharted.isWritable (h : n.IsCharted s word b) : n.IsWritable := by
  obtain ⟨t, hn⟩ := h.exists_get?
  have hafter : (s.chart word b).2.store.Reachable Grammar.IsRead := .chart h.store s h.grammar word
  exact fun d hd => (hafter.drawn hn d hd).isWritable

/-- **Nothing is lost in the listing of a node.**

The listing of a derivable node has one line for each derivation, and the lines are in strictly
increasing order. Each line is taken apart at its first arrow and at its last ` (` into the head,
the key and the offset of a derivation, and the derivations that are read from the lines are those
of the node, each once. So two nodes with the same listing, in whatever charts they stand, have the
same derivations. -/
theorem IsCharted.lossless (hn : n.IsCharted s word b) (hm : m.IsCharted s' word' b') :
    (n.isDerivable = true →
      n.lines.length = n.derivations.size ∧
      n.lines.Pairwise (fun x y => compare x y = .lt) ∧
      (∀ line ∈ n.lines, ∃ d ∈ n.derivations, Derivation.read? line = some d ∧
        Derivation.parts? line = some (d.production.head, d.production.key, ofInt d.offset)) ∧
      (n.lines.map Derivation.read?).Perm (n.derivations.toList.map some)) ∧
    (n.listing = m.listing → n.derivations = m.derivations) := by
  have hw := hn.isWritable
  refine ⟨fun hderivable => ?_, derivations_eq_of_listing_eq hw hm.isWritable⟩
  have hperm := map_read?_lines hw hderivable
  refine ⟨?_, pairwise_lines hw hderivable, ?_, hperm⟩
  · simpa [SortedSet.size] using hperm.length_eq
  · intro line hline
    rw [lines_eq hw hderivable, mem_sort] at hline
    obtain ⟨d, hd, rfl⟩ := List.mem_map.mp hline
    exact ⟨d, hd, Derivation.read?_text (hw d hd), Derivation.parts?_text (hw d hd)⟩

end Node

/-! ## Symbols that look like the marks -/

/-- Two variables derive a dash and a bracketed number, which are variables and derive a bracket and
the tip of an arrow. -/
def Grammar.dashed : Grammar :=
  .ofProductions [⟨"F", .pair "-" "(1)", by decide, by decide⟩,
    ⟨"E", .pair "-" "(1)", by decide, by decide⟩, ⟨"-", .terminal "(", by decide, by decide⟩,
    ⟨"(1)", .terminal ">", by decide, by decide⟩]

theorem Grammar.isRead_dashed : Grammar.dashed.IsRead := by
  let t : Text := "F->- (1)\nE->- (1)\n-->(\n(1)->>"
  have hlines : Grammar.readLines 1 (t.splitOn '\n') = .ok Grammar.dashed.productions := by
    decide +kernel
  refine ⟨t, ?_⟩
  unfold Grammar.read
  rw [hlines]
  rfl

/-- The node of the whole word has two derivations, and they are told apart. -/
theorem Node.IsCharted.lossless_dashed :
    ∃ n : Node, n.IsCharted (.quiet .dashed) "(>" .first ∧ n.isDerivable = true ∧
      n.lines = ["E->- (1) (1)", "F->- (1) (1)"] ∧ n.derivations.size = 2 ∧
      n.lines.Pairwise (fun x y => compare x y = .lt) ∧
      (n.lines.map Derivation.read?).Perm (n.derivations.toList.map some) ∧
      ∀ m : Node, m.IsCharted (.quiet .dashed) "(>" .first → n.listing = m.listing →
        n.derivations = m.derivations := by
  have hlistings : ((Solver.quiet .dashed).chart "(>" .first).1.map
      (·.map (·.map fun n => n.derivations.toList.map (·.text)))
      = .ok [[["-->( (0)"], ["(1)->> (0)"]], [["E->- (1) (1)", "F->- (1) (1)"]]] := by
    decide +kernel
  cases hok : ((Solver.quiet .dashed).chart "(>" .first).1 with
  | error e =>
    rw [hok] at hlistings
    cases hlistings
  | ok rows =>
    rw [hok] at hlistings
    have hrows := Except.ok.inj hlistings
    obtain ⟨row, hrow, htop⟩ := List.mem_map.mp (hrows ▸ List.mem_cons_of_mem _ List.mem_cons_self)
    obtain ⟨n, hn, htexts⟩ := List.mem_map.mp (htop ▸ List.mem_cons_self)
    have hcharted : n.IsCharted (.quiet .dashed) "(>" .first :=
      ⟨Grammar.isRead_dashed, .new 1 false, rows, hok, row, hrow, hn⟩
    have hderivable : n.isDerivable = true := by
      cases hnil : n.derivations.toList with
      | nil => simp [hnil] at htexts
      | cons d ds => simp [Node.isDerivable, SortedSet.isEmpty, hnil]
    have hlines : n.lines = ["E->- (1) (1)", "F->- (1) (1)"] := by
      rw [Node.lines_eq hcharted.isWritable hderivable, htexts]
      exact List.mergeSort_of_pairwise (by decide +kernel)
    obtain ⟨hlength, hordered, -, hperm⟩ := (hcharted.lossless hcharted).1 hderivable
    refine ⟨n, hcharted, hderivable, hlines, ?_, hordered, hperm, fun m hm => ?_⟩
    · rw [← hlength, hlines]
      rfl
    · exact (hcharted.lossless hm).2

end Pyramid
