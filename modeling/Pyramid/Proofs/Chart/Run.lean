import Mathlib
import Pyramid.Proofs.Chart.Coherence

/-!
# Runs of solvers

What the actions of a solver do to the store they work with. Each of them, from a coherent store, is
a sequence of requests for the pieces of the word, and either delivers its result or is broken off
by a journal entry that the disk refuses; there is no third way (`Act.Delivers`).

* `delivers_chart`: the rows of a chart are the nodes that the store has, afterwards, for the pieces
  of the word; nothing else is asked for.
* `delivers_derive`, `delivers_solve`: the node at the top is the one for the word, and the answer
  is read off that node.
* `chart_eq_growWhile`: how many rows a chart has need not be known beforehand. To grow rows for as
  long as the last one has more than one node gives the same chart, from any store.
-/

namespace Pyramid

open Text

/-! ## Actions in two parts -/

namespace Act

variable {σ α β : Type} {act : Act σ α} {f f' : α → Act σ β} {s s' : σ}

theorem bind_of_ok {a : α} (h : act s = (.ok a, s')) : (act >>= f) s = f a s' := by
  show (match act s with | (r, s') => ExceptT.bindCont f r s') = _
  rw [h]
  rfl

theorem bind_of_error {e : Failure} (h : act s = (.error e, s')) :
    (act >>= f) s = (.error e, s') := by
  show (match act s with | (r, s') => ExceptT.bindCont f r s') = _
  rw [h]
  rfl

/-- How an action in two parts comes to a result. -/
theorem exists_of_bind_eq_ok {c : β} {s'' : σ} (h : (act >>= f) s = (.ok c, s'')) :
    ∃ a s', act s = (.ok a, s') ∧ f a s' = (.ok c, s'') := by
  cases hact : act s with
  | mk r s' =>
    cases r with
    | ok a =>
      rw [bind_of_ok hact] at h
      exact ⟨a, s', rfl, h⟩
    | error e =>
      rw [bind_of_error hact] at h
      cases h

/-- Two continuations that agree on every result of an action do the same after it. -/
theorem bind_congr_of_ok (h : ∀ a s', act s = (.ok a, s') → f a s' = f' a s') :
    (act >>= f) s = (act >>= f') s := by
  cases hact : act s with
  | mk r s' =>
    cases r with
    | ok a => rw [bind_of_ok hact, bind_of_ok hact, h a s' hact]
    | error e => rw [bind_of_error hact, bind_of_error hact]

/-! ## Actions that deliver -/

/-- From the bench, the action does nothing to the store but make requests. It ends with a result of
which `Q` holds, together with the requested texts and the store afterwards, unless the disk refuses
an entry in the journal. -/
def Delivers (P : Grammar → Prop) (act : Act Bench α) (b : Bench)
    (Q : List Text → α → Store → Prop) : Prop :=
  ∃ ts, Store.Requests P b.store ts (act b).2.store ∧
    match (act b).1 with
    | .ok a => Q ts a (act b).2.store
    | .error f => ∃ e, f = .disk e

variable {P : Grammar → Prop} {act : Act Bench α} {f : α → Act Bench β} {b : Bench}
  {Q : List Text → α → Store → Prop} {R : List Text → β → Store → Prop}

theorem Delivers.pure {a : α} (h : Q [] a b.store) : Delivers P (pure a) b Q := ⟨[], .nil _, h⟩

theorem Delivers.bind (h : Delivers P act b Q)
    (hf : ∀ ts a b', Store.Requests P b.store ts b'.store → Q ts a b'.store →
      Delivers P (f a) b' fun us c st => R (ts ++ us) c st) :
    Delivers P (act >>= f) b R := by
  obtain ⟨ts, hts, hr⟩ := h
  cases hact : act b with
  | mk r b' =>
    rw [hact] at hts hr
    cases r with
    | ok a =>
      obtain ⟨us, hus, hr'⟩ := hf ts a b' hts hr
      refine ⟨ts ++ us, ?_, ?_⟩
      · rw [bind_of_ok hact]
        exact hts.append hus
      · rw [bind_of_ok hact]
        exact hr'
    | error e =>
      refine ⟨ts, ?_, ?_⟩
      · rw [bind_of_error hact]
        exact hts
      · rw [bind_of_error hact]
        exact hr

theorem delivers_get :
    Delivers P (get : Act Bench Bench) b fun ts _ st => ts = [] ∧ st = b.store :=
  ⟨[], .nil _, rfl, rfl⟩

/-- An action that is not refused an entry gives a result. -/
theorem Delivers.exists_ok (h : Delivers P act b Q) (hlog : ∀ e, (act b).1 ≠ .error (.disk e)) :
    ∃ ts a, (act b).1 = .ok a ∧ Store.Requests P b.store ts (act b).2.store ∧
      Q ts a (act b).2.store := by
  obtain ⟨ts, hts, hr⟩ := h
  cases hact : (act b).1 with
  | ok a =>
    rw [hact] at hr
    exact ⟨ts, a, rfl, hts, hr⟩
  | error f =>
    rw [hact] at hr
    obtain ⟨e, rfl⟩ := hr
    exact absurd hact (hlog e)

theorem ne_error_of_isOk {r : Except Failure α} (h : r.isOk = true) (f : Failure) :
    r ≠ .error f := by
  rintro rfl
  cases h

end Act

/-! ## Single requests -/

/-- A request for a text whose node can be made: the node comes back, and the store has it. -/
theorem Store.obtain_eq_ok {P : Grammar → Prop} {st : Store} {t : Text}
    {make : Stamp → Except Failure Node}
    (hmake : st.get? t = none → ∃ n, make st.nextStamp = .ok n ∧ n.text = t ∧
      Request P st t (st.take n)) :
    ∃ n st', st.obtain t make = (.ok n, st') ∧ Request P st t st' ∧ st'.get? t = some n := by
  unfold Store.obtain
  cases hget : st.get? t with
  | some n => exact ⟨n, _, rfl, .found hget, hget⟩
  | none =>
    obtain ⟨n, hn, rfl, hreq⟩ := hmake hget
    refine ⟨n, st.take n, ?_, hreq, ?_⟩
    · simp [hn]
    · rw [get?_take, if_pos rfl]

namespace Store

/-- The rows are, one by one, the nodes that the store has for the windows of the word at the given
heights. -/
def HoldsRows (st : Store) (word : Text) (heights : List Nat) (rows : List Row) : Prop :=
  List.Forall₂ (fun k row => st.Holds (windows (k + 1) word) row) heights rows

variable {st : Store} {word : Text} {rows : List Row}

/-- The row of a chart at a height. -/
theorem HoldsRows.getElem? (h : st.HoldsRows word (List.range word.length) rows) {k : Nat}
    (hk : k < word.length) :
    ∃ row, rows[k]? = some row ∧ st.Holds (windows (k + 1) word) row := by
  have hlen := h.length_eq
  rw [List.length_range] at hlen
  have hk' : k < rows.length := by omega
  refine ⟨rows[k], List.getElem?_eq_getElem hk', ?_⟩
  have hget := h.get (by simpa using hk) hk'
  simpa using hget

/-- The node at the top of a chart. -/
theorem HoldsRows.top (h : st.HoldsRows word (List.range word.length) rows) (hw : word ≠ []) :
    ∃ n, rows.getLast?.bind (·.head?) = some n ∧ st.get? word = some n := by
  have hpos : 0 < word.length := List.length_pos_iff.mpr hw
  have hlen := h.length_eq
  rw [List.length_range] at hlen
  obtain ⟨row, hrow, hholds⟩ := h.getElem? (k := word.length - 1) (by omega)
  rw [Nat.sub_add_cancel hpos, windows_length] at hholds
  obtain ⟨n, hn, hget⟩ := hholds.getElem? (i := 0) rfl
  refine ⟨n, ?_, hget⟩
  rw [List.getLast?_eq_getElem?, ← hlen, hrow, Option.bind_some, List.head?_eq_getElem?]
  exact hn

end Store

namespace Solver

variable {P : Grammar → Prop} {s : Solver} {b : Bench} {word : Text}

theorem delivers_obtain {t : Text} {make : Stamp → Except Failure Node}
    (hmake : b.store.get? t = none → ∃ n, make b.store.nextStamp = .ok n ∧ n.text = t ∧
      Store.Request P b.store t (b.store.take n)) :
    (s.obtain t make).Delivers P b fun ts n st => ts = [t] ∧ st.get? t = some n := by
  obtain ⟨n, st', hobtain, hreq, hget⟩ := Store.obtain_eq_ok hmake
  have hact : s.obtain t make b = (.ok n, { b with store := st' }) := by
    unfold Solver.obtain
    rw [hobtain]
  refine ⟨[t], ?_, ?_⟩
  · rw [hact]
    exact hreq.single
  · rw [hact]
    exact ⟨rfl, hget⟩

/-- The node of a character is always to be had. -/
theorem delivers_seed (hs : P s.grammar) (c : Char) :
    (s.obtain [c] fun stamp => .ok (s.grammar.seed c stamp)).Delivers P b
      fun ts n st => ts = [[c]] ∧ st.get? [c] = some n :=
  delivers_obtain fun absent => ⟨_, rfl, rfl, .seeded hs absent⟩

/-- The node of a longer text is to be had once its two neighbours are there. -/
theorem delivers_combine (hs : P s.grammar) (hc : b.store.Coherent) {t : Text} (h2 : 2 ≤ t.length)
    {l r : Node} (hl : b.store.get? t.dropLast = some l) (hr : b.store.get? t.tail = some r) :
    (s.combine l r t).Delivers P b fun ts n st => ts = [t] ∧ st.get? t = some n := by
  refine delivers_obtain fun absent => ?_
  have hmade : s.grammar.combine l r t b.store.nextStamp = .ok _ :=
    Grammar.combine_eq_ok_iff.mpr ⟨hc.balanced hl hr, rfl⟩
  exact ⟨_, hmade, rfl, .combined hs absent h2 hl hr hmade⟩

theorem note_cases (s : Solver) (severity : Severity) (message : Text) (b : Bench) :
    (∃ disk, s.note severity message b = (.ok (), { b with disk })) ∨
      ∃ e disk, s.note severity message b = (.error (.disk e), { b with disk }) := by
  unfold Solver.note
  split
  · exact .inl ⟨_, rfl⟩
  · exact .inr ⟨_, _, rfl⟩

/-- An entry in the journal does nothing to the store. -/
theorem delivers_note (severity : Severity) (message : Text) :
    (s.note severity message).Delivers P b fun ts _ st => ts = [] ∧ st = b.store := by
  rcases s.note_cases severity message b with ⟨disk, hact⟩ | ⟨e, disk, hact⟩
  · refine ⟨[], ?_, ?_⟩
    · rw [hact]
      exact .nil _
    · rw [hact]
      exact ⟨rfl, rfl⟩
  · refine ⟨[], ?_, ?_⟩
    · rw [hact]
      exact .nil _
    · rw [hact]
      exact ⟨e, rfl⟩

/-! ## Rows -/

/-- The bottom row asks for the characters of the word and holds their nodes. -/
theorem delivers_seedRow (hs : P s.grammar) :
    (s.seedRow word).Delivers P b fun ts row st =>
      ts = windows 1 word ∧ st.Holds (windows 1 word) row := by
  induction word generalizing b with
  | nil => exact .pure ⟨rfl, rfl⟩
  | cons c word ih =>
    rw [windows_cons c (by omega)]
    refine (delivers_seed hs c).bind ?_
    rintro ts n b' - ⟨rfl, hn⟩
    refine ih.bind ?_
    rintro us row b'' hreq ⟨rfl, hrow⟩
    exact .pure ⟨by simp, .cons (hreq.keptIn hn) hrow⟩

/-- A row above a row asks for the windows that are one character longer and holds their nodes. -/
theorem delivers_growRow (hs : P s.grammar) (hc : b.store.Coherent) {k : Nat} {row : Row}
    (hrow : b.store.Holds (windows (k + 1) word) row) :
    (s.growRow (k + 2) word row).Delivers P b fun ts above st =>
      ts = windows (k + 2) word ∧ st.Holds (windows (k + 2) word) above := by
  have hlen : row.length = word.length - k := by
    rw [hrow.length_eq, length_windows]
    omega
  induction row generalizing word b with
  | nil =>
    rw [windows_eq_nil (by rw [List.length_nil] at hlen; omega)]
    exact .pure ⟨rfl, rfl⟩
  | cons left row ih =>
    cases row with
    | nil =>
      rw [windows_eq_nil (by rw [List.length_singleton] at hlen; omega)]
      exact .pure ⟨rfl, rfl⟩
    | cons right row =>
      rw [List.length_cons, List.length_cons] at hlen
      obtain ⟨c, word, rfl⟩ : ∃ c cs, word = c :: cs :=
        List.exists_cons_of_ne_nil (by rintro rfl; simp at hlen)
      rw [List.length_cons] at hlen
      obtain ⟨hfirst, us, hsecond⟩ := windows_neighbours (k := k) (t := word) c (by omega)
      rw [hfirst] at hrow
      obtain ⟨hleft, hrest⟩ := Store.holds_cons_iff.mp hrow
      have hright := (Store.holds_cons_iff.mp (hsecond ▸ hrest)).1
      have htwo : 2 ≤ ((c :: word).take (k + 2)).length := by
        rw [List.length_take, List.length_cons]
        omega
      rw [windows_cons c (by omega)]
      have hget := delivers_combine hs hc htwo hleft hright
      refine hget.bind ?_
      rintro ts n b' hreq ⟨rfl, hn⟩
      have hrest' := hrest.mono hreq.keptIn
      refine (ih (hreq.coherent hc) hrest' (by rw [List.length_cons]; omega)).bind ?_
      rintro us above b'' hreq' ⟨rfl, habove⟩
      exact .pure ⟨by simp, .cons (hreq'.keptIn hn) habove⟩

/-! ## Charts -/

/-- The next rows above a row ask for all the windows of their heights. -/
theorem delivers_growRows (hs : P s.grammar) (hc : b.store.Coherent) {k : Nat} {row : Row}
    (hrow : b.store.Holds (windows (k + 1) word) row) (count : Nat) :
    (s.growRows word k row count).Delivers P b fun ts rows st =>
      ts = (List.range' (k + 1) count).flatMap (fun k => windows (k + 1) word) ∧
        st.HoldsRows word (List.range' (k + 1) count) rows := by
  induction count generalizing k row b with
  | zero => exact .pure ⟨rfl, .nil⟩
  | succ count ih =>
    refine (delivers_growRow hs hc hrow).bind ?_
    rintro ts above b₁ hreq₁ ⟨rfl, habove⟩
    refine (delivers_note _ _).bind ?_
    rintro us _ b₂ hreq₂ ⟨rfl, hstore⟩
    rw [← hstore] at habove hreq₁
    refine (ih (hreq₁.coherent hc) habove).bind ?_
    rintro vs rows b₃ hreq₃ ⟨rfl, hrows⟩
    rw [List.range'_succ]
    exact .pure ⟨by simp, .cons (habove.mono hreq₃.keptIn) hrows⟩

/-- The bottom row of a word and the next `count` rows above it. -/
def lowerRows (s : Solver) (word : Text) (count : Nat) : Act Bench (List Row) := do
  let row ← s.seedRow word
  return row :: (← s.growRows word 0 row count)

theorem delivers_lowerRows (hs : P s.grammar) (hc : b.store.Coherent) (word : Text) (count : Nat) :
    (s.lowerRows word count).Delivers P b fun ts rows st =>
      ts = (List.range (count + 1)).flatMap (fun k => windows (k + 1) word) ∧
        st.HoldsRows word (List.range (count + 1)) rows := by
  refine (delivers_seedRow hs).bind ?_
  rintro ts row b₁ hreq₁ ⟨rfl, hrow⟩
  refine (delivers_growRows hs (hreq₁.coherent hc) hrow count).bind ?_
  rintro us rows b₂ hreq₂ ⟨rfl, hrows⟩
  rw [List.range_eq_range', List.range'_succ]
  exact .pure ⟨by simp, .cons (hrow.mono hreq₂.keptIn) hrows⟩

/-- A chart is all the rows of a word. -/
theorem chart_eq_lowerRows (hw : word ≠ []) :
    s.chart word = s.lowerRows word (word.length - 1) := by
  unfold chart lowerRows
  rw [if_neg hw]

/-- **The chart of a word asks for all its pieces, row by row, and holds their nodes.** -/
theorem delivers_chart (hs : P s.grammar) (hc : b.store.Coherent) (hw : word ≠ []) :
    (s.chart word).Delivers P b fun ts rows st =>
      ts = pieces word ∧ st.HoldsRows word (List.range word.length) rows := by
  have hlen : word.length - 1 + 1 = word.length := by
    have hpos : 0 < word.length := List.length_pos_iff.mpr hw
    omega
  have hrows := delivers_lowerRows hs hc word (word.length - 1)
  rw [hlen] at hrows
  rw [chart_eq_lowerRows hw]
  exact hrows

/-- The top of a chart is the node that the store has for the word. -/
theorem delivers_derive (hs : P s.grammar) (hc : b.store.Coherent) (hw : word ≠ []) :
    (s.derive word).Delivers P b fun ts n st => ts = pieces word ∧ st.get? word = some n := by
  refine (delivers_chart hs hc hw).bind ?_
  rintro ts rows b' - ⟨rfl, hrows⟩
  obtain ⟨n, htop, hn⟩ := hrows.top hw
  rw [htop]
  exact .pure ⟨by simp, hn⟩

/-- The answer for a word is read off the node that the store has for it. -/
theorem delivers_solve (hs : P s.grammar) (hc : b.store.Coherent) (hw : word ≠ []) :
    (s.solve word).Delivers P b fun ts answer st =>
      ts = pieces word ∧ ∃ n, st.get? word = some n ∧ answer = n.derives s.start := by
  refine (delivers_derive hs hc hw).bind ?_
  rintro ts n b₁ - ⟨rfl, hn⟩
  refine Act.delivers_get.bind ?_
  rintro us _ b₂ - ⟨rfl, hstore₂⟩
  refine (delivers_note _ _).bind ?_
  rintro vs _ b₃ - ⟨rfl, hstore₃⟩
  rw [← hstore₂, ← hstore₃] at hn
  exact .pure ⟨by simp, n, hn, rfl⟩

/-! ## Growing until a single node is left -/

variable {b' : Bench} {row above : Row}

theorem length_seedRow (h : s.seedRow word b = (.ok row, b')) : row.length = word.length := by
  induction word generalizing b row with
  | nil =>
    cases h
    rfl
  | cons c word ih =>
    obtain ⟨n, b₁, -, h₁⟩ := Act.exists_of_bind_eq_ok h
    obtain ⟨rest, b₂, hrest, h₂⟩ := Act.exists_of_bind_eq_ok h₁
    cases h₂
    rw [List.length_cons, List.length_cons, ih hrest]

theorem length_growRow {span : Nat} (h : s.growRow span word row b = (.ok above, b')) :
    above.length = row.length - 1 := by
  fun_induction growRow s span word row generalizing b above with
  | case1 word left right row ih =>
    obtain ⟨n, b₁, -, h₁⟩ := Act.exists_of_bind_eq_ok h
    obtain ⟨rest, b₂, hrest, h₂⟩ := Act.exists_of_bind_eq_ok h₁
    cases h₂
    have hlen := ih hrest
    simp only [List.length_cons] at hlen ⊢
    omega
  | case2 row word hrow =>
    cases h
    rcases row with _ | ⟨left, _ | ⟨right, row⟩⟩
    · rfl
    · rfl
    · exact (hrow left right row rfl).elim

/-- The rows above a row, grown for as long as the last row has more than one node, but at most
`limit` of them. -/
def growWhile (s : Solver) (word : Text) (height : Nat) (row : Row) : (limit : Nat) →
    Act Bench (List Row)
  | 0 => return []
  | limit + 1 =>
    if 1 < row.length then do
      let above ← s.growRow (height + 2) word row
      s.note .debug (rowMessage word (height + 1) above)
      return above :: (← s.growWhile word (height + 1) above limit)
    else return []

/-- Every row is one node shorter than the row below, so it is known beforehand how many rows there
will be; a limit that allows for them is never felt. -/
theorem growWhile_eq_growRows {limit height : Nat} (hlimit : row.length ≤ limit + 1) :
    s.growWhile word height row limit = s.growRows word height row (row.length - 1) := by
  induction limit generalizing height row with
  | zero =>
    rw [Nat.sub_eq_zero_of_le hlimit]
    rfl
  | succ limit ih =>
    unfold growWhile
    by_cases hmore : 1 < row.length
    · obtain ⟨count, hcount⟩ : ∃ count, row.length - 1 = count + 1 := ⟨row.length - 2, by omega⟩
      rw [if_pos hmore, hcount]
      funext b
      refine Act.bind_congr_of_ok fun above b' habove => ?_
      have hlen : above.length = count + 1 := (length_growRow habove).trans hcount
      rw [ih (by omega), hlen, Nat.add_sub_cancel]
    · rw [if_neg hmore, Nat.sub_eq_zero_of_le (by omega)]
      rfl

/-- **The chart of a word is grown until a row has a single node.** -/
theorem chart_eq_growWhile (hw : word ≠ []) {limit : Nat} (hlimit : word.length ≤ limit + 1) :
    s.chart word = do
      let row ← s.seedRow word
      return row :: (← s.growWhile word 0 row limit) := by
  rw [chart, if_neg hw]
  funext b
  refine Act.bind_congr_of_ok fun row b' hrow => ?_
  have hlen := length_seedRow hrow
  rw [growWhile_eq_growRows (by omega), hlen]

end Solver
end Pyramid
