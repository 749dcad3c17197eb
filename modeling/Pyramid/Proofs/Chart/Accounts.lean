import Mathlib
import Pyramid.Proofs.Chart.Shape

/-!
# The accounts of a store

Every request to a store is either answered from it or adds one node, so its counters and its size
can be told from the requests alone (`Store.Accounts`). What is requested in turn depends on the
words alone: a call that comes to its end asks for each piece of its word once for each place.

`Store.Served` is a store together with the words that calls have completed on since it was new or
last cleared, by any solvers. `Served.accounting` works out its books: the texts it has nodes for
are the substrings of these words, each of them was computed once, and all other requests were hits.
To solve a word again therefore computes nothing (specification §8).
-/

namespace Pyramid

open Text

/-- The distinct non-empty substrings of some words. -/
def Text.substrings (words : List Text) : Finset Text := (words.flatMap pieces).toFinset

theorem Text.mem_substrings {words : List Text} {t : Text} :
    t ∈ substrings words ↔ t ≠ [] ∧ ∃ w ∈ words, t <:+: w := by
  simp only [substrings, List.mem_toFinset, List.mem_flatMap, mem_pieces]
  constructor
  · rintro ⟨w, hw, hne, ht⟩
    exact ⟨hne, w, hw, ht⟩
  · rintro ⟨hne, w, hw, ht⟩
    exact ⟨w, hw, hne, ht⟩

theorem Text.substrings_perm {words words' : List Text} (h : words.Perm words') :
    substrings words = substrings words' := by
  ext t
  simp only [mem_substrings, h.mem_iff]

/-- All the pieces of a substring are substrings. -/
theorem Text.mem_substrings_of_mem_pieces {words : List Text} {t u : Text}
    (ht : t ∈ substrings words) (hu : u ∈ pieces t) : u ∈ substrings words := by
  obtain ⟨-, w, hw, htw⟩ := mem_substrings.mp ht
  obtain ⟨hne, hut⟩ := mem_pieces.mp hu
  exact mem_substrings.mpr ⟨hne, w, hw, hut.trans htw⟩

/-! ## Requests and counters -/

namespace Store

variable {P : Grammar → Prop} {st st' : Store} {t u : Text} {n : Node} {ts us : List Text}

theorem contains_take : (st.take n).contains u = true ↔ u = n.text ∨ st.contains u = true := by
  rw [contains_eq_isSome_get?, contains_eq_isSome_get?, get?_take]
  by_cases h : n.text = u
  · simp [h]
  · simp [h, Ne.symm h]

theorem size_take (absent : st.get? n.text = none) : (st.take n).size = st.size + 1 := by
  have hfalse : st.nodes.contains n.text = false := by
    have h := contains_eq_isSome_get? st n.text
    rw [absent] at h
    exact h
  show (st.nodes.insert n.text n).size = st.nodes.size + 1
  rw [Std.TreeMap.size_insert, if_neg (by simp [hfalse])]

/-- The size counts the texts that there are nodes for. -/
theorem size_eq_card {D : Finset Text} (h : ∀ t, st.contains t = true ↔ t ∈ D) :
    st.size = D.card := by
  have hkeys : st.nodes.keys.toFinset = D := by
    ext t
    rw [List.mem_toFinset, Std.TreeMap.mem_keys, ← h]
    exact Iff.rfl
  rw [← hkeys, List.toFinset_card_of_nodup Std.TreeMap.nodup_keys, Std.TreeMap.length_keys]
  rfl

/-- The store after the requests `ts`: it has a node for each requested text and for no other, and
each request was counted, as a computation if it added a node and as a hit if not. -/
structure Accounts (st : Store) (ts : List Text) : Prop where
  contains_iff : ∀ t, st.contains t = true ↔ t ∈ ts
  size_eq : st.size = st.computations
  count_eq : st.hits + st.computations = ts.length

theorem accounts_new (number : Nat) (guarded : Bool) :
    Accounts { number, guarded } [] := by
  refine ⟨fun t => ?_, rfl, rfl⟩
  simp [contains]

theorem accounts_clear (st : Store) : st.clear.Accounts [] := by
  refine ⟨fun t => ?_, ?_, rfl⟩
  · simp [contains, clear]
  · simp [size, clear]

/-- A new node for a text that was not there is one more computation. -/
theorem Accounts.take (h : st.Accounts ts) (absent : st.get? n.text = none) :
    (st.take n).Accounts (ts ++ [n.text]) where
  contains_iff := by
    intro t
    rw [contains_take, h.contains_iff, List.mem_append, List.mem_singleton, or_comm]
  size_eq := by
    rw [size_take absent, h.size_eq]
    rfl
  count_eq := by
    have hcount := h.count_eq
    show st.hits + (st.computations + 1) = (ts ++ [n.text]).length
    rw [List.length_append, List.length_singleton]
    omega

theorem Request.accounts (hreq : Request P st t st') (h : st.Accounts ts) :
    st'.Accounts (ts ++ [t]) := by
  cases hreq with
  | found present =>
    have hmem : t ∈ ts := by
      rw [← h.contains_iff, contains_eq_isSome_get?, present]
      rfl
    refine ⟨fun u => ?_, h.size_eq, ?_⟩
    · have hiff : st.contains u = true ↔ u ∈ ts ++ [t] := by
        rw [h.contains_iff, List.mem_append, List.mem_singleton]
        constructor
        · exact .inl
        · rintro (hu | rfl)
          · exact hu
          · exact hmem
      exact hiff
    · have hcount := h.count_eq
      show st.hits + 1 + st.computations = (ts ++ [t]).length
      rw [List.length_append, List.length_singleton]
      omega
  | seeded _ absent => exact h.take absent
  | combined _ absent _ _ _ made =>
    obtain ⟨-, rfl⟩ := Grammar.combine_eq_ok_iff.mp made
    exact h.take absent

theorem Requests.accounts (hreq : Requests P st us st') (h : st.Accounts ts) :
    st'.Accounts (ts ++ us) := by
  induction hreq generalizing ts with
  | nil => rwa [List.append_nil]
  | @cons _ _ _ t us first _ ih =>
    have hrest := ih (first.accounts h)
    rwa [List.append_assoc] at hrest

/-- Requests for texts that are there change nothing but the number of hits. -/
theorem Requests.eq_of_contains (hreq : Requests P st ts st')
    (h : ∀ t ∈ ts, st.contains t = true) : st' = { st with hits := st.hits + ts.length } := by
  induction hreq with
  | nil => rfl
  | @cons st st₁ _ t ts first rest ih =>
    obtain ⟨n, hn⟩ : ∃ n, st.get? t = some n := by
      have ht := h t (by simp)
      rw [contains_eq_isSome_get?] at ht
      exact Option.isSome_iff_exists.mp ht
    obtain rfl : st₁ = { st with hits := st.hits + 1 } := by
      cases first with
      | found => rfl
      | seeded _ absent => simp [hn] at absent
      | combined _ absent => simp [hn] at absent
    rw [ih fun u hu => h u (by simp [hu])]
    simp only [List.length_cons]
    congr 1
    omega

end Store

/-! ## Calls -/

/-- What a solver can be called for. -/
inductive Call where
  | chart
  | derive
  | solve
deriving DecidableEq, Repr

namespace Call

/-- Makes the call, whatever its result is used for. -/
def run (c : Call) (s : Solver) (word : Text) : Act Bench Unit :=
  match c with
  | .chart => do let _ ← s.chart word
  | .derive => do let _ ← s.derive word
  | .solve => do let _ ← s.solve word

variable {P : Grammar → Prop} {s : Solver} {b : Bench} {word : Text}

theorem run_nil (c : Call) (s : Solver) (b : Bench) :
    c.run s [] b = (.error (.fault Solver.emptyWord), b) := by
  cases c <;> rfl

theorem delivers_run (c : Call) (hs : P s.grammar) (hc : b.store.Coherent) (hw : word ≠ []) :
    (c.run s word).Delivers P b fun ts _ _ => ts = pieces word := by
  cases c with
  | chart =>
    refine (Solver.delivers_chart hs hc hw).bind ?_
    rintro ts _ b' - ⟨rfl, -⟩
    exact .pure (by simp)
  | derive =>
    refine (Solver.delivers_derive hs hc hw).bind ?_
    rintro ts _ b' - ⟨rfl, -⟩
    exact .pure (by simp)
  | solve =>
    refine (Solver.delivers_solve hs hc hw).bind ?_
    rintro ts _ b' - ⟨rfl, -⟩
    exact .pure (by simp)

end Call

namespace Store

variable {st : Store} {words : List Text}

/-- A store, and the words that calls on it have been completed on since it was new or last cleared.
A call is completed if it gives a result; calls on the empty word never do. What happened to the
store before it was cleared does not matter. -/
inductive Served : List Text → Store → Prop where
  | new (number : Nat) (guarded : Bool) : Served [] { number, guarded }
  | cleared (st : Store) : Served [] st.clear
  | completed {words : List Text} {b : Bench} (before : Served words b.store) (c : Call)
      (s : Solver) {word : Text} (ne_nil : word ≠ []) (ok : (c.run s word b).1 = .ok ()) :
      Served (words ++ [word]) (c.run s word b).2.store
  | emptyWord {words : List Text} {b : Bench} (before : Served words b.store) (c : Call)
      (s : Solver) : Served words (c.run s [] b).2.store

/-- The store has answered one request for each piece of each word. -/
theorem Served.accounts (h : Served words st) :
    st.Coherent ∧ st.Accounts (words.flatMap pieces) := by
  -- Coherence is needed on the way: without it a call could fail half way through its requests.
  induction h with
  | new number guarded => exact ⟨coherent_of_empty fun _ => rfl, accounts_new number guarded⟩
  | cleared st => exact ⟨coherent_of_empty (get?_clear st), accounts_clear st⟩
  | completed _ c s ne_nil ok ih =>
    obtain ⟨hc, haccounts⟩ := ih
    have hrun := c.delivers_run (P := fun _ => True) (s := s) trivial hc ne_nil
    obtain ⟨ts, -, -, hreq, rfl⟩ := hrun.exists_ok fun e he => by rw [ok] at he; cases he
    rw [List.flatMap_append, List.flatMap_singleton]
    exact ⟨hreq.coherent hc, hreq.accounts haccounts⟩
  | emptyWord _ c s ih =>
    rw [Call.run_nil]
    exact ih

theorem Served.contains_iff (h : Served words st) {t : Text} :
    st.contains t = true ↔ t ∈ substrings words := by
  rw [h.accounts.2.contains_iff, substrings, List.mem_toFinset]

theorem Served.computations_eq (h : Served words st) :
    st.computations = (substrings words).card := by
  rw [← h.accounts.2.size_eq]
  exact size_eq_card fun _ => h.contains_iff

theorem Served.hits_add_computations (h : Served words st) :
    st.hits + st.computations = (words.map fun w => w.length * (w.length + 1) / 2).sum := by
  rw [h.accounts.2.count_eq, List.length_flatMap]
  simp only [length_pieces]

/-- A call on a substring of one of the words finds everything that it asks for. -/
theorem Served.again {b : Bench} (h : Served words b.store) (c : Call) (s : Solver) {t : Text}
    (ht : t ∈ substrings words) (hlog : ∀ e, (c.run s t b).1 ≠ .error (.disk e)) :
    (c.run s t b).1 = .ok () ∧ (c.run s t b).2.store
      = { b.store with hits := b.store.hits + t.length * (t.length + 1) / 2 } := by
  have hrun := c.delivers_run (P := fun _ => True) (s := s) trivial h.accounts.1
    (mem_substrings.mp ht).1
  obtain ⟨ts, _, hok, hreq, rfl⟩ := hrun.exists_ok hlog
  refine ⟨hok, ?_⟩
  rw [← length_pieces]
  exact hreq.eq_of_contains fun u hu => h.contains_iff.mpr (mem_substrings_of_mem_pieces ht hu)

/-- **The books of a store are exact.** The texts that it has nodes for are the non-empty substrings
of the words that calls have been completed on; they are as many as there are nodes, and as many as
were computed; and the requests, hits and computations taken together, are one for each place of
each substring in each word.

So neither the nodes nor the counters depend on the order of the words, a call on a substring of one
of them computes nothing, and a solver reports as many entries as there are substrings. A call on
the empty word fails and leaves everything as it is. -/
theorem Served.accounting {b : Bench} (h : Served words b.store) :
    (∀ t, b.store.contains t = true ↔ t ≠ [] ∧ ∃ w ∈ words, t <:+: w) ∧
    b.store.size = (substrings words).card ∧
    b.store.computations = (substrings words).card ∧
    b.store.hits + b.store.computations
      = (words.map fun w => w.length * (w.length + 1) / 2).sum ∧
    (∀ words' st', words.Perm words' → Served words' st' →
      (∀ t, st'.contains t = b.store.contains t) ∧
        st'.computations = b.store.computations ∧ st'.hits = b.store.hits) ∧
    (∀ (c : Call) (s : Solver) (t : Text), t ≠ [] → (∃ w ∈ words, t <:+: w) →
      (∀ e, (c.run s t b).1 ≠ .error (.disk e)) →
      (c.run s t b).1 = .ok () ∧ (c.run s t b).2.store
        = { b.store with hits := b.store.hits + t.length * (t.length + 1) / 2 }) ∧
    (∀ s : Solver, s.summary b.store = "Read " ++ Text.ofNat s.grammar.size
      ++ " rules. Current cache size: " ++ Text.ofNat (substrings words).card ++ " entries.") ∧
    ∀ (c : Call) (s : Solver), c.run s [] b = (.error (.fault Solver.emptyWord), b) := by
  have hsize : b.store.size = (substrings words).card := size_eq_card fun _ => h.contains_iff
  refine ⟨?_, hsize, h.computations_eq, h.hits_add_computations, ?_, ?_, ?_, ?_⟩
  · intro t
    rw [h.contains_iff, mem_substrings]
  · intro words' st' hperm h'
    have hcomputations : st'.computations = b.store.computations := by
      rw [h.computations_eq, h'.computations_eq, substrings_perm hperm]
    have hsum : st'.hits + st'.computations = b.store.hits + b.store.computations := by
      rw [h.hits_add_computations, h'.hits_add_computations]
      exact (hperm.map _).sum_eq.symm
    refine ⟨?_, hcomputations, by omega⟩
    intro t
    rw [Bool.eq_iff_iff, h.contains_iff, h'.contains_iff, substrings_perm hperm]
  · intro c s t hne hsub hlog
    exact h.again c s (mem_substrings.mpr ⟨hne, hsub⟩) hlog
  · intro s
    unfold Solver.summary
    rw [hsize]
  · exact fun c s => c.run_nil s b

/-- Two words that share substrings, decided and charted with different grammars, and a call on the
empty word between them: ten substrings at sixteen places. -/
theorem Served.accounting_abba :
    ∃ b : Bench, Served ["abba", "aab"] b.store ∧ b.store.size = 10 ∧ b.store.computations = 10 ∧
      b.store.hits = 6 := by
  have hfirst : Served [("abba" : Text)]
      (Call.solve.run (.quiet .doubling) "abba" .first).2.store :=
    .completed (b := .first) (.new 1 false) .solve _ (by decide) (by decide +kernel)
  have hempty := hfirst.emptyWord .derive (.quiet .doubling)
  have hsecond := hempty.completed .chart (.quiet (.ofProductions []))
    (show ("aab" : Text) ≠ [] by decide) (by decide +kernel)
  obtain ⟨-, hsize, hcomputations, hsum, -⟩ := Served.accounting hsecond
  have hcard : (substrings ["abba", "aab"]).card = 10 := by decide +kernel
  have hplaces : ((["abba", "aab"] : List Text).map fun w => w.length * (w.length + 1) / 2).sum
      = 16 := by decide
  refine ⟨_, hsecond, hsize.trans hcard, hcomputations.trans hcard, ?_⟩
  have htotal := hsum.trans hplaces
  rw [hcomputations.trans hcard] at htotal
  omega

end Store
end Pyramid
