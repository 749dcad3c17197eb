import Mathlib
import Pyramid.Proofs.Chart.Membership
import Pyramid.Proofs.Grammar.Bundled

/-!
# The language of the bundled brackets

`L` and `R` yield one bracket each, `T` what `S` yields with a closing bracket behind it. So `S`
yields a pair of brackets around nothing or around what it yields itself, or two such texts in a row
(`yields_S_iff`).

That every balanced text comes about in this way needs no search for the bracket that closes the
first one: either some cut divides the text into two balanced halves, or no proper prefix is
balanced, and then the outer two brackets belong together (`IsBalanced.parts`).
-/

namespace Pyramid.Brackets

open Grammar

/-- The rules of the bundled grammar. -/
def rules : List (Text × Body) := [
  (['S'], .pair ['L'] ['R']), (['S'], .pair ['L'] ['T']), (['S'], .pair ['S'] ['S']),
  (['T'], .pair ['S'] ['R']), (['L'], .terminal ['(']), (['R'], .terminal [')'])]

theorem exists_grammar : ∃ g, readText balanced = .ok g ∧ g.HasRules rules :=
  readText_eq_ok (by decide +kernel)

/-- Every bracket is closed, and none before it is opened. -/
structure IsBalanced (t : Text) : Prop where
  brackets : ∀ c ∈ t, c = '(' ∨ c = ')'
  count_eq : t.count '(' = t.count ')'
  count_le : ∀ p, p <+: t → p.count ')' ≤ p.count '('

/-! ## Balanced texts from balanced texts -/

theorem isBalanced_nil : IsBalanced [] where
  brackets := by simp
  count_eq := rfl
  count_le := by
    intro p hp
    rw [List.prefix_nil.mp hp]
    simp

theorem IsBalanced.append {u v : Text} (hu : IsBalanced u) (hv : IsBalanced v) :
    IsBalanced (u ++ v) where
  brackets := by
    intro c hc
    rcases List.mem_append.mp hc with hc | hc
    · exact hu.brackets c hc
    · exact hv.brackets c hc
  count_eq := by
    rw [List.count_append, List.count_append, hu.count_eq, hv.count_eq]
  count_le := by
    rintro p ⟨r, hr⟩
    -- The prefix ends before or behind the seam.
    rcases List.append_eq_append_iff.mp hr with ⟨q, hq, -⟩ | ⟨q, rfl, hq⟩
    · exact hu.count_le p ⟨q, hq.symm⟩
    · have hle := hv.count_le q ⟨r, hq.symm⟩
      rw [List.count_append, List.count_append, hu.count_eq]
      omega

theorem count_open_wrap (t : Text) : ('(' :: (t ++ [')'])).count '(' = t.count '(' + 1 := by
  simp

theorem count_close_wrap (t : Text) : ('(' :: (t ++ [')'])).count ')' = t.count ')' + 1 := by
  simp

theorem IsBalanced.wrap {t : Text} (ht : IsBalanced t) : IsBalanced ('(' :: (t ++ [')'])) where
  brackets := by
    intro c hc
    rw [List.mem_cons, List.mem_append, List.mem_singleton] at hc
    rcases hc with rfl | hc | rfl
    · exact .inl rfl
    · exact ht.brackets c hc
    · exact .inr rfl
  count_eq := by
    rw [count_open_wrap, count_close_wrap, ht.count_eq]
  count_le := by
    intro p hp
    rcases List.prefix_cons_iff.mp hp with rfl | ⟨q, rfl, s, hs⟩
    · simp
    · rcases List.append_eq_append_iff.mp hs with ⟨r, hr, -⟩ | ⟨r, rfl, hr⟩
      · have hle := ht.count_le q ⟨r, hr.symm⟩
        simp only [List.count_cons_self, List.count_cons_of_ne (show '(' ≠ ')' by decide)]
        omega
      · -- The closing bracket at the end is made up for by the opening one at the beginning.
        have hone : r.count ')' ≤ 1 := (List.IsPrefix.sublist ⟨s, hr.symm⟩).count_le ')'
        have heq := ht.count_eq
        simp only [List.count_cons_self, List.count_cons_of_ne (show '(' ≠ ')' by decide),
          List.count_append]
        omega

/-! ## The parts of a balanced text -/

/-- A cut that leaves nothing open on its left leaves two balanced halves. -/
theorem IsBalanced.of_append {u v : Text} (h : IsBalanced (u ++ v))
    (hu : u.count '(' = u.count ')') : IsBalanced u ∧ IsBalanced v := by
  have hcount := h.count_eq
  rw [List.count_append, List.count_append] at hcount
  constructor
  · refine ⟨fun c hc => h.brackets c (by simp [hc]), hu, fun p hp => ?_⟩
    exact h.count_le p (hp.trans (List.prefix_append u v))
  · refine ⟨fun c hc => h.brackets c (by simp [hc]), by omega, fun p hp => ?_⟩
    have hle := h.count_le (u ++ p) ((List.prefix_append_right_inj u).mpr hp)
    rw [List.count_append, List.count_append] at hle
    omega

/-- If every cut leaves something open on its left, the outer two brackets belong together. -/
theorem IsBalanced.exists_inside {t : Text} (ht : IsBalanced t) (hne : t ≠ [])
    (hopen : ∀ u v, t = u ++ v → u ≠ [] → v ≠ [] → u.count ')' < u.count '(') :
    ∃ m, t = '(' :: (m ++ [')']) ∧ IsBalanced m := by
  obtain ⟨c, s, rfl⟩ := List.exists_cons_of_ne_nil hne
  have hc : c = '(' := by
    rcases ht.brackets c (by simp) with hc | rfl
    · exact hc
    · have hle := ht.count_le [')'] ⟨s, rfl⟩
      simp at hle
  subst hc
  have hs : s ≠ [] := by
    rintro rfl
    have heq := ht.count_eq
    simp at heq
  obtain ⟨m, d, rfl⟩ : ∃ m d, s = m ++ [d] := ⟨_, _, (List.dropLast_append_getLast hs).symm⟩
  have heq := ht.count_eq
  have hd : d = ')' := by
    rcases ht.brackets d (by simp) with rfl | hd
    · -- Before a last opening bracket there would be more closing ones than opening ones.
      have hle := ht.count_le ('(' :: m) ⟨['('], by simp⟩
      have hend : ('(' :: (m ++ ['('])).count '(' = ('(' :: m).count '(' + 1 := by simp
      have hend' : ('(' :: (m ++ ['('])).count ')' = ('(' :: m).count ')' := by simp
      omega
    · exact hd
  subst hd
  rw [count_open_wrap, count_close_wrap] at heq
  refine ⟨m, rfl, fun c hc => ht.brackets c (by simp [hc]), by omega, ?_⟩
  rintro p ⟨q, rfl⟩
  have hlt := hopen ('(' :: p) (q ++ [')']) (by simp) (by simp) (by simp)
  rw [List.count_cons_self, List.count_cons_of_ne (show '(' ≠ ')' by decide)] at hlt
  omega

/-- **A balanced text is two balanced texts in a row, or a pair of brackets around one.** -/
theorem IsBalanced.parts {t : Text} (ht : IsBalanced t) (hne : t ≠ []) :
    (∃ u v, t = u ++ v ∧ u ≠ [] ∧ v ≠ [] ∧ IsBalanced u ∧ IsBalanced v) ∨
      ∃ m, t = '(' :: (m ++ [')']) ∧ IsBalanced m := by
  by_cases hcut : ∃ u v, t = u ++ v ∧ u ≠ [] ∧ v ≠ [] ∧ u.count '(' = u.count ')'
  · obtain ⟨u, v, rfl, hu, hv, heq⟩ := hcut
    exact .inl ⟨u, v, rfl, hu, hv, ht.of_append heq⟩
  · refine .inr (ht.exists_inside hne ?_)
    intro u v huv hu hv
    have hle := ht.count_le u ⟨v, huv.symm⟩
    have hneq : u.count '(' ≠ u.count ')' := fun heq => hcut ⟨u, v, huv, hu, hv, heq⟩
    omega

/-! ## What the variables yield -/

variable {g : Grammar}

theorem yields_L_iff (hg : g.HasRules rules) {t : Text} : g.Yields ['L'] t ↔ t = ['('] := by
  rw [yields_iff]
  simp [hg _ _, rules]

theorem yields_R_iff (hg : g.HasRules rules) {t : Text} : g.Yields ['R'] t ↔ t = [')'] := by
  rw [yields_iff]
  simp [hg _ _, rules]

theorem yields_T_iff (hg : g.HasRules rules) {t : Text} :
    g.Yields ['T'] t ↔ ∃ u, g.Yields ['S'] u ∧ t = u ++ [')'] := by
  rw [yields_iff]
  simp [hg _ _, rules, yields_R_iff hg]

/-- The start variable yields brackets around nothing or around what it yields itself, or two texts
that it yields in a row. -/
theorem yields_S_iff (hg : g.HasRules rules) {t : Text} :
    g.Yields ['S'] t ↔ (∃ u, (u = [] ∨ g.Yields ['S'] u) ∧ t = '(' :: (u ++ [')'])) ∨
      ∃ u v, g.Yields ['S'] u ∧ g.Yields ['S'] v ∧ t = u ++ v := by
  constructor
  · intro hy
    rcases yields_iff.mp hy with ⟨c, hrule, rfl⟩ | ⟨b, c, u, v, hrule, hu, hv, rfl⟩
    · simp [hg _ _, rules] at hrule
    · have hcases :
          (b = ['L'] ∧ c = ['R']) ∨ (b = ['L'] ∧ c = ['T']) ∨ (b = ['S'] ∧ c = ['S']) := by
        simpa [hg _ _, rules] using hrule
      rcases hcases with ⟨rfl, rfl⟩ | ⟨rfl, rfl⟩ | ⟨rfl, rfl⟩
      · obtain rfl := (yields_L_iff hg).mp hu
        obtain rfl := (yields_R_iff hg).mp hv
        exact .inl ⟨[], .inl rfl, rfl⟩
      · obtain rfl := (yields_L_iff hg).mp hu
        obtain ⟨m, hm, rfl⟩ := (yields_T_iff hg).mp hv
        exact .inl ⟨m, .inr hm, rfl⟩
      · exact .inr ⟨u, v, hu, hv, rfl⟩
  · have hL : g.Yields ['L'] ['('] := (yields_L_iff hg).mpr rfl
    have hR : g.Yields ['R'] [')'] := (yields_R_iff hg).mpr rfl
    rintro (⟨u, rfl | hu, rfl⟩ | ⟨u, v, hu, hv, rfl⟩)
    · exact .pair ((hg _ _).mpr (by decide)) hL hR
    · exact .pair ((hg _ _).mpr (by decide)) hL ((yields_T_iff hg).mpr ⟨u, hu, rfl⟩)
    · exact .pair ((hg _ _).mpr (by decide)) hu hv

/-! ## The language -/

theorem isBalanced_of_yields (hg : g.HasRules rules) {t : Text} (hy : g.Yields ['S'] t) :
    IsBalanced t := by
  -- By the length of the text: the variable in between, `T`, has no statement of its own.
  rcases (yields_S_iff hg).mp hy with ⟨u, rfl | hu, ht⟩ | ⟨u, v, hu, hv, ht⟩
  · rw [ht]
    exact isBalanced_nil.wrap
  · have hlen : u.length < t.length := by
      rw [ht, List.length_cons, List.length_append]
      omega
    rw [ht]
    exact (isBalanced_of_yields hg hu).wrap
  · have hlenu : 0 < u.length := List.length_pos_iff.mpr hu.ne_nil
    have hlenv : 0 < v.length := List.length_pos_iff.mpr hv.ne_nil
    have hlen : t.length = u.length + v.length := by rw [ht, List.length_append]
    rw [ht]
    exact (isBalanced_of_yields hg hu).append (isBalanced_of_yields hg hv)
termination_by t.length

theorem yields_of_isBalanced (hg : g.HasRules rules) {t : Text} (hne : t ≠ [])
    (ht : IsBalanced t) : g.Yields ['S'] t := by
  refine (yields_S_iff hg).mpr ?_
  rcases ht.parts hne with ⟨u, v, huv, hu, hv, hbu, hbv⟩ | ⟨m, hm, hbm⟩
  · have hlenu : 0 < u.length := List.length_pos_iff.mpr hu
    have hlenv : 0 < v.length := List.length_pos_iff.mpr hv
    have hlen : t.length = u.length + v.length := by rw [huv, List.length_append]
    exact .inr ⟨u, v, yields_of_isBalanced hg hu hbu, yields_of_isBalanced hg hv hbv, huv⟩
  · refine .inl ⟨m, ?_, hm⟩
    have hlen : m.length < t.length := by
      rw [hm, List.length_cons, List.length_append]
      omega
    by_cases hnil : m = []
    · exact .inl hnil
    · exact .inr (yields_of_isBalanced hg hnil hbm)
termination_by t.length

/-- **The start variable yields exactly the balanced texts.** -/
theorem yields_start_iff (hg : g.HasRules rules) {t : Text} (hne : t ≠ []) :
    g.Yields ['S'] t ↔ IsBalanced t :=
  ⟨isBalanced_of_yields hg, yields_of_isBalanced hg hne⟩

/-- **A solver with the bundled grammar of brackets recognises the balanced ones.** The grammar can
be loaded with or without a journal, and the store may have been used with it before. -/
theorem solve_iff_isBalanced {journal : Option Journal} {now : Moment} {d : Disk}
    (hload : ∀ e, ((Source.bundled (some "balanced.txt")).load journal now d).1
      ≠ .error (.disk e)) :
    ∃ g, ((Source.bundled (some "balanced.txt")).load journal now d).1 = .ok g ∧
      ∀ (s : Solver) (b : Bench) (word : Text), s.grammar = g → s.start = ['S'] →
        b.store.Reachable (·.SameProductions g) → word ≠ [] →
        (∀ e, (s.solve word b).1 ≠ .error (.disk e)) →
        ∃ answer, (s.solve word b).1 = .ok answer ∧
          (answer = true ↔ (∀ c ∈ word, c = '(' ∨ c = ')') ∧ word.count '(' = word.count ')' ∧
            ∀ p, p <+: word → p.count ')' ≤ p.count '(') := by
  obtain ⟨g, hread, hg⟩ := exists_grammar
  have hname : bundled? (bundledName (some "balanced.txt")) = some balanced := by
    decide +kernel
  refine ⟨g, load_bundled hname (by decide +kernel) hread hload, ?_⟩
  intro s b word hs hstart hb hw hlog
  obtain ⟨answer, hok, hiff⟩ := Solver.solve_iff_yields (hs ▸ .refl g) hb hw hlog
  refine ⟨answer, hok, hiff.trans ?_⟩
  rw [hstart, yields_start_iff hg hw]
  exact ⟨fun h => ⟨h.brackets, h.count_eq, h.count_le⟩, fun ⟨h₁, h₂, h₃⟩ => ⟨h₁, h₂, h₃⟩⟩

/-- Two words with as many opening as closing brackets, the second with one closed too early. -/
theorem solve_iff_isBalanced_nested :
    ∃ g, ((Source.bundled (some "balanced.txt")).load none Bench.first.now Bench.first.disk).1
        = .ok g ∧
      ((Solver.quiet g).solve "(())()" .first).1 = .ok true ∧
      ((Solver.quiet g).solve "())(()" .first).1 = .ok false := by
  let loaded := ((Source.bundled (some "balanced.txt")).load none Bench.first.now
    Bench.first.disk).1
  have hload : loaded.isOk = true := by decide +kernel
  obtain ⟨g, hg, hsolve⟩ := solve_iff_isBalanced (fun _ => Act.ne_error_of_isOk hload _)
  have hvalue : g = loaded.toOption.getD (.ofProductions []) := by
    show g = Option.getD (Except.toOption ((Source.bundled (some "balanced.txt")).load none
      Bench.first.now Bench.first.disk).1) _
    rw [hg]
    rfl
  have hb : Bench.first.store.Reachable (·.SameProductions g) := .new 1 false
  refine ⟨g, hg, ?_, ?_⟩
  · have hok : ((Solver.quiet g).solve "(())()" .first).1.isOk = true := by
      rw [hvalue]
      decide +kernel
    obtain ⟨answer, hans, hiff⟩ := hsolve (Solver.quiet g) .first "(())()" rfl rfl hb (by decide)
      (fun _ => Act.ne_error_of_isOk hok _)
    have hprefixes : ∀ p ∈ ("(())()" : Text).inits, p.count ')' ≤ p.count '(' := by decide
    rw [hans, hiff.mpr ⟨by simp, by decide, fun p hp => hprefixes p ((List.mem_inits p _).mpr hp)⟩]
  · have hok : ((Solver.quiet g).solve "())(()" .first).1.isOk = true := by
      rw [hvalue]
      decide +kernel
    obtain ⟨answer, hans, hiff⟩ := hsolve (Solver.quiet g) .first "())(()" rfl rfl hb (by decide)
      (fun _ => Act.ne_error_of_isOk hok _)
    have hfalse : answer = false := by
      refine Bool.eq_false_iff.mpr fun ht => ?_
      have hle := (hiff.mp ht).2.2 "())" ⟨"(()".toList, rfl⟩
      revert hle
      decide
    rw [hans, hfalse]

end Pyramid.Brackets
