import Mathlib
import Pyramid.Proofs.Chart.Run

/-!
# Solvers without a journal

The disk can only refuse what it is asked to write. A solver whose journal is silent enters nothing,
so none of its actions is ever broken off (`Act.Unrefused`). In particular it decides every word on
every bench (`Solver.unrefused_solve`).

`Solver.IsHeard` is what is asked of other solvers in its place: that the disk takes what they
enter.
-/

namespace Pyramid

/-! ## Actions that are never broken off -/

namespace Act

variable {α β : Type} {act : Act Bench α} {f : α → Act Bench β}

/-- On no bench is the action refused an entry in the journal. -/
def Unrefused (act : Act Bench α) : Prop := ∀ b e, (act b).1 ≠ .error (.disk e)

theorem Unrefused.pure (a : α) : Unrefused (pure a) := by
  intro b e h
  cases h

theorem Unrefused.throw {f : Failure} (hf : ∀ e, f ≠ .disk e) :
    Unrefused (throw f : Act Bench α) := by
  intro b e h
  exact hf e (Except.error.inj h)

theorem Unrefused.bind (h : act.Unrefused) (hf : ∀ a, (f a).Unrefused) :
    (act >>= f).Unrefused := by
  intro b e
  cases hact : act b with
  | mk r b' =>
    cases r with
    | ok a =>
      rw [bind_of_ok hact]
      exact hf a b' e
    | error e' =>
      rw [bind_of_error hact]
      intro he
      cases he
      exact h b e (by rw [hact])

theorem unrefused_get : Unrefused (get : Act Bench Bench) := by
  intro b e h
  cases h

end Act

/-! ## Silent journals -/

/-- A silent journal takes no message and leaves the disk alone. -/
theorem Journal.record_of_silent {j : Journal} (h : j.level = .silent) (now : Moment)
    (severity : Severity) (message : Text) (d : Disk) :
    j.record now severity message d = (.ok (), d) := by
  have htakes : j.takes severity.level = false := by
    unfold Journal.takes
    rw [h]
    cases severity <;> rfl
  unfold Journal.record
  rw [htakes]
  rfl

theorem Journal.raise_of_silent {α : Type} {j : Journal} (h : j.level = .silent) (now : Moment)
    (f : Failure) (d : Disk) : (j.raise now f d : Except Failure α × Disk) = (.error f, d) := by
  unfold Journal.raise
  rw [record_of_silent h]

/-- Combining fails only because of the chains. -/
theorem Grammar.combine_ne_disk (g : Grammar) (l r : Node) (t : Text) (stamp : Stamp)
    (e : Disk.Error) : g.combine l r t stamp ≠ .error (.disk e) := by
  unfold Grammar.combine
  by_cases hlen : l.leftChain.length = r.rightChain.length
  · simp [hlen]
  · simp [hlen]

namespace Store

/-- A request fails with what making the node fails with, or because the node is one of another
text. -/
theorem obtain_ne_disk (st : Store) (t : Text) {make : Stamp → Except Failure Node}
    (hmake : ∀ stamp e, make stamp ≠ .error (.disk e)) (e : Disk.Error) :
    (st.obtain t make).1 ≠ .error (.disk e) := by
  unfold Store.obtain
  intro h
  split at h
  · cases h
  · split at h
    · next f hf =>
      cases h
      exact hmake _ e hf
    · split at h
      · cases h
      · cases h

end Store

namespace Solver

variable {s : Solver} {b : Bench} {word : Text}

section Silent

variable (hs : s.journal.level = .silent)

include hs

theorem unrefused_note (severity : Severity) (message : Text) :
    (s.note severity message).Unrefused := by
  intro b e
  unfold Solver.note
  rw [Journal.record_of_silent hs]
  intro h
  cases h

theorem unrefused_obtain {t : Text} {make : Stamp → Except Failure Node}
    (hmake : ∀ stamp e, make stamp ≠ .error (.disk e)) : (s.obtain t make).Unrefused := by
  intro b e
  have hne := b.store.obtain_ne_disk t hmake
  unfold Solver.obtain
  cases hobtain : b.store.obtain t make with
  | mk r store =>
    rw [hobtain] at hne
    cases r with
    | ok n =>
      intro h
      cases h
    | error f =>
      intro h
      cases f with
      | fault f =>
        -- The fault is not entered either, and so it stays what it is.
        simp only [Journal.raise_of_silent hs] at h
        cases h
      | disk e' => exact hne e' rfl
      | _ => cases h

theorem unrefused_seedRow (word : Text) : (s.seedRow word).Unrefused := by
  induction word with
  | nil => exact .pure []
  | cons c word ih =>
    refine (unrefused_obtain hs fun stamp e h => by cases h).bind fun n => ?_
    exact ih.bind fun row => .pure _

theorem unrefused_growRow (span : Nat) (word : Text) (row : Row) :
    (s.growRow span word row).Unrefused := by
  induction row generalizing word with
  | nil => exact .pure []
  | cons left row ih =>
    cases row with
    | nil => exact .pure []
    | cons right row =>
      refine (unrefused_obtain hs (s.grammar.combine_ne_disk left right _)).bind fun n => ?_
      exact (ih word.tail).bind fun above => .pure _

theorem unrefused_growRows (word : Text) (height : Nat) (row : Row) (count : Nat) :
    (s.growRows word height row count).Unrefused := by
  induction count generalizing height row with
  | zero => exact .pure []
  | succ count ih =>
    refine (unrefused_growRow hs (height + 2) word row).bind fun above => ?_
    refine (unrefused_note hs _ _).bind fun _ => ?_
    exact (ih (height + 1) above).bind fun rows => .pure _

theorem unrefused_chart (word : Text) : (s.chart word).Unrefused := by
  unfold chart
  by_cases hw : word = []
  · rw [if_pos hw]
    exact .throw fun e h => by cases h
  · rw [if_neg hw]
    refine (unrefused_seedRow hs word).bind fun row => ?_
    exact (unrefused_growRows hs word 0 row _).bind fun rows => .pure _

theorem unrefused_derive (word : Text) : (s.derive word).Unrefused := by
  refine (unrefused_chart hs word).bind fun rows => ?_
  cases rows.getLast?.bind (·.head?) with
  | some n => exact .pure n
  | none => exact .throw fun e h => by cases h

/-- **Without a journal no decision is broken off.** -/
theorem unrefused_solve (word : Text) : (s.solve word).Unrefused := by
  refine (unrefused_derive hs word).bind fun n => ?_
  refine Act.unrefused_get.bind fun b => ?_
  exact (unrefused_note hs _ _).bind fun _ => .pure _

end Silent

/-! ## Solvers that are heard -/

/-- The solver keeps no journal, or the disk takes all that it enters when it decides the word. -/
def IsHeard (s : Solver) (word : Text) (b : Bench) : Prop :=
  s.journal.level = .silent ∨ ∀ e, (s.solve word b).1 ≠ .error (.disk e)

/-- A chart that is broken off leaves nothing to decide. -/
theorem solve_eq_error_of_chart {f : Failure} (h : (s.chart word b).1 = .error f) :
    (s.solve word b).1 = .error f := by
  cases hchart : s.chart word b with
  | mk r b' =>
    rw [hchart] at h
    obtain rfl : r = .error f := h
    have hderive : s.derive word b = (.error f, b') := Act.bind_of_error hchart
    have hsolve : s.solve word b = (.error f, b') := Act.bind_of_error hderive
    rw [hsolve]

theorem IsHeard.solve_ne_disk (h : s.IsHeard word b) (e : Disk.Error) :
    (s.solve word b).1 ≠ .error (.disk e) := by
  rcases h with hs | hlog
  · exact unrefused_solve hs word b e
  · exact hlog e

theorem IsHeard.chart_ne_disk (h : s.IsHeard word b) (e : Disk.Error) :
    (s.chart word b).1 ≠ .error (.disk e) :=
  fun hchart => h.solve_ne_disk e (solve_eq_error_of_chart hchart)

end Solver
end Pyramid
