import Mathlib
import Pyramid.Grammar.Source
import Pyramid.Proofs.Grammar.Yield

/-!
# Reading the bundled grammars

A bundled grammar is always there, so reading it can only fail at the entry in the journal. What it
gives is told by its rules: `Grammar.HasRules` is the view of a grammar as a list of heads and
bodies.
-/

namespace Pyramid.Grammar

/-- The productions of the grammar are those on the list. -/
def HasRules (g : Grammar) (rules : List (Text × Body)) : Prop :=
  ∀ a body, g.HasRule a body ↔ (a, body) ∈ rules

theorem hasRules_productions (g : Grammar) :
    g.HasRules (g.productions.map fun p => (p.head, p.body)) := by
  intro a body
  rw [HasRule, List.mem_map]
  constructor
  · rintro ⟨p, hp, rfl, rfl⟩
    exact ⟨p, hp, rfl⟩
  · rintro ⟨p, hp, he⟩
    cases he
    exact ⟨p, hp, rfl, rfl⟩

/-- A text whose lines spell the rules is read as a grammar with these rules. -/
theorem readText_eq_ok {t : Text} {rules : List (Text × Body)}
    (h : (readLines 1 (t.splitOn '\n')).map (·.map fun p => (p.head, p.body)) = .ok rules) :
    ∃ g, readText t = .ok g ∧ g.HasRules rules := by
  cases hread : readLines 1 (t.splitOn '\n') with
  | error e =>
    rw [hread] at h
    cases h
  | ok ps =>
    rw [hread] at h
    cases h
    refine ⟨.ofProductions ps, ?_, hasRules_productions _⟩
    unfold readText read
    rw [hread]
    rfl

/-- Loading a bundled grammar that can be read gives it, unless the entry in the journal is
refused. -/
theorem load_bundled {name : Option Text} {t : Text} {g : Grammar}
    (hname : bundled? (bundledName name) = some t) (hnull : '\x00' ∉ bundledName name)
    (hread : readText t = .ok g) {journal : Option Journal} {now : Moment} {d : Disk}
    (hlog : ∀ e, ((Source.bundled name).load journal now d).1 ≠ .error (.disk e)) :
    ((Source.bundled name).load journal now d).1 = .ok g := by
  have hsource :
      (Source.bundled name).read d = .ok (g, some ("resource:" ++ bundledName name)) := by
    unfold Source.read
    simp only [hnull, hname, hread, if_false]
    rfl
  unfold Source.load at hlog ⊢
  rw [hsource] at hlog ⊢
  cases journal with
  | none => rfl
  | some j =>
    cases hrec : j.record now .info (loadedMessage g ("resource:" ++ bundledName name)) d with
    | mk r disk =>
      simp only [hrec] at hlog ⊢
      cases r with
      | ok _ => rfl
      | error e => exact absurd rfl (hlog e)

end Pyramid.Grammar
