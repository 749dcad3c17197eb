import Mathlib
import Pyramid.Proofs.Chart.Ambiguity

/-!
# The order of derivations

A node lists the derivations of a variable by offset and then by key; the production as such is not
looked at. If two of them had the same offset and the same key, they would stand in the order in
which the set happens to be gone through.

* Keys are compared code point by code point (`Text.compare_eq_lt_iff`), so what decides is the
  *place* of a derivation, its offset and the code points of its key (`Derivation.precedes_iff`).
* Productions with one head and one key are equal. So no two derivations of a variable have the same
  place (`Derivation.eq_of_place_eq`), and there is one way only to put them in order
  (`Derivation.eq_arranged`).
-/

namespace Pyramid

/-! ## Texts as code points -/

namespace Text

/-- The code points of a text, as numbers. -/
def codes (t : Text) : List Nat := t.map Char.toNat

theorem codes_injective : Function.Injective codes :=
  List.map_injective_iff.mpr fun _ _ h => Char.toNat_inj.mp h

theorem compare_char_eq_lt_iff {c d : Char} : compare c d = .lt ↔ c.toNat < d.toNat := by
  show compareOfLessAndEq c d = .lt ↔ c.toNat < d.toNat
  rw [compareOfLessAndEq_eq_lt]
  rfl

/-- **Texts are compared code point by code point.** -/
theorem compare_eq_lt_iff {a b : Text} : compare a b = .lt ↔ codes a < codes b := by
  induction a generalizing b with
  | nil =>
    cases b with
    | nil => simp [codes]
    | cons d b => simp [codes, List.compare_nil_cons]
  | cons c a ih =>
    cases b with
    | nil => simp [codes, List.compare_cons_nil]
    | cons d b =>
      rw [List.compare_cons_cons, Ordering.then_eq_lt, compare_char_eq_lt_iff,
        Std.LawfulEqOrd.compare_eq_iff_eq, ih]
      simp only [codes, List.map_cons, List.cons_lt_cons_iff, Char.toNat_inj]

end Text

open Text

/-! ## Places -/

namespace Derivation

variable {d e : Derivation} {a : Text} {met met' l : List Derivation}

/-- What decides where a derivation is listed: its offset, then the code points of its key. -/
def place (d : Derivation) : ℤ ×ₗ List ℕ := toLex (d.offset, codes d.production.key)

theorem compare_eq_lt_iff_place :
    compareLex (compareOn offset) (compareOn (·.production.key)) d e = .lt ↔ d.place < e.place := by
  rw [compareLex, Ordering.then_eq_lt, place, place, Prod.Lex.toLex_lt_toLex]
  simp only [compareOn, Int.compare_eq_lt, Std.LawfulEqOrd.compare_eq_iff_eq, compare_eq_lt_iff]

theorem precedes_iff : d.precedes e = true ↔ d.place ≤ e.place := by
  rw [← not_lt, ← compare_eq_lt_iff_place, ← Std.OrientedCmp.gt_iff_lt]
  unfold precedes
  cases compareLex (compareOn offset) (compareOn (·.production.key)) d e <;> simp

/-- **No two derivations of one variable have the same place.** -/
theorem eq_of_place_eq (hhead : d.production.head = e.production.head) (h : d.place = e.place) :
    d = e := by
  obtain ⟨hoffset, hcodes⟩ := Prod.mk.inj (toLex_inj.mp h)
  exact Derivation.ext (Production.ext_key hhead (codes_injective hcodes)) hoffset

/-! ## Arrangements -/

/-- The derivations of a variable in order, if those of all variables are met as they stand here. -/
def arranged (a : Text) (met : List Derivation) : List Derivation :=
  (met.filter (·.production.head = a)).mergeSort precedes

theorem arranged_perm (a : Text) (met : List Derivation) :
    (arranged a met).Perm (met.filter (·.production.head = a)) :=
  List.mergeSort_perm _ _

theorem head_of_mem_arranged (h : d ∈ arranged a met) : d.production.head = a := by
  have hmem := (arranged_perm a met).mem_iff.mp h
  exact of_decide_eq_true (List.mem_filter.mp hmem).2

/-- In an arrangement the place tells derivations apart, since all have the same head. -/
theorem injOn_place_arranged (a : Text) (met : List Derivation) :
    Set.InjOn place {d | d ∈ arranged a met} := by
  intro d hd e he h
  have hhead : d.production.head = e.production.head := by
    rw [head_of_mem_arranged hd, head_of_mem_arranged he]
  exact eq_of_place_eq hhead h

theorem pairwise_arranged (a : Text) (met : List Derivation) :
    (arranged a met).Pairwise fun d e => d.place ≤ e.place := by
  have hsorted : (arranged a met).Pairwise fun d e => d.precedes e = true := by
    refine List.pairwise_mergeSort (fun d e f hde hef => ?_) (fun d e => ?_) _
    · rw [precedes_iff] at *
      exact hde.trans hef
    · rw [Bool.or_eq_true, precedes_iff, precedes_iff]
      exact le_total d.place e.place
  exact hsorted.imp precedes_iff.mp

/-- **There is one arrangement only.** Whatever puts the derivations of a variable into an order in
which places do not decrease gives this list: two that it could have exchanged would be equal. -/
theorem eq_arranged (hperm : l.Perm (met.filter (·.production.head = a)))
    (hordered : l.Pairwise fun d e => d.place ≤ e.place) : l = arranged a met := by
  have hsame := hperm.trans (arranged_perm a met).symm
  refine List.Perm.eq_of_pairwise ?_ hordered (pairwise_arranged a met) hsame
  intro d e hd he hde hed
  exact injOn_place_arranged a met (hsame.mem_iff.mp hd) he (le_antisymm hde hed)

theorem arranged_eq_of_perm (h : met.Perm met') : arranged a met = arranged a met' :=
  eq_arranged ((arranged_perm a met).trans (h.filter _)) (pairwise_arranged a met)

/-- Where no derivation is met twice, places increase. -/
theorem pairwise_lt_arranged (a : Text) (h : met.Nodup) :
    (arranged a met).Pairwise fun d e => d.place < e.place := by
  have hnodup : (arranged a met).Nodup := (arranged_perm a met).nodup_iff.mpr (h.filter _)
  refine ((pairwise_arranged a met).and hnodup).imp_of_mem fun hd he ⟨hle, hne⟩ => ?_
  exact lt_of_le_of_ne hle fun heq => hne (injOn_place_arranged a met hd he heq)

end Derivation

/-! ## What a node lists -/

namespace Node

theorem derivationsFor_eq_arranged (n : Node) (a : Text) :
    n.derivationsFor a = Derivation.arranged a n.derivations.toList := rfl

/-- **The derivations of a variable are listed in one order, which is strict.**

Whatever the derivations of a node are, it lists each one of the variable once and nothing else.
Offsets increase along the list and, where they are equal, the keys do by their code points; no two
derivations are at the same place. So the list is the same in whatever order the set is gone
through. The node is ambiguous for the variable exactly if it has two different derivations of
it. -/
theorem derivationsFor_strict (n : Node) (a : Text) :
    (∀ d, (n.derivationsFor a).count d
      = if d ∈ n.derivations ∧ d.production.head = a then 1 else 0) ∧
    (n.derivationsFor a).Pairwise (fun d e => d.place < e.place) ∧
    (∀ met : List Derivation, met.Perm n.derivations.toList →
      Derivation.arranged a met = n.derivationsFor a) ∧
    (n.isAmbiguousFor a = true ↔
      ∃ d ∈ n.derivations, ∃ e ∈ n.derivations,
        d.production.head = a ∧ e.production.head = a ∧ d ≠ e) := by
  refine ⟨fun d => ?_, ?_, fun met hmet => ?_, ?_⟩
  · simp only [(nodup_derivationsFor n a).count, mem_derivationsFor]
  · exact Derivation.pairwise_lt_arranged a n.derivations.nodup_toList
  · rw [derivationsFor_eq_arranged, Derivation.arranged_eq_of_perm hmet]
  · simp only [isAmbiguousFor_iff, mem_derivationsFor]
    constructor
    · rintro ⟨d, ⟨hd, hda⟩, e, ⟨he, hea⟩, hne⟩
      exact ⟨d, hd, e, he, hda, hea, hne⟩
    · rintro ⟨d, hd, e, he, hda, hea, hne⟩
      exact ⟨d, ⟨hd, hda⟩, e, ⟨he, hea⟩, hne⟩

/-- In the set `A B` stands before `A\x01 B`, since the first symbol is the shorter one. The node
lists them the other way round, since the space comes after the control character, and does so too
if the set is gone through in another order. -/
theorem derivationsFor_strict_control :
    let p : Production := ⟨"S", .pair "A" "B", by decide, by decide⟩
    let q : Production := ⟨"S", .pair "A\x01" "B", by decide, by decide⟩
    let t : Production := ⟨"T", .pair "A" "B", by decide, by decide⟩
    let n := Node.make ⟨1, 0⟩ "aab" (.ofList [⟨q, 1⟩, ⟨t, 1⟩, ⟨p, 2⟩, ⟨p, 1⟩]) none none
    n.derivations.toList = [⟨p, 1⟩, ⟨q, 1⟩, ⟨t, 1⟩, ⟨p, 2⟩] ∧
      n.derivationsFor "S" = [⟨q, 1⟩, ⟨p, 1⟩, ⟨p, 2⟩] ∧
      Derivation.arranged "S" [⟨p, 2⟩, ⟨t, 1⟩, ⟨p, 1⟩, ⟨q, 1⟩] = [⟨q, 1⟩, ⟨p, 1⟩, ⟨p, 2⟩] ∧
      n.isAmbiguousFor "S" = true := by
  intro p q t n
  have hset : n.derivations.toList = [⟨p, 1⟩, ⟨q, 1⟩, ⟨t, 1⟩, ⟨p, 2⟩] := by decide +kernel
  have hlist : n.derivationsFor "S" = [⟨q, 1⟩, ⟨p, 1⟩, ⟨p, 2⟩] := by
    rw [derivationsFor_eq_arranged, hset]
    exact (Derivation.eq_arranged (by decide +kernel) (by decide +kernel)).symm
  have hperm : [⟨p, 2⟩, ⟨t, 1⟩, ⟨p, 1⟩, ⟨q, 1⟩].Perm n.derivations.toList := by
    rw [hset]
    decide +kernel
  have hq : (⟨q, 1⟩ : Derivation) ∈ n.derivations := by decide +kernel
  have hp : (⟨p, 1⟩ : Derivation) ∈ n.derivations := by decide +kernel
  obtain ⟨-, -, hmet, hambiguous⟩ := derivationsFor_strict n "S"
  refine ⟨hset, hlist, (hmet _ hperm).trans hlist, hambiguous.mpr ?_⟩
  exact ⟨_, hq, _, hp, rfl, rfl, by decide⟩

end Node
end Pyramid
