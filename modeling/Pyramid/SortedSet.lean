/-!
# Finite sets as sorted lists

A finite set over an ordered type is kept as the list of its members in strictly increasing order.
That list is the only one, so two sets with the same members are equal (`SortedSet.ext_mem`) and
whatever is printed from a set does not depend on how it was gathered.

The sets of the specification's data model (§3), of productions, derivations and variables, are kept
in this way.

Members are put in one at a time; putting in a member that is smaller than all the others, which is
how the chart delivers them, takes one comparison.
-/

namespace Pyramid

/-- A finite set, listed in strictly increasing order. -/
structure SortedSet (α : Type) [Ord α] where
  toList : List α
  ordered : toList.Pairwise fun a b => compare a b = .lt

namespace SortedSet

variable {α : Type} [Ord α]

instance : Membership α (SortedSet α) := ⟨fun s a => a ∈ s.toList⟩

theorem mem_iff {a : α} {s : SortedSet α} : a ∈ s ↔ a ∈ s.toList := Iff.rfl

instance [DecidableEq α] (a : α) (s : SortedSet α) : Decidable (a ∈ s) :=
  inferInstanceAs (Decidable (a ∈ s.toList))

instance [DecidableEq α] : DecidableEq (SortedSet α) := fun s t =>
  decidable_of_iff (s.toList = t.toList) ⟨fun h => by cases s; cases t; simp_all, fun h => h ▸ rfl⟩

/-- The set without members. -/
def empty : SortedSet α := ⟨[], .nil⟩

instance : EmptyCollection (SortedSet α) := ⟨empty⟩

@[simp] theorem not_mem_empty (a : α) : a ∉ (∅ : SortedSet α) := List.not_mem_nil

/-- Has the set no member? -/
def isEmpty (s : SortedSet α) : Bool := s.toList.isEmpty

/-- The number of members. -/
def size (s : SortedSet α) : Nat := s.toList.length

/-! ## Putting in a member -/

/-- Puts `a` at its place in an increasing list, unless it is there already. -/
def insertList (a : α) : List α → List α
  | [] => [a]
  | b :: bs =>
    match compare a b with
    | .lt => a :: b :: bs
    | .eq => b :: bs
    | .gt => b :: insertList a bs

theorem mem_insertList_subset {a x : α} {l : List α} (h : x ∈ insertList a l) : x = a ∨ x ∈ l := by
  fun_induction insertList a l <;> grind

theorem pairwise_insertList [Std.TransOrd α] {a : α} {l : List α}
    (h : l.Pairwise fun a b => compare a b = .lt) :
    (insertList a l).Pairwise fun a b => compare a b = .lt := by
  fun_induction insertList a l with
  | case1 => simp
  | case2 b bs hab =>
    refine List.pairwise_cons.mpr ⟨fun c hc => ?_, h⟩
    rcases List.mem_cons.mp hc with rfl | hc
    · exact hab
    · exact Std.TransCmp.lt_trans hab (List.rel_of_pairwise_cons h hc)
  | case3 => exact h
  | case4 b bs hab ih =>
    have h' := List.pairwise_cons.mp h
    refine List.pairwise_cons.mpr ⟨fun c hc => ?_, ih h'.2⟩
    rcases mem_insertList_subset hc with rfl | hc
    · exact Std.OrientedCmp.lt_of_gt hab
    · exact h'.1 c hc

/-- The set with one more member. -/
def insert [Std.TransOrd α] (s : SortedSet α) (a : α) : SortedSet α :=
  ⟨insertList a s.toList, pairwise_insertList s.ordered⟩

theorem mem_insertList [Std.LawfulEqOrd α] {a x : α} {l : List α} :
    x ∈ insertList a l ↔ x = a ∨ x ∈ l := by
  fun_induction insertList a l with
  | case1 => simp
  | case2 => simp
  | case3 b bs hab =>
    obtain rfl := Std.LawfulEqOrd.eq_of_compare hab
    simp
  | case4 b bs hab ih => grind

@[simp] theorem mem_insert [Std.TransOrd α] [Std.LawfulEqOrd α] {s : SortedSet α} {a x : α} :
    x ∈ s.insert a ↔ x = a ∨ x ∈ s := mem_insertList

/-! ## Gathering a list -/

/-- The set of a list's elements. -/
def ofList [Std.TransOrd α] (l : List α) : SortedSet α := l.foldl insert ∅

theorem mem_foldl_insert [Std.TransOrd α] [Std.LawfulEqOrd α] {l : List α} {s : SortedSet α}
    {x : α} : x ∈ l.foldl insert s ↔ x ∈ l ∨ x ∈ s := by
  induction l generalizing s with
  | nil => simp
  | cons a l ih => simp only [List.foldl_cons, ih, mem_insert, List.mem_cons]; grind

@[simp] theorem mem_ofList [Std.TransOrd α] [Std.LawfulEqOrd α] {l : List α} {x : α} :
    x ∈ ofList l ↔ x ∈ l := by
  simp [ofList, mem_foldl_insert]

@[simp] theorem mem_toList_ofList [Std.TransOrd α] [Std.LawfulEqOrd α] {l : List α} {x : α} :
    x ∈ (ofList l).toList ↔ x ∈ l := mem_ofList

/-! ## One list for each set -/

theorem eq_of_pairwise_of_mem [Std.TransOrd α] :
    ∀ {l m : List α}, l.Pairwise (fun a b => compare a b = .lt) →
      m.Pairwise (fun a b => compare a b = .lt) → (∀ x, x ∈ l ↔ x ∈ m) → l = m
  | [], [], _, _, _ => rfl
  | [], b :: m, _, _, h => by simpa using h b
  | a :: l, [], _, _, h => by simpa using h a
  | a :: l, b :: m, hl, hm, h => by
    have hl' := List.pairwise_cons.mp hl
    have hm' := List.pairwise_cons.mp hm
    have irrefl : ∀ x : α, compare x x ≠ .lt := fun x hx => by
      simp [Std.ReflCmp.compare_self] at hx
    have hab : a = b := by
      rcases List.mem_cons.mp ((h a).mp (by simp)) with hab | ham
      · exact hab
      · rcases List.mem_cons.mp ((h b).mpr (by simp)) with hba | hbl
        · exact hba.symm
        · exact absurd (Std.TransCmp.lt_trans (hm'.1 a ham) (hl'.1 b hbl)) (irrefl b)
    subst hab
    have htail : l = m := eq_of_pairwise_of_mem hl'.2 hm'.2 fun x => by
      have hx := h x
      constructor
      · intro hxl
        rcases List.mem_cons.mp (hx.mp (List.mem_cons_of_mem _ hxl)) with rfl | hxm
        · exact absurd (hl'.1 x hxl) (irrefl x)
        · exact hxm
      · intro hxm
        rcases List.mem_cons.mp (hx.mpr (List.mem_cons_of_mem _ hxm)) with rfl | hxl
        · exact absurd (hm'.1 x hxm) (irrefl x)
        · exact hxl
    rw [htail]

/-- **Sets with the same members are equal.** -/
theorem ext_mem [Std.TransOrd α] {s t : SortedSet α} (h : ∀ x, x ∈ s ↔ x ∈ t) : s = t := by
  cases s with
  | mk l hl =>
    cases t with
    | mk m hm =>
      have : l = m := eq_of_pairwise_of_mem hl hm h
      subst this
      rfl

/-- No member is listed twice. -/
theorem nodup_toList [Std.TransOrd α] (s : SortedSet α) : s.toList.Nodup :=
  s.ordered.imp fun h hab => by
    subst hab
    simp [Std.ReflCmp.compare_self] at h

theorem isEmpty_iff {s : SortedSet α} : s.isEmpty = true ↔ ∀ x, x ∉ s := by
  simp [isEmpty, mem_iff, List.eq_nil_iff_forall_not_mem]

theorem eq_empty_of_forall_not_mem [Std.TransOrd α] {s : SortedSet α} (h : ∀ x, x ∉ s) : s = ∅ :=
  ext_mem fun x => iff_of_false (h x) (not_mem_empty x)

end SortedSet
end Pyramid
