import Mathlib
import Pyramid.Proofs.Disk.Files
import Pyramid.Proofs.Grammar.RoundTrip

/-!
# Paths and their text

A path in its short form is read back from its text (`Path.ofText_text`), so it leads to the same
place whether it is given by its names or in writing (`Disk.locationOf_text`).

Texts that differ in their ending only are paths that differ in the end of their last name only
(`Path.exists_ofText_append`): they lead to different files in one directory.
-/

namespace Pyramid

open Text

namespace Path

variable {p q : Path} {t : Text}

/-! ## Anchors -/

theorem anchorOf_of_head? (h : t.head? ≠ some '/') : anchorOf t = .here := by
  cases t with
  | nil => rfl
  | cons c t =>
    rw [List.head?_cons, ne_eq, Option.some_inj] at h
    simp [anchorOf, h]

theorem anchorOf_slash (h : t.head? ≠ some '/') : anchorOf ('/' :: t) = .root := by
  cases t with
  | nil => rfl
  | cons c t =>
    rw [List.head?_cons, ne_eq, Option.some_inj] at h
    simp [anchorOf, h]

theorem anchorOf_slash_slash (h : t.head? ≠ some '/') :
    anchorOf ('/' :: '/' :: t) = .doubleRoot := by
  cases t with
  | nil => rfl
  | cons c t =>
    rw [List.head?_cons, ne_eq, Option.some_inj] at h
    simp [anchorOf, h]

/-! ## Names -/

theorem namesOf_slash (t : Text) : namesOf ('/' :: t) = namesOf t := by
  have hsplit : ('/' :: t).splitOn '/' = [[]] ++ t.splitOn '/' := List.splitOn_append_cons_self [] t
  unfold namesOf
  rw [hsplit, List.filter_append]
  rfl

/-- The path is as short as can be: no name is empty or `.`, and none holds a slash. -/
def IsShort (p : Path) : Prop := ∀ n ∈ p.names, n ≠ [] ∧ n ≠ ['.'] ∧ '/' ∉ n

theorem isShort_ofText (t : Text) : (ofText t).IsShort := by
  intro n hn
  obtain ⟨hmem, hkeep⟩ := List.mem_filter.mp hn
  rw [decide_eq_true_eq] at hkeep
  exact ⟨hkeep.1, hkeep.2, not_mem_of_mem_splitOn hmem⟩

theorem IsShort.append (hp : p.IsShort) (hq : q.IsShort) : (p ++ q).IsShort := by
  intro n hn
  change n ∈ (Path.append p q).names at hn
  unfold Path.append at hn
  split at hn
  · rcases List.mem_append.mp hn with hn | hn
    · exact hp n hn
    · exact hq n hn
  · exact hq n hn

section Join

variable {names : List Text} (h : ∀ n ∈ names, n ≠ [] ∧ n ≠ ['.'] ∧ '/' ∉ n)

include h

theorem namesOf_join : namesOf (join ['/'] names) = names := by
  by_cases hnil : names = []
  · rw [hnil]
    rfl
  · unfold namesOf
    rw [splitOn_join hnil fun n hn => (h n hn).2.2, List.filter_eq_self]
    intro n hn
    exact decide_eq_true ⟨(h n hn).1, (h n hn).2.1⟩

/-- Joined names begin with a name, if with anything. -/
theorem head?_join : (join ['/'] names).head? ≠ some '/' := by
  cases names with
  | nil => nofun
  | cons n names =>
    obtain ⟨hn, -, hslash⟩ := h n List.mem_cons_self
    obtain ⟨c, cs, rfl⟩ := List.exists_cons_of_ne_nil hn
    have hhead : (join ['/'] ((c :: cs) :: names)).head? = some c := by
      cases names with
      | nil => rw [join_singleton, List.head?_cons]
      | cons m names =>
        unfold join
        rw [List.intercalate_cons_cons, List.append_assoc, List.cons_append, List.head?_cons]
    rw [hhead, ne_eq, Option.some_inj]
    rintro rfl
    exact hslash List.mem_cons_self

end Join

/-- **A short path is read back from its text.** -/
theorem ofText_text (h : p.IsShort) : ofText p.text = p := by
  obtain ⟨anchor, names⟩ := p
  have hnames : namesOf (join ['/'] names) = names := namesOf_join h
  have hhead : (join ['/'] names).head? ≠ some '/' := head?_join h
  unfold text ofText
  cases anchor with
  | here =>
    by_cases hnil : names = []
    · rw [if_pos ⟨rfl, hnil⟩, hnil]
      decide
    · rw [if_neg fun hboth => hnil hboth.2]
      show (⟨anchorOf (join ['/'] names), namesOf (join ['/'] names)⟩ : Path) = _
      rw [anchorOf_of_head? hhead, hnames]
  | root =>
    rw [if_neg nofun]
    show (⟨anchorOf ('/' :: join ['/'] names), namesOf ('/' :: join ['/'] names)⟩ : Path) = _
    rw [anchorOf_slash hhead, namesOf_slash, hnames]
  | doubleRoot =>
    rw [if_neg nofun]
    show (⟨anchorOf ('/' :: '/' :: join ['/'] names),
      namesOf ('/' :: '/' :: join ['/'] names)⟩ : Path) = _
    rw [anchorOf_slash_slash hhead, namesOf_slash, namesOf_slash, hnames]

/-! ## Endings -/

/-- The end of a file's name: long enough that the name is neither `.` nor `..`, and without a
slash. -/
def IsEnding (ending : Text) : Prop := 2 < ending.length ∧ '/' ∉ ending

theorem IsEnding.length_append {ending : Text} (h : IsEnding ending) (stem : Text) :
    2 < (stem ++ ending).length := by
  rw [List.length_append]
  exact Nat.lt_add_left _ h.1

theorem IsEnding.head? {ending : Text} (h : IsEnding ending) : ending.head? ≠ some '/' :=
  fun hhead => h.2 (List.mem_of_head? hhead)

theorem exists_anchorOf_append (t : Text) :
    ∃ anchor, ∀ ending, IsEnding ending → anchorOf (t ++ ending) = anchor := by
  have hlater : ∀ {c : Char} (_ : c ≠ '/') (u : Text), (c :: u).head? ≠ some '/' := by
    intro c hc u hhead
    exact hc (Option.some.inj hhead)
  -- The anchor is decided by the first three characters at most.
  cases t with
  | nil => exact ⟨.here, fun ending he => anchorOf_of_head? he.head?⟩
  | cons c t =>
    by_cases hc : c = '/'
    · subst hc
      cases t with
      | nil => exact ⟨.root, fun ending he => anchorOf_slash he.head?⟩
      | cons c t =>
        by_cases hc : c = '/'
        · subst hc
          cases t with
          | nil => exact ⟨.doubleRoot, fun ending he => anchorOf_slash_slash he.head?⟩
          | cons c t =>
            by_cases hc : c = '/'
            · subst hc
              exact ⟨.root, fun ending he => rfl⟩
            · exact ⟨.doubleRoot, fun ending he => anchorOf_slash_slash (hlater hc _)⟩
        · exact ⟨.root, fun ending he => anchorOf_slash (hlater hc _)⟩
    · exact ⟨.here, fun ending he => anchorOf_of_head? (hlater hc _)⟩

/-- What is added to a text without a mark is added to its last piece. -/
theorem exists_splitOn_append (c : Char) (t : Text) :
    ∃ pieces stem, ∀ ending : Text, c ∉ ending →
      (t ++ ending).splitOn c = pieces ++ [stem ++ ending] := by
  by_cases ht : c ∈ t
  · obtain ⟨u, v, rfl⟩ := List.append_of_mem ht
    obtain ⟨pieces, stem, hv⟩ := exists_splitOn_append c v
    refine ⟨u.splitOn c ++ pieces, stem, fun ending he => ?_⟩
    rw [List.append_assoc, List.cons_append, List.splitOn_append_cons_self, hv ending he,
      List.append_assoc]
  · refine ⟨[], t, fun ending he => ?_⟩
    rw [List.nil_append, List.splitOn_eq_singleton]
    exact fun hc => (List.mem_append.mp hc).elim ht he
termination_by t.length
decreasing_by
  subst_vars
  rw [List.length_append, List.length_cons]
  omega

/-- **Texts with different endings are paths that differ in the end of their last name only.** -/
theorem exists_ofText_append (t : Text) :
    ∃ anchor names stem, ∀ ending, IsEnding ending →
      ofText (t ++ ending) = ⟨anchor, names ++ [stem ++ ending]⟩ := by
  obtain ⟨anchor, hanchor⟩ := exists_anchorOf_append t
  obtain ⟨pieces, stem, hsplit⟩ := exists_splitOn_append '/' t
  refine ⟨anchor, pieces.filter fun n => n ≠ [] ∧ n ≠ ['.'], stem, fun ending he => ?_⟩
  have hkeep : stem ++ ending ≠ [] ∧ stem ++ ending ≠ ['.'] := by
    have hlong := he.length_append stem
    generalize stem ++ ending = name at hlong
    constructor
    · rintro rfl
      exact absurd hlong (by decide)
    · rintro rfl
      exact absurd hlong (by decide)
  unfold ofText namesOf
  rw [hanchor ending he, hsplit ending he.2, List.filter_append,
    List.filter_cons_of_pos (by exact decide_eq_true hkeep), List.filter_nil]

/-- The same holds if they are begun at another path. -/
theorem exists_append_ofText (p : Path) (t : Text) :
    ∃ anchor names stem, ∀ ending, IsEnding ending →
      p ++ ofText (t ++ ending) = ⟨anchor, names ++ [stem ++ ending]⟩ := by
  obtain ⟨anchor, names, stem, htext⟩ := exists_ofText_append t
  have happend : ∀ q : Path, p ++ q
      = if q.anchor = .here then ⟨p.anchor, p.names ++ q.names⟩ else q := fun _ => rfl
  by_cases hhere : anchor = .here
  · refine ⟨p.anchor, p.names ++ names, stem, fun ending he => ?_⟩
    rw [htext ending he, happend, if_pos hhere, List.append_assoc]
  · refine ⟨anchor, names, stem, fun ending he => ?_⟩
    rw [htext ending he, happend, if_neg hhere]

end Path

namespace Disk

/-- A short path leads to the same place by its names and in writing. -/
theorem locationOf_text (d : Disk) {p : Path} (h : p.IsShort) :
    d.locationOf p.text = p.names.foldl follow (d.start p.anchor) := by
  rw [locationOf_eq, Path.ofText_text h]

/-- Paths that differ in the end of their last name lead to different places. -/
theorem locationOf_ne (d : Disk) {p q : Path} {anchor : Anchor} {names : List Text}
    {stem ending ending' : Text} (hp : p.IsShort) (hq : q.IsShort)
    (hpath : p = ⟨anchor, names ++ [stem ++ ending]⟩)
    (hpath' : q = ⟨anchor, names ++ [stem ++ ending']⟩) (he : Path.IsEnding ending)
    (he' : Path.IsEnding ending') (hne : ending ≠ ending') :
    d.locationOf p.text ≠ d.locationOf q.text := by
  have hlast : ∀ {e : Text}, Path.IsEnding e →
      (names ++ [stem ++ e]).foldl follow (d.start anchor)
        = names.foldl follow (d.start anchor) ++ [stem ++ e] := by
    intro e h
    have hup : stem ++ e ≠ ['.', '.'] := by
      intro hup
      have hlong := h.length_append stem
      rw [hup] at hlong
      exact absurd hlong (by decide)
    rw [List.foldl_append, List.foldl_cons, List.foldl_nil]
    exact if_neg hup
  rw [d.locationOf_text hp, d.locationOf_text hq, hpath, hpath']
  dsimp only
  rw [hlast he, hlast he']
  intro heq
  have hname := List.singleton_inj.mp (List.append_cancel_left heq)
  exact hne (List.append_cancel_left hname)

end Disk
end Pyramid
