import Mathlib
import Pyramid.Text.Basic

/-!
# Pieces of a text

The pieces that the chart of a word is made of, each kind as a list in the order in which the chart
meets it:

* `windows size t`: the pieces of one size, from left to right. A row of the chart spells them.
* `prefixes t`, `suffixes t`: the non-empty beginnings and endings, the longest first. The chains of
  a node spell them.
* `splits t`: the two halves of every cut, the longest left half first.

The main statement is `zip_prefixes_suffixes`: the shorter prefixes beside the shorter suffixes,
these read backwards, are exactly the splits.
-/

namespace Pyramid.Text

/-! ## Windows -/

/-- The pieces of `size` characters, from left to right. -/
def windows (size : Nat) (t : Text) : List Text :=
  (List.range (t.length + 1 - size)).map fun i => (t.drop i).take size

@[simp] theorem length_windows (size : Nat) (t : Text) :
    (windows size t).length = t.length + 1 - size := by
  simp [windows]

theorem getElem?_windows {size i : Nat} {t : Text} (h : i + size ≤ t.length) :
    (windows size t)[i]? = some ((t.drop i).take size) := by
  have hi : i < t.length + 1 - size := by omega
  simp [windows, hi]

theorem windows_eq_nil {size : Nat} {t : Text} (h : t.length < size) : windows size t = [] := by
  have h0 : t.length + 1 - size = 0 := by omega
  simp [windows, h0]

theorem windows_cons {size : Nat} (c : Char) {t : Text} (h : size ≤ t.length + 1) :
    windows size (c :: t) = (c :: t).take size :: windows size t := by
  have hlen : (c :: t).length + 1 - size = (t.length + 1 - size) + 1 := by
    rw [List.length_cons]
    omega
  unfold windows
  rw [hlen, List.range_succ_eq_map]
  simp

/-- The first two windows of a size are the first window of the next size, once without its last and
once without its first character. -/
theorem windows_neighbours {k : Nat} (c : Char) {t : Text} (h : k < t.length) :
    windows (k + 1) (c :: t) = ((c :: t).take (k + 2)).dropLast :: windows (k + 1) t ∧
      ∃ us, windows (k + 1) t = ((c :: t).take (k + 2)).tail :: us := by
  constructor
  · have hlen : ((c :: t).take (k + 2)).length = k + 2 := by
      rw [List.length_take, List.length_cons]
      omega
    rw [windows_cons c (by omega), List.dropLast_eq_take, hlen, List.take_take,
      Nat.min_eq_left (by omega)]
    rfl
  · obtain ⟨d, u, rfl⟩ : ∃ d u, t = d :: u :=
      List.exists_cons_of_ne_nil (by rintro rfl; simp at h)
    rw [List.length_cons] at h
    exact ⟨_, windows_cons d (by omega)⟩

theorem length_window {size i : Nat} {t : Text} (h : i + size ≤ t.length) :
    ((t.drop i).take size).length = size := by
  rw [List.length_take, List.length_drop]
  omega

/-- The left half of a window is the window of that size at the same place. -/
theorem take_window {size i j : Nat} {t : Text} (h : j ≤ size) :
    ((t.drop i).take size).take j = (t.drop i).take j := by
  rw [List.take_take, Nat.min_eq_left h]

/-- The right half of a window is the window of the remaining size further to the right. -/
theorem drop_window {size i j : Nat} {t : Text} :
    ((t.drop i).take size).drop j = (t.drop (i + j)).take (size - j) := by
  rw [List.drop_take, List.drop_drop]

/-- All pieces of a text, row by row: those of one character first, the text itself last. -/
def pieces (t : Text) : List Text := (List.range t.length).flatMap fun k => windows (k + 1) t

theorem windows_length {t : Text} : windows t.length t = [t] := by
  simp [windows]

/-- The windows of a size are the pieces of that length, wherever they stand. -/
theorem mem_windows {size : Nat} {t u : Text} :
    u ∈ windows size t ↔ u.length = size ∧ u <:+: t := by
  simp only [windows, List.mem_map, List.mem_range]
  constructor
  · rintro ⟨i, hi, rfl⟩
    have hinfix : (t.drop i).take size <:+: t :=
      (List.take_prefix _ _).isInfix.trans (List.drop_suffix _ _).isInfix
    exact ⟨length_window (by omega), hinfix⟩
  · rintro ⟨rfl, p, s, rfl⟩
    refine ⟨p.length, ?_, ?_⟩
    · rw [List.length_append, List.length_append]
      omega
    · rw [List.append_assoc, List.drop_left, List.take_left]

theorem mem_pieces {t u : Text} : u ∈ pieces t ↔ u ≠ [] ∧ u <:+: t := by
  simp only [pieces, List.mem_flatMap, List.mem_range, mem_windows]
  constructor
  · rintro ⟨k, -, hlen, hu⟩
    exact ⟨List.ne_nil_of_length_eq_add_one hlen, hu⟩
  · rintro ⟨hne, hu⟩
    have hpos : 0 < u.length := List.length_pos_iff.mpr hne
    have hle : u.length ≤ t.length := hu.length_le
    exact ⟨u.length - 1, by omega, by omega, hu⟩

theorem sum_range_sub (n : Nat) : ((List.range n).map fun k => n - k).sum = n * (n + 1) / 2 := by
  have hreflect := Finset.sum_range_reflect (fun k => k) (n + 1)
  rw [Finset.sum_range_id, Finset.sum_range_succ] at hreflect
  simp only [Nat.add_sub_cancel, Nat.sub_self, Nat.add_zero] at hreflect
  rw [Nat.mul_comm n]
  exact hreflect

/-- Each row of a chart is one node shorter than the row below it, so the pieces make a triangle. -/
theorem length_pieces (t : Text) : (pieces t).length = t.length * (t.length + 1) / 2 := by
  have hrows : ∀ k, (windows (k + 1) t).length = t.length - k := by
    intro k
    rw [length_windows]
    omega
  rw [pieces, List.length_flatMap]
  simp only [hrows]
  exact sum_range_sub t.length

/-! ## Beginnings and endings -/

/-- The non-empty prefixes, the longest first. -/
def prefixes (t : Text) : List Text := (List.range t.length).map fun k => t.take (t.length - k)

/-- The non-empty suffixes, the longest first. -/
def suffixes (t : Text) : List Text := (List.range t.length).map fun k => t.drop k

@[simp] theorem length_prefixes (t : Text) : (prefixes t).length = t.length := by
  simp [prefixes]

@[simp] theorem length_suffixes (t : Text) : (suffixes t).length = t.length := by
  simp [suffixes]

theorem prefixes_eq_cons {t : Text} (h : t ≠ []) : prefixes t = t :: prefixes t.dropLast := by
  obtain ⟨n, hn⟩ : ∃ n, t.length = n + 1 := Nat.exists_eq_succ_of_ne_zero (by simpa using h)
  refine List.ext_getElem (by simp [hn]) ?_
  intro i h₁ h₂
  cases i with
  | zero => simp [prefixes]
  | succ i =>
    have hi : i + 1 < t.length := by simpa using h₁
    simp only [prefixes, List.getElem_map, List.getElem_range, List.getElem_cons_succ,
      List.dropLast_eq_take, List.length_take, List.take_take]
    congr 1
    omega

theorem suffixes_eq_cons {t : Text} (h : t ≠ []) : suffixes t = t :: suffixes t.tail := by
  obtain ⟨c, u, rfl⟩ := List.exists_cons_of_ne_nil h
  unfold suffixes
  rw [List.length_cons, List.range_succ_eq_map]
  simp

/-! ## Splits -/

/-- The halves of every cut into two non-empty texts, the longest left half first. -/
def splits (t : Text) : List (Text × Text) :=
  (List.range' 1 (t.length - 1)).reverse.map fun j => (t.take j, t.drop j)

theorem mem_splits {t : Text} {p : Text × Text} :
    p ∈ splits t ↔ ∃ j, 1 ≤ j ∧ j < t.length ∧ (t.take j, t.drop j) = p := by
  simp only [splits, List.mem_map, List.mem_reverse, List.mem_range'_1]
  refine exists_congr fun j => ?_
  rw [← and_assoc]
  refine and_congr_left fun _ => ?_
  omega

/-- **The prefixes of a text without its last character, beside the suffixes of the text without its
first one read backwards, are the splits of the text.** -/
theorem zip_prefixes_suffixes (t : Text) :
    (prefixes t.dropLast).zip (suffixes t.tail).reverse = splits t := by
  refine List.ext_getElem (by simp [splits]) ?_
  intro k h₁ h₂
  have hk : k < t.length - 1 := by simpa [splits] using h₂
  simp only [prefixes, suffixes, splits, List.getElem_zip, List.getElem_map, List.getElem_reverse,
    List.getElem_range, List.getElem_range', List.length_map, List.length_range, List.length_range',
    List.dropLast_eq_take, List.length_take, List.take_take, ← List.drop_one, List.length_drop,
    List.drop_drop]
  congr 2
  · omega
  · omega

end Pyramid.Text
