import Mathlib
import Pyramid.Production

/-!
# Blanks around a text and inside it

Stripping takes the blanks around a text and nothing else: a text without blanks at its ends is what
is left of another exactly when the other is that text with blanks around it (`strip_eq_iff`).

Cutting at blanks of any kind undoes what stands between the fields: the fields of two texts with a
blank between them are the fields of the one and then those of the other (`fields_append_cons`). So
a trimmed text is one field exactly when it holds no blank (`fields_eq_singleton`,
`two_le_length_fields`).

The symbols of a body are found by cutting at spaces only. They, too, do not change when blanks are
added behind it (`Production.symbolsIn_append_blanks`).
-/

namespace Pyramid

open Text

namespace Text

variable {core t before after : Text} {c : Char}

/-! ## Blanks around a text -/

/-- There is nothing but blanks, if there is anything. -/
def AllBlank (t : Text) : Prop := ∀ c ∈ t, isBlank c = true

instance (t : Text) : Decidable (AllBlank t) :=
  decidable_of_iff (t.all isBlank = true) List.all_eq_true

/-- The text is `core` with blanks around it. -/
def IsPadded (core t : Text) : Prop :=
  ∃ before after, t = before ++ core ++ after ∧ AllBlank before ∧ AllBlank after

theorem stripStart_append (h : AllBlank before) (t : Text) :
    stripStart (before ++ t) = stripStart t := List.dropWhile_append_of_pos h

theorem stripEnd_append (t : Text) (h : AllBlank after) : stripEnd (t ++ after) = stripEnd t := by
  unfold stripEnd
  rw [List.reverse_append, List.dropWhile_append_of_pos fun c hc => h c (List.mem_reverse.mp hc)]

theorem stripStart_eq_nil (h : AllBlank t) : stripStart t = [] := List.dropWhile_eq_nil_iff.mpr h

/-- Blanks behind a text are stripped. -/
theorem strip_append (t : Text) (h : AllBlank after) : strip (t ++ after) = strip t := by
  have hstart : stripStart (t ++ after)
      = if (stripStart t).isEmpty then stripStart after else stripStart t ++ after :=
    List.dropWhile_append
  unfold strip
  rw [hstart]
  by_cases ht : stripStart t = []
  · rw [if_pos (by simp [ht]), ht, stripStart_eq_nil h]
  · rw [if_neg (by simpa using ht), stripEnd_append _ h]

theorem IsPadded.strip_eq (h : IsPadded core t) : strip t = strip core := by
  obtain ⟨before, after, rfl, hbefore, hafter⟩ := h
  rw [strip_append _ hafter]
  unfold strip
  rw [stripStart_append hbefore]

theorem isPadded_strip (t : Text) : IsPadded (strip t) t := by
  refine ⟨t.takeWhile isBlank, ((stripStart t).reverse.takeWhile isBlank).reverse, ?_, ?_, ?_⟩
  · have hend : strip t ++ ((stripStart t).reverse.takeWhile isBlank).reverse = stripStart t := by
      unfold strip stripEnd
      rw [← List.reverse_append, List.takeWhile_append_dropWhile, List.reverse_reverse]
    rw [List.append_assoc, hend]
    exact List.takeWhile_append_dropWhile.symm
  · exact fun c hc => List.mem_takeWhile_imp hc
  · exact fun c hc => List.mem_takeWhile_imp (List.mem_reverse.mp hc)

/-- **Stripping takes the blanks around a text and nothing else.** -/
theorem strip_eq_iff (h : IsTrimmed core) : strip t = core ↔ IsPadded core t := by
  constructor
  · rintro rfl
    exact isPadded_strip t
  · intro hp
    rw [hp.strip_eq, strip_eq_self h]

theorem strip_eq_nil_iff : strip t = [] ↔ AllBlank t := by
  rw [strip_eq_iff (by decide)]
  constructor
  · rintro ⟨before, after, rfl, hbefore, hafter⟩ c hc
    rw [List.append_nil] at hc
    exact (List.mem_append.mp hc).elim (hbefore c) (hafter c)
  · intro h
    exact ⟨t, [], by simp, h, List.forall_mem_nil _⟩

/-! ## Fields -/

/-- A blank parts the fields before it from those behind it. -/
theorem fields_append_cons (hc : isBlank c = true) (u v : Text) :
    fields (u ++ c :: v) = fields u ++ fields v := by
  unfold fields
  rw [List.splitOnP_append_cons u v hc, List.filter_append]

/-- A text without blanks is a single field. -/
theorem fields_eq_singleton (hne : t ≠ []) (h : ∀ c ∈ t, isBlank c = false) : fields t = [t] := by
  unfold fields
  rw [List.splitOnP_eq_singleton h]
  simp [hne]

theorem fields_ne_nil (hc : c ∈ t) (hblank : isBlank c = false) : fields t ≠ [] := by
  induction t with
  | nil => cases hc
  | cons d t ih =>
    by_cases hd : isBlank d = true
    · have hct : c ∈ t := by
        rcases List.mem_cons.mp hc with rfl | hct
        · rw [hblank] at hd
          cases hd
        · exact hct
      have hskip : fields (d :: t) = fields t := fields_append_cons hd [] t
      rw [hskip]
      exact ih hct
    · -- The first piece begins with a character that is no blank.
      unfold fields
      rw [List.splitOnP_cons_eq_if_modifyHead, if_neg hd]
      obtain ⟨p, ps, hps⟩ := List.exists_cons_of_ne_nil (List.splitOnP_ne_nil isBlank t)
      rw [hps, List.modifyHead_cons, List.filter_cons_of_pos (by simp)]
      exact List.cons_ne_nil _ _

/-- No field holds a blank. -/
theorem not_isBlank_of_mem_fields {f : Text} (hf : f ∈ fields t) (hc : c ∈ f) : isBlank c = false :=
  Production.not_mem_of_mem_splitOnP (List.mem_filter.mp hf).1 hc

/-- A blank inside a trimmed text parts it into two fields at least. -/
theorem two_le_length_fields (h : IsTrimmed t) (hc : c ∈ t) (hblank : isBlank c = true) :
    2 ≤ (fields t).length := by
  obtain ⟨u, v, rfl⟩ := List.append_of_mem hc
  have hu : fields u ≠ [] := by
    cases u with
    | nil =>
      have hfalse := h.1 c rfl
      rw [hblank] at hfalse
      cases hfalse
    | cons d u => exact fields_ne_nil List.mem_cons_self (h.1 d rfl)
  have hv : fields v ≠ [] := by
    cases hlast : v.getLast? with
    | none =>
      obtain rfl := List.getLast?_eq_none_iff.mp hlast
      have hfalse := h.2 c (by simp)
      rw [hblank] at hfalse
      cases hfalse
    | some d =>
      have hd : isBlank d = false := h.2 d (by simp [List.getLast?_cons, hlast])
      exact fields_ne_nil (List.mem_of_getLast? hlast) hd
  have hu' := List.length_pos_iff.mpr hu
  have hv' := List.length_pos_iff.mpr hv
  rw [fields_append_cons hblank, List.length_append]
  omega

/-- Between the parts of a joined text, and nowhere else, stands the mark that no part holds. -/
theorem count_join {parts : List Text} (h : ∀ p ∈ parts, c ∉ p) :
    (join [c] parts).count c = parts.length - 1 := by
  induction parts with
  | nil => rfl
  | cons p parts ih =>
    have hp : p.count c = 0 := List.count_eq_zero.mpr (h p List.mem_cons_self)
    cases parts with
    | nil => rw [join_singleton, hp]; rfl
    | cons q qs =>
      have hjoin : join [c] (p :: q :: qs) = p ++ [c] ++ join [c] (q :: qs) :=
        List.intercalate_cons_cons
      rw [hjoin, List.count_append, List.count_append, hp,
        ih fun r hr => h r (List.mem_cons_of_mem _ hr)]
      simp
      omega

end Text

/-! ## Blanks behind a body -/

namespace Production

variable {blanks : Text} {c : Char}

/-- A space parts the symbols before it from those behind it. -/
theorem symbolsIn_append_space (u v : Text) :
    symbolsIn (u ++ ' ' :: v) = symbolsIn u ++ symbolsIn v := by
  unfold symbolsIn
  rw [List.splitOn_append_cons_self, List.map_append, List.filter_append]

theorem symbolsIn_of_not_mem {t : Text} (h : ' ' ∉ t) :
    symbolsIn t = [strip t].filter (· ≠ []) := by
  unfold symbolsIn
  rw [List.splitOn_eq_singleton h]
  rfl

theorem symbolsIn_concat_blank (t : Text) (hc : isBlank c = true) :
    symbolsIn (t ++ [c]) = symbolsIn t := by
  by_cases hspace : c = ' '
  · subst hspace
    rw [symbolsIn_append_space]
    exact List.append_nil _
  · -- Only what stands behind the last space has to be looked at.
    by_cases ht : ' ' ∈ t
    · obtain ⟨u, v, rfl⟩ := List.append_of_mem ht
      rw [List.append_assoc, List.cons_append, symbolsIn_append_space, symbolsIn_append_space,
        symbolsIn_concat_blank v hc]
    · have ht' : ' ' ∉ t ++ [c] := by
        rw [List.mem_append, List.mem_singleton]
        rintro (hmem | rfl)
        · exact ht hmem
        · exact hspace rfl
      have hstrip : strip (t ++ [c]) = strip t :=
        strip_append t fun d hd => List.mem_singleton.mp hd ▸ hc
      rw [symbolsIn_of_not_mem ht', symbolsIn_of_not_mem ht, hstrip]
termination_by t.length
decreasing_by
  subst_vars
  simp
  omega

/-- **Blanks behind a body do not change its symbols.** -/
theorem symbolsIn_append_blanks (t : Text) (h : AllBlank blanks) :
    symbolsIn (t ++ blanks) = symbolsIn t := by
  induction blanks using List.reverseRecOn with
  | nil => rw [List.append_nil]
  | append_singleton blanks c ih =>
    rw [← List.append_assoc, symbolsIn_concat_blank _ (h c (by simp))]
    exact ih fun d hd => h d (by simp [hd])

end Production
end Pyramid
