import Pyramid.Text.Basic

/-!
# Blank characters

The white space of the Unicode character database, together with the four information separators
U+001C to U+001F. Texts are stripped of blanks at both ends and cut into fields at them. A space
of no width (U+200B, U+FEFF) is not blank.
-/

namespace Pyramid.Text

/-- Code points that separate words. -/
def isBlank (c : Char) : Bool :=
  let n := c.toNat
  (0x09 ≤ n && n ≤ 0x0D) || (0x1C ≤ n && n ≤ 0x20) || n = 0x85 || n = 0xA0 || n = 0x1680
    || (0x2000 ≤ n && n ≤ 0x200A) || n = 0x2028 || n = 0x2029 || n = 0x202F || n = 0x205F
    || n = 0x3000

theorem isBlank_space : isBlank ' ' = true := by decide

theorem isBlank_of_isWhitespace {c : Char} (h : c.isWhitespace = true) : isBlank c = true := by
  simp only [Char.isWhitespace, Bool.or_eq_true, decide_eq_true_eq] at h
  rcases h with ((h | h) | h) | h <;> subst h <;> decide

/-! ## Stripping -/

/-- The text without its leading blanks. -/
def stripStart (t : Text) : Text := t.dropWhile isBlank

/-- The text without its trailing blanks. -/
def stripEnd (t : Text) : Text := (t.reverse.dropWhile isBlank).reverse

/-- The text without blanks at either end. -/
def strip (t : Text) : Text := stripEnd (stripStart t)

theorem mem_of_mem_stripStart {c : Char} {t : Text} (h : c ∈ stripStart t) : c ∈ t :=
  (List.dropWhile_sublist isBlank).subset h

theorem mem_of_mem_stripEnd {c : Char} {t : Text} (h : c ∈ stripEnd t) : c ∈ t := by
  have h' : c ∈ t.reverse.dropWhile isBlank := by simpa [stripEnd] using h
  simpa using (List.dropWhile_sublist isBlank).subset h'

/-- Stripping only removes characters. -/
theorem mem_of_mem_strip {c : Char} {t : Text} (h : c ∈ strip t) : c ∈ t :=
  mem_of_mem_stripStart (mem_of_mem_stripEnd h)

/-! ## Trimmed texts -/

/-- No blank stands at the start or at the end. -/
def IsTrimmed (t : Text) : Prop :=
  (∀ c, t.head? = some c → isBlank c = false) ∧ ∀ c, t.getLast? = some c → isBlank c = false

instance (t : Text) : Decidable (IsTrimmed t) :=
  decidable_of_iff
    ((t.head?.all fun c => !isBlank c) = true ∧ (t.getLast?.all fun c => !isBlank c) = true) <| by
      simp [IsTrimmed, Option.all_eq_true]

theorem isBlank_head?_dropWhile (t : Text) :
    ∀ c, (t.dropWhile isBlank).head? = some c → isBlank c = false := by
  intro c h
  have := List.head?_dropWhile_not isBlank t
  simp_all

/-- A stripped text is trimmed. -/
theorem isTrimmed_strip (t : Text) : IsTrimmed (strip t) := by
  constructor
  · intro c h
    have hlast : stripEnd (stripStart t) <+: stripStart t := by
      have := List.dropWhile_suffix isBlank (l := (stripStart t).reverse)
      simpa [stripEnd] using List.reverse_prefix.mpr this
    obtain ⟨rest, hrest⟩ := hlast
    have hhead : (stripStart t).head? = some c := by
      rw [← hrest, List.head?_append]
      simp only [strip] at h
      simp [h]
    exact isBlank_head?_dropWhile t c hhead
  · intro c h
    simp only [strip, stripEnd, List.getLast?_reverse] at h
    exact isBlank_head?_dropWhile _ c h

theorem dropWhile_eq_self_of_head? {t : Text}
    (h : ∀ c, t.head? = some c → isBlank c = false) : t.dropWhile isBlank = t := by
  cases t with
  | nil => rfl
  | cons c cs => simp [h c rfl]

/-- A trimmed text has nothing to strip. -/
theorem strip_eq_self {t : Text} (h : IsTrimmed t) : strip t = t := by
  have h1 : stripStart t = t := dropWhile_eq_self_of_head? h.1
  have h2 : t.reverse.dropWhile isBlank = t.reverse :=
    dropWhile_eq_self_of_head? (by simpa using h.2)
  simp [strip, h1, stripEnd, h2]

/-! ## Fields -/

/-- The non-empty pieces between blanks. -/
def fields (t : Text) : List Text := (t.splitOnP isBlank).filter (· ≠ [])

end Pyramid.Text
