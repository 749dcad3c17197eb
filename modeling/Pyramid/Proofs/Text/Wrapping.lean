import Mathlib
import Pyramid.Fault
import Pyramid.Proofs.Grammar.RoundTrip

/-!
# Wrapped messages

A message is cut at its spaces into words, and the words are laid out on lines, each with a space
behind it. `groupWords` says which words stand on which line; the wrapped message is what these
lines spell (`wrapWords_spell`), and all that is known of it is read off the groups:

* together they are the words, in order (`flatten_groupWords`), so nothing is lost or added;
* a line is only left if the next word does not fit behind it (`isChain_groupWords`);
* a line keeps to the bound, unless it is a single word that is too long by itself
  (`fits_groupWords`).

`wrap_layout` says this of the text of the lines.
-/

namespace Pyramid.Fault

open Text

variable {t : Text} {group : List Text}

/-! ## Words on lines -/

/-- A line of words: each has a space behind it. -/
def spell (group : List Text) : Text := group.flatMap (· ++ [' '])

theorem spell_append (as bs : List Text) : spell (as ++ bs) = spell as ++ spell bs :=
  List.flatMap_append

theorem spell_singleton (word : Text) : spell [word] = word ++ [' '] := List.append_nil _

theorem spell_cons (word : Text) (group : List Text) :
    spell (word :: group) = word ++ ' ' :: spell group := by
  show word ++ [' '] ++ spell group = _
  rw [List.append_assoc]
  rfl

theorem spell_eq_nil_iff : spell group = [] ↔ group = [] := by
  cases group with
  | nil => exact iff_of_true rfl rfl
  | cons word group => simp [spell_cons]

/-- The words of a line, joined, and the space at its end. -/
theorem spell_eq_join (h : group ≠ []) : spell group = join [' '] group ++ [' '] := by
  induction group with
  | nil => exact absurd rfl h
  | cons word group ih =>
    cases group with
    | nil => rw [spell_singleton, join_singleton]
    | cons next group =>
      have hjoin : join [' '] (word :: next :: group)
          = word ++ [' '] ++ join [' '] (next :: group) := List.intercalate_cons_cons
      rw [spell_cons, ih (List.cons_ne_nil _ _), hjoin]
      simp

/-- The words that come to stand on each line, if `group` stands on the first one already. -/
def groupWords (group : List Text) : (words : List Text) → List (List Text)
  | [] => [group]
  | word :: words =>
    if lineBound < (spell group).length + word.length then group :: groupWords [word] words
    else groupWords (group ++ [word]) words

/-- **Wrapping lays the words out in groups.** -/
theorem wrapWords_spell (group words : List Text) :
    wrapWords (spell group) words = (groupWords group words).map fun g => spell g ++ ['\n'] := by
  induction words generalizing group with
  | nil => rfl
  | cons word words ih =>
    rw [wrapWords, groupWords]
    by_cases hlong : lineBound < (spell group).length + word.length
    · rw [if_pos hlong, if_pos hlong, List.map_cons, ← ih, spell_singleton]
      rfl
    · rw [if_neg hlong, if_neg hlong, ← ih, spell_append, spell_singleton, List.append_assoc]
      rfl

/-! ## The groups -/

theorem flatten_groupWords (group words : List Text) :
    (groupWords group words).flatten = group ++ words := by
  fun_induction groupWords group words with
  | case1 group => simp
  | case2 group word words _ ih => rw [List.flatten_cons, ih, List.singleton_append]
  | case3 group word words _ ih => rw [ih, List.append_assoc, List.singleton_append]

/-- The first group is the given one with more words. -/
theorem exists_groupWords_eq_cons (group words : List Text) :
    ∃ more rest, groupWords group words = (group ++ more) :: rest := by
  fun_induction groupWords group words with
  | case1 group => exact ⟨[], [], by rw [List.append_nil]⟩
  | case2 group word words _ ih => exact ⟨[], _, by rw [List.append_nil]⟩
  | case3 group word words _ ih =>
    obtain ⟨more, rest, heq⟩ := ih
    exact ⟨word :: more, rest, by rw [heq, List.append_assoc, List.singleton_append]⟩

/-- The second line begins with a word for which there was no place on the first. -/
def Breaks (group next : List Text) : Prop :=
  ∃ word more, next = word :: more ∧ lineBound < (spell group).length + word.length

/-- **A line is only left for a word that does not fit.** -/
theorem isChain_groupWords (group words : List Text) :
    (groupWords group words).IsChain Breaks := by
  fun_induction groupWords group words with
  | case1 group => exact .singleton group
  | case2 group word words hlong ih =>
    obtain ⟨more, rest, heq⟩ := exists_groupWords_eq_cons [word] words
    rw [heq] at ih ⊢
    exact .cons_cons ⟨word, more, rfl, hlong⟩ ih
  | case3 group word words _ ih => exact ih

/-- The line keeps to the bound, the space at its end not counted, or it is a single word that does
not. -/
def Fits (group : List Text) : Prop :=
  (spell group).length ≤ lineBound + 1 ∨ ∃ word, group = [word] ∧ lineBound < word.length

theorem fits_singleton (word : Text) : Fits [word] := by
  by_cases hlong : lineBound < word.length
  · exact .inr ⟨word, rfl, hlong⟩
  · left
    rw [spell_singleton, List.length_append, List.length_singleton]
    omega

/-- **Lines keep to the bound**, if the first one does from the start. -/
theorem fits_groupWords (h : Fits group) (words : List Text) :
    ∀ g ∈ groupWords group words, Fits g := by
  fun_induction groupWords group words with
  | case1 group => simpa using h
  | case2 group word words _ ih =>
    intro g hg
    rcases List.mem_cons.mp hg with rfl | hg
    · exact h
    · exact ih (fits_singleton word) g hg
  | case3 group word words hshort ih =>
    refine ih (.inl ?_)
    rw [spell_append, spell_singleton, List.length_append, List.length_append,
      List.length_singleton]
    omega

/-! ## The lines of a text -/

/-- The words on each line of a text. -/
def groups (t : Text) : List (List Text) := groupWords [] (t.splitOn ' ')

theorem wrap_eq (t : Text) : wrap t = (groups t).map fun g => spell g ++ ['\n'] :=
  wrapWords_spell [] (t.splitOn ' ')

theorem dropLast_wrap (t : Text) : (wrap t).map List.dropLast = (groups t).map spell := by
  rw [wrap_eq, List.map_map]
  refine List.map_congr_left fun g _ => ?_
  exact List.dropLast_concat

theorem flatten_spell (gs : List (List Text)) : (gs.map spell).flatten = spell gs.flatten := by
  induction gs with
  | nil => rfl
  | cons g gs ih => rw [List.map_cons, List.flatten_cons, List.flatten_cons, spell_append, ih]

/-- Nothing is lost and nothing is added but a space at the end. -/
theorem flatten_lines (t : Text) : ((groups t).map spell).flatten = t ++ [' '] := by
  have hjoin : join [' '] (t.splitOn ' ') = t := List.intercalate_splitOn ' '
  rw [flatten_spell, groups, flatten_groupWords, List.nil_append,
    spell_eq_join (List.splitOn_ne_nil ' ' t), hjoin]

theorem mem_splitOn_of_mem_group {word : Text} (hg : group ∈ groups t) (hw : word ∈ group) :
    word ∈ t.splitOn ' ' := by
  have hflat : (groups t).flatten = t.splitOn ' ' := flatten_groupWords [] _
  rw [← hflat]
  exact List.mem_flatten.mpr ⟨group, hg, hw⟩

/-- The first line is empty exactly when the first word is too long for any line. -/
theorem head?_groups (t : Text) :
    (groups t).head? = some [] ↔
      ∃ word words, t.splitOn ' ' = word :: words ∧ lineBound < word.length := by
  obtain ⟨word, words, hsplit⟩ := List.exists_cons_of_ne_nil (List.splitOn_ne_nil ' ' t)
  have hempty : (spell ([] : List Text)).length + word.length = word.length := Nat.zero_add _
  have hword :
      (∃ w ws, word :: words = w :: ws ∧ lineBound < w.length) ↔ lineBound < word.length := by
    simp
  unfold groups
  rw [hsplit, hword, groupWords, hempty]
  by_cases hlong : lineBound < word.length
  · rw [if_pos hlong]
    exact iff_of_true rfl hlong
  · rw [if_neg hlong]
    obtain ⟨more, rest, heq⟩ := exists_groupWords_eq_cons ([] ++ [word]) words
    rw [heq]
    refine iff_of_false ?_ hlong
    simp

/-- Every line but the first begins with the word for which the line before it was left. -/
theorem breaks_groups {i : Nat} {next : List Text} (hgroup : (groups t)[i]? = some group)
    (hnext : (groups t)[i + 1]? = some next) : Breaks group next := by
  have hchain : (groups t).IsChain Breaks := isChain_groupWords [] _
  obtain ⟨hi, rfl⟩ := List.getElem?_eq_some_iff.mp hnext
  obtain ⟨-, rfl⟩ := List.getElem?_eq_some_iff.mp hgroup
  exact hchain.getElem i hi

/-- What stands on a line: nothing, which only the first line can hold, or a text that keeps to the
bound, or a single word that cannot. -/
theorem line_cases {i : Nat} {line : Text} (h : ((groups t).map spell)[i]? = some line) :
    (i = 0 ∧ line = []) ∨
      ∃ text, line = text ++ [' '] ∧
        (text.length ≤ lineBound ∨
          text ∈ t.splitOn ' ' ∧ ' ' ∉ text ∧ lineBound < text.length) := by
  rw [List.getElem?_map, Option.map_eq_some_iff] at h
  obtain ⟨group, hgroup, rfl⟩ := h
  by_cases hnil : group = []
  · subst hnil
    cases i with
    | zero => exact .inl ⟨rfl, rfl⟩
    | succ i =>
      have hi : i < (groups t).length :=
        Nat.lt_of_succ_lt (List.getElem?_eq_some_iff.mp hgroup).choose
      obtain ⟨word, more, hnext, -⟩ := breaks_groups (List.getElem?_eq_getElem hi) hgroup
      cases hnext
  · have hmem : group ∈ groups t := List.mem_of_getElem? hgroup
    have hfits : Fits group := fits_groupWords (.inl (Nat.zero_le _)) _ group hmem
    refine .inr ⟨join [' '] group, spell_eq_join hnil, ?_⟩
    rcases hfits with hshort | ⟨word, rfl, hlong⟩
    · left
      rw [spell_eq_join hnil, List.length_append, List.length_singleton] at hshort
      exact Nat.le_of_succ_le_succ hshort
    · have hword := mem_splitOn_of_mem_group hmem List.mem_cons_self
      rw [join_singleton]
      exact .inr ⟨hword, not_mem_of_mem_splitOn hword, hlong⟩

/-- The word behind a break did not fit on the line before it. -/
theorem lineBound_lt_of_break {i : Nat} {line next : Text}
    (hline : ((groups t).map spell)[i]? = some line)
    (hnext : ((groups t).map spell)[i + 1]? = some next) :
    ∃ word rest, next = word ++ ' ' :: rest ∧ ' ' ∉ word ∧
      lineBound < line.length + word.length := by
  rw [List.getElem?_map, Option.map_eq_some_iff] at hline hnext
  obtain ⟨group, hgroup, rfl⟩ := hline
  obtain ⟨group', hgroup', rfl⟩ := hnext
  obtain ⟨word, more, rfl, hlong⟩ := breaks_groups hgroup hgroup'
  have hmem := mem_splitOn_of_mem_group (List.mem_of_getElem? hgroup') List.mem_cons_self
  exact ⟨word, spell more, spell_cons word more, not_mem_of_mem_splitOn hmem, hlong⟩

/-- **Wrapping loses nothing and keeps to the bound.**

Every line ends in a line feed. Without these line feeds the lines, one behind the other, are the
text with a space behind it. Each of them is empty, which only the first can be, and is exactly if
the first field of the text has more than 56 characters; or it is a text with a space behind it, and
that text has at most 56 characters or is a single field that has more. A line ends only where it
has to: together with the next field it would go beyond 56 characters. -/
theorem wrap_layout (t : Text) :
    let lines := (wrap t).map List.dropLast
    (∀ l ∈ wrap t, l.getLast? = some '\n') ∧
    lines.flatten = t ++ [' '] ∧
    (∀ i line, lines[i]? = some line →
      (i = 0 ∧ line = []) ∨
        ∃ text, line = text ++ [' '] ∧
          (text.length ≤ 56 ∨ text ∈ t.splitOn ' ' ∧ ' ' ∉ text ∧ 56 < text.length)) ∧
    (lines.head? = some [] ↔ ∃ field fields, t.splitOn ' ' = field :: fields ∧ 56 < field.length) ∧
    ∀ i line next, lines[i]? = some line → lines[i + 1]? = some next →
      ∃ field rest, next = field ++ ' ' :: rest ∧ ' ' ∉ field ∧
        56 < line.length + field.length := by
  intro lines
  have hlines : lines = (groups t).map spell := dropLast_wrap t
  refine ⟨fun l hl => ?_, ?_, fun i line h => ?_, ?_, fun i line next h h' => ?_⟩
  · rw [wrap_eq] at hl
    obtain ⟨group, -, rfl⟩ := List.mem_map.mp hl
    exact List.getLast?_concat
  · rw [hlines, flatten_lines]
  · rw [hlines] at h
    exact line_cases h
  · rw [hlines, List.head?_map, Option.map_eq_some_iff]
    refine Iff.trans ?_ (head?_groups t)
    constructor
    · rintro ⟨group, hgroup, hspell⟩
      rw [hgroup, spell_eq_nil_iff.mp hspell]
    · intro h
      exact ⟨[], h, rfl⟩
  · rw [hlines] at h h'
    exact lineBound_lt_of_break h h'

/-- A field of 57 characters, an empty one, one of 55 characters and an empty one. The first line is
empty, the second holds the field that is too long, and the third has 56 characters before the space
at its end, so that there is no place for the last field, though it is empty. -/
theorem wrap_layout_long :
    let long : Text := List.replicate 57 'a'
    let short : Text := List.replicate 55 'b'
    let t : Text := long ++ ' ' :: ' ' :: short ++ [' ']
    let lines := (wrap t).map List.dropLast
    lines = [[], long ++ [' '], ' ' :: short ++ [' '], [' ']] ∧
      lines.flatten = t ++ [' '] ∧
      (∃ field fields, t.splitOn ' ' = field :: fields ∧ 56 < field.length) ∧
      ∃ field rest, [' '] = field ++ ' ' :: rest ∧ ' ' ∉ field ∧
        56 < (' ' :: short ++ [' ']).length + field.length := by
  intro long short t lines
  have hlines : lines = [[], long ++ [' '], ' ' :: short ++ [' '], [' ']] := by decide +kernel
  obtain ⟨-, hflat, -, hfirst, hgreedy⟩ := wrap_layout t
  refine ⟨hlines, hflat, hfirst.mp ?_, hgreedy 2 _ _ ?_ ?_⟩
  · show lines.head? = some []
    rw [hlines]
    rfl
  · show lines[2]? = _
    rw [hlines]
    rfl
  · show lines[3]? = _
    rw [hlines]
    rfl

end Pyramid.Fault
