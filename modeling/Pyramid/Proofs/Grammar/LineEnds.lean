import Mathlib
import Pyramid.Proofs.Grammar.Format
import Pyramid.Proofs.Text.Encoding

/-!
# Line ends

How the lines of a grammar text end makes no difference to what is read.

* Carriage returns may stand at the end of any line (`AddsReturns`). A line is then passed over
  exactly when it was before (`isIgnorable_append_returns`), and it gives the same production or the
  same defect, in the same words (`readLine_append_returns`). So the text is read as if they were
  not there (`readText_of_addsReturns`).
* A file may store the end of a line as a line feed, or as a carriage return and a line feed, one
  line like this and the next like that (`IsStored`). What is read from it is the text with line
  feeds alone (`readFile_of_isStored`).
-/

namespace Pyramid.Grammar

open Text

variable {t s : Text}

/-! ## Carriage returns at the end of a line -/

/-- The second line is the first with carriage returns at its end, or without any. -/
def EndsInReturns (line line' : Text) : Prop := ∃ count, line' = line ++ List.replicate count '\r'

/-- The second text is the first with any number of carriage returns at the end of any line. -/
def AddsReturns (t t' : Text) : Prop :=
  List.Forall₂ EndsInReturns (t.splitOn '\n') (t'.splitOn '\n')

theorem allBlank_returns (count : Nat) : AllBlank (List.replicate count '\r') := by
  intro c hc
  rw [List.eq_of_mem_replicate hc]
  decide

theorem dropReturns_append_returns (line : Text) (count : Nat) :
    dropReturns (line ++ List.replicate count '\r') = dropReturns line := by
  unfold dropReturns
  rw [List.reverse_append, List.reverse_replicate, List.dropWhile_append_of_pos]
  intro c hc
  exact decide_eq_true (List.eq_of_mem_replicate hc)

/-- Carriage returns at its end do not decide whether a line is passed over. -/
theorem isIgnorable_append_returns (line : Text) (count : Nat) :
    isIgnorable (line ++ List.replicate count '\r') = isIgnorable line := by
  have hreturns : (List.replicate count '\r').all isBlank = true :=
    List.all_eq_true.mpr (allBlank_returns count)
  unfold isIgnorable
  rw [List.all_append, hreturns, Bool.and_true, List.dropWhile_append]
  by_cases hindent : line.dropWhile (fun c => c = ' ' || c = '\t') = []
  · -- Spaces and tabs alone are blank already.
    have hblank : line.all isBlank = true := by
      refine List.all_eq_true.mpr fun c hc => ?_
      have hc' := List.dropWhile_eq_nil_iff.mp hindent c hc
      rw [Bool.or_eq_true, decide_eq_true_eq, decide_eq_true_eq] at hc'
      rcases hc' with rfl | rfl
      · decide
      · decide
    rw [hblank, Bool.true_or, Bool.true_or]
  · rw [if_neg (by simpa using hindent), List.head?_append_of_ne_nil _ hindent]

/-- **A line gives the same production, or the same defect, with carriage returns at its end.** -/
theorem readLine_append_returns (line : Text) (count : Nat) :
    readLine (line ++ List.replicate count '\r') = readLine line := by
  unfold readLine
  rw [dropReturns_append_returns, strip_append _ (allBlank_returns count)]

theorem readLines_of_endsInReturns {lines lines' : List Text}
    (h : List.Forall₂ EndsInReturns lines lines') (n : Nat) :
    readLines n lines' = readLines n lines := by
  induction h generalizing n with
  | nil => rfl
  | cons hline _ ih =>
    obtain ⟨count, rfl⟩ := hline
    rw [readLines, readLines, isIgnorable_append_returns, readLine_append_returns, ih (n + 1)]

/-- Carriage returns at the ends of lines change nothing. -/
theorem readText_of_addsReturns {t' : Text} (h : AddsReturns t t') : readText t' = readText t := by
  unfold readText read
  rw [readLines_of_endsInReturns h]

/-! ## Line ends in a file -/

/-- The text as it may be stored: the end of each line as a line feed, or as a carriage return and a
line feed. -/
inductive IsStored : (text stored : Text) → Prop where
  | nil : IsStored [] []
  | same (c : Char) {t s : Text} : IsStored t s → IsStored (c :: t) (c :: s)
  | returnFeed {t s : Text} : IsStored t s → IsStored ('\n' :: t) ('\r' :: '\n' :: s)

theorem uniformNewlines_cons {c : Char} (hc : c ≠ '\r') (t : Text) :
    uniformNewlines (c :: t) = c :: uniformNewlines t := by
  rw [uniformNewlines, if_neg hc]
  rintro rest rfl
  exact absurd rfl hc

/-- **Line ends are made uniform.** -/
theorem IsStored.uniformNewlines_eq (h : IsStored t s) (ht : '\r' ∉ t) : uniformNewlines s = t := by
  induction h with
  | nil => rfl
  | same c _ ih =>
    have hc : c ≠ '\r' := (List.ne_of_not_mem_cons ht).symm
    rw [uniformNewlines_cons hc, ih (List.not_mem_of_not_mem_cons ht)]
  | returnFeed _ ih => rw [uniformNewlines, ih (List.not_mem_of_not_mem_cons ht)]

theorem readFile_of_isStored {d : Disk} {name : Text} (hs : IsStored t s) (ht : '\r' ∉ t)
    (hd : d.read name = .ok (Utf8.encode s)) : readFile d name = .ok t := by
  unfold readFile
  rw [hd]
  simp only [Utf8.decode_encode, hs.uniformNewlines_eq ht]

theorem read_text_source (t name : Text) (d : Disk) :
    (Source.text t name).read d = (·, some name) <$> readText t := rfl

/-- A file is read like the text that it stores. -/
theorem read_file_of_isStored {d : Disk} {name : Text} (hs : IsStored t s) (ht : '\r' ∉ t)
    (hd : d.read name = .ok (Utf8.encode s)) :
    (Source.file name).read d = (Source.text t name).read d := by
  rw [read_text_source]
  unfold Source.read
  dsimp only
  rw [readFile_of_isStored hs ht hd]
  show (do let g ← readText t; return (g, some name)) = _
  cases readText t <;> rfl

/-- What is read decides what is entered in the journal. -/
theorem load_congr {a b : Source} {d : Disk} (h : a.read d = b.read d) (journal : Option Journal)
    (now : Moment) : a.load journal now d = b.load journal now d := by
  unfold Source.load
  rw [h]

theorem load_text_none (t name : Text) (now : Moment) (d : Disk) :
    (Source.text t name).load none now d = (readText t, d) := by
  unfold Source.load
  rw [read_text_source]
  cases readText t <;> rfl

/-- **Line ends do not matter.**

A text with carriage returns at the ends of its lines, as many as one likes and where one likes, is
read as the text without them: as the same grammar, or with the same fault on the same line. A file
that stores a text without carriage returns, with either kind of line end at each line, is read as
that text, and the journal says the same of it. -/
theorem load_lineEnds (t name : Text) (journal : Option Journal) (now : Moment) (d : Disk) :
    (∀ t', AddsReturns t t' →
      readText t' = readText t ∧
      (Source.text t' name).load journal now d = (Source.text t name).load journal now d) ∧
    ∀ s, '\r' ∉ t → IsStored t s → d.read name = .ok (Utf8.encode s) →
      (Source.file name).load none now d = (readText t, d) ∧
      (Source.file name).load journal now d = (Source.text t name).load journal now d := by
  constructor
  · intro t' h
    have hread := readText_of_addsReturns h
    exact ⟨hread, load_congr (by rw [read_text_source, read_text_source, hread]) journal now⟩
  · intro s ht hs hd
    have hfile := read_file_of_isStored hs ht hd
    exact ⟨(load_congr hfile none now).trans (load_text_none t name now d),
      load_congr hfile journal now⟩

/-- A production, an empty line, and a line whose body is missing. The text with carriage returns,
and the file in which both kinds of line end stand, fail on the third line with the same words. -/
theorem load_lineEnds_mixed :
    let t : Text := "S->A B\n\nS-> \n"
    let t' : Text := "S->A B\r\r\n\r\nS-> \r\n"
    let s : Text := "S->A B\r\n\nS-> \r\n"
    let d : Disk := (Disk.empty []).place "g.txt" (.file (Utf8.encode s))
    let now : Moment := ⟨1, 2, 3, 4, 5⟩
    AddsReturns t t' ∧ IsStored t s ∧
      readText t' = .error (.fault ⟨.malformedGrammar,
        "body ' ' of 'S' has 0 symbols, expected 1 or 2", some 3⟩) ∧
      (Source.file "g.txt").load none now d = (readText t', d) := by
  intro t t' s d now
  have hadds : AddsReturns t t' :=
    .cons ⟨2, rfl⟩ (.cons ⟨1, rfl⟩ (.cons ⟨1, rfl⟩ (.cons ⟨0, rfl⟩ .nil)))
  have hstored : IsStored t s :=
    .same _ <| .same _ <| .same _ <| .same _ <| .same _ <| .same _ <| .returnFeed <| .same _ <|
      .same _ <| .same _ <| .same _ <| .same _ <| .returnFeed .nil
  have hread : d.read "g.txt" = .ok (Utf8.encode s) := by decide +kernel
  obtain ⟨hreturns, hfile⟩ := load_lineEnds t "g.txt" none now d
  obtain ⟨hsame, -⟩ := hreturns t' hadds
  obtain ⟨hload, -⟩ := hfile s (by decide) hstored hread
  have hlines : readLines 1 (t.splitOn '\n')
      = .error ⟨3, .production (.bodySize " " "S" 0)⟩ := by decide +kernel
  refine ⟨hadds, hstored, ?_, ?_⟩
  · rw [hsame]
    exact readText_eq_error_iff.mpr ⟨_, hlines, by decide +kernel⟩
  · rw [hsame]
    exact hload

end Pyramid.Grammar
