import Mathlib
import Pyramid.CommandLine.Program
import Pyramid.Proofs.Chart.Accounts
import Pyramid.Proofs.Chart.Table

/-!
# Transcripts

What the program ought to print, told without a store and without a machine. A transcript is a list
of paragraphs; which paragraphs a word gets depends on the word, the start variable and the set of
productions (`wordParagraphs_congr`), and measurements and listings are paragraphs of their own,
which can be left out (`filter_timing`, `filter_listing`).
-/

namespace Pyramid

open Text

/-! ## The entries of a text -/

namespace Grammar

variable {g h : Grammar} {t : Text}

theorem mem_top_cykTable {a : Text} :
    a ∈ (cellAt (g.cykTable t) (t.length - 1) 0).getD ∅ ↔ g.Yields a t := by
  by_cases ht : t = []
  · subst ht
    constructor
    · intro ha
      exact absurd ha (SortedSet.not_mem_empty a)
    · intro hy
      exact absurd rfl hy.ne_nil
  · have hpos : 0 < t.length := List.length_pos_iff.mpr ht
    have hcell : g.IsCell t (g.cykTable t) (t.length - 1) 0 := isCell_cykTable (by omega)
    obtain ⟨c, hc, hmem⟩ := hcell
    rw [hc, Option.getD_some, hmem, List.drop_zero, Nat.sub_add_cancel hpos, List.take_length]

instance (g : Grammar) (a t : Text) : Decidable (g.Yields a t) :=
  decidable_of_iff (a ∈ (cellAt (g.cykTable t) (t.length - 1) 0).getD ∅) mem_top_cykTable

/-- The first steps of all derivations of a text. -/
def entries (g : Grammar) (t : Text) : SortedSet Derivation :=
  .ofList <| g.productions.flatMap fun p =>
    match p.body with
    | .terminal a => if a = t ∧ t.length = 1 then [⟨p, 0⟩] else []
    | .pair b c =>
      ((splits t).filter fun (u, v) => g.Yields b u ∧ g.Yields c v).map fun (u, _) => ⟨p, u.length⟩

theorem mem_entries {d : Derivation} : d ∈ g.entries t ↔ g.Entry t d := by
  simp only [entries, SortedSet.mem_ofList, List.mem_flatMap]
  constructor
  · rintro ⟨p, hp, hd⟩
    cases hbody : p.body with
    | terminal a =>
      simp only [hbody] at hd
      split at hd
      · next hat =>
        obtain ⟨rfl, hlen⟩ := hat
        obtain ⟨c, rfl⟩ := List.length_eq_one_iff.mp hlen
        obtain rfl := List.mem_singleton.mp hd
        exact .terminal hp hbody
      · cases hd
    | pair b c =>
      simp only [hbody, List.mem_map, List.mem_filter, decide_eq_true_eq] at hd
      obtain ⟨⟨u, v⟩, ⟨hsplit, hu, hv⟩, rfl⟩ := hd
      obtain ⟨j, -, -, heq⟩ := mem_splits.mp hsplit
      obtain ⟨rfl, rfl⟩ := Prod.mk.inj heq
      have hd := Entry.pair hp hbody hu hv
      rwa [List.take_append_drop] at hd
  · intro hd
    cases hd with
    | @terminal p c mem body =>
      refine ⟨p, mem, ?_⟩
      simp [body]
    | @pair p b c u v mem body left right =>
      refine ⟨p, mem, ?_⟩
      have hu : 0 < u.length := List.length_pos_iff.mpr left.ne_nil
      have hv : 0 < v.length := List.length_pos_iff.mpr right.ne_nil
      have hsplit : (u, v) ∈ splits (u ++ v) := by
        refine mem_splits.mpr ⟨u.length, hu, ?_, ?_⟩
        · rw [List.length_append]
          omega
        · rw [List.take_left, List.drop_left]
      simp only [body, List.mem_map, List.mem_filter, decide_eq_true_eq]
      exact ⟨(u, v), ⟨hsplit, left, right⟩, rfl⟩

theorem entries_congr (e : g.SameProductions h) (t : Text) : g.entries t = h.entries t := by
  refine SortedSet.ext_mem ?_
  intro d
  rw [mem_entries, mem_entries]
  exact ⟨Entry.congr e, Entry.congr e.symm⟩

theorem Records.derivations_eq {n : Node} (hn : g.Records t n) : n.derivations = g.entries t := by
  refine SortedSet.ext_mem ?_
  intro d
  rw [hn.mem_iff, mem_entries]

end Grammar

namespace CommandLine

/-! ## Paragraphs -/

inductive Kind where
  | notice
  | timing
  | answer
  | listing
  | closing
deriving DecidableEq, Repr

/-- A part of the output, with its line feeds. -/
structure Paragraph where
  kind : Kind
  text : Text
deriving DecidableEq, Repr

/-- The paragraphs one after another. -/
def render (ps : List Paragraph) : Text := ps.flatMap (·.text)

@[simp] theorem render_nil : render [] = [] := rfl

@[simp] theorem render_cons (p : Paragraph) (ps : List Paragraph) :
    render (p :: ps) = p.text ++ render ps := List.flatMap_cons

@[simp] theorem render_append (ps qs : List Paragraph) :
    render (ps ++ qs) = render ps ++ render qs := List.flatMap_append

variable {g h : Grammar} {start word : Text} {derivations : Bool}

/-- What is printed about a word. -/
def wordParagraphs (g : Grammar) (start : Text) (derivations : Bool) (word : Text) :
    List Paragraph :=
  if word = [] then [⟨.notice, skipNotice ++ "\n"⟩]
  else
    ⟨.answer, word ++ ": " ++ Text.ofBool (g.Yields start word) ++ "\n"⟩ ::
      if derivations && !(g.entries word).isEmpty then
        [⟨.listing, join "\n" (sort ((g.entries word).toList.map (·.text))) ++ "\n"⟩]
      else []

/-- **What is printed about a word depends on the set of productions alone**, not on their order. -/
theorem wordParagraphs_congr (e : g.SameProductions h) :
    wordParagraphs g start derivations word = wordParagraphs h start derivations word := by
  have hanswer : decide (g.Yields start word) = decide (h.Yields start word) :=
    decide_eq_decide.mpr ⟨Grammar.Yields.congr e, Grammar.Yields.congr e.symm⟩
  unfold wordParagraphs
  rw [hanswer, Grammar.entries_congr e]

/-- The program prints what stands in a node that records the word. -/
theorem block_eq {n : Node} (hn : g.Records word n) (hw : word ≠ []) :
    block start word derivations n = render (wordParagraphs g start derivations word) := by
  have hanswer : n.derives start = decide (g.Yields start word) := by
    rw [Node.derives]
    exact decide_eq_decide.mpr hn.mem_heads
  unfold block wordParagraphs Node.isDerivable Node.listing
  rw [if_neg hw, hanswer, hn.derivations_eq]
  cases derivations && !(g.entries word).isEmpty <;> simp

/-! ## Transcripts -/

/-- All that a transcript depends on. -/
structure Inquiry where
  grammar : Grammar
  start : Text
  /-- The words that are asked for. -/
  asked : List Text
  derivations : Bool
  measure : Bool
  durations : Stopwatch.Durations

namespace Inquiry

/-- The words that are decided: the samples, if none are asked for. -/
def decided (q : Inquiry) : List Text := if q.asked = [] then sampleWords else q.asked

/-- The line of a measurement. -/
def timing (name : Text) (ns : Int) : Text :=
  match Stopwatch.line name ns with
  | .ok t => t
  | .error _ => []

/-- The paragraph of the next measurement, if anything is measured. -/
def measured (q : Inquiry) (name : Text) (d : Stopwatch.Durations) : List Paragraph :=
  if q.measure then [⟨.timing, timing name d.next.1⟩] else []

/-- The durations after it. -/
def elapsed (q : Inquiry) (d : Stopwatch.Durations) : Stopwatch.Durations :=
  if q.measure then d.next.2 else d

def paragraphs (q : Inquiry) (word : Text) : List Paragraph :=
  wordParagraphs q.grammar q.start q.derivations word

/-- The answers for words, and the measurements in between. -/
def answers (q : Inquiry) (d : Stopwatch.Durations) : List Text → List Paragraph
  | [] => []
  | word :: words =>
    if word = [] then q.paragraphs word ++ q.answers d words
    else q.measured (word.take Stopwatch.nameWidth) d ++ q.paragraphs word
      ++ q.answers (q.elapsed d) words

/-- What is said in the end. -/
def summary (q : Inquiry) : Text :=
  "Read " ++ Text.ofNat q.grammar.size ++ " rules. Current cache size: "
    ++ Text.ofNat (substrings q.decided).card ++ " entries."

def opening (q : Inquiry) : List Paragraph :=
  if q.asked = [] then [⟨.notice, samplesNotice ++ "\n"⟩] else []

def closing (q : Inquiry) : List Paragraph :=
  [⟨.closing, rule ++ "\n"⟩, ⟨.closing, q.summary ++ "\n"⟩]

def transcript (q : Inquiry) : List Paragraph :=
  q.measured loadingName q.durations ++ q.opening ++ q.answers (q.elapsed q.durations) q.decided
    ++ q.closing

variable {q : Inquiry}

theorem answers_of_not_measure (hm : q.measure = false) (d : Stopwatch.Durations)
    (words : List Text) : q.answers d words = words.flatMap q.paragraphs := by
  induction words with
  | nil => rfl
  | cons word words ih => simp [answers, measured, elapsed, hm, ih]

theorem transcript_of_not_measure (hm : q.measure = false) :
    q.transcript = q.opening ++ q.decided.flatMap q.paragraphs ++ q.closing := by
  unfold transcript measured
  rw [answers_of_not_measure hm, hm]
  rfl

/-- Without measurements there is one block for each word. -/
theorem render_transcript (hm : q.measure = false) :
    render q.transcript
      = (if q.asked = [] then samplesNotice ++ "\n" else [])
        ++ q.decided.flatMap (fun word => render (q.paragraphs word))
        ++ (rule ++ "\n" ++ q.summary ++ "\n") := by
  have hblocks : render (q.decided.flatMap q.paragraphs)
      = q.decided.flatMap fun word => render (q.paragraphs word) := List.flatMap_assoc
  rw [transcript_of_not_measure hm, opening, closing]
  by_cases hasked : q.asked = [] <;> simp [hasked, hblocks]

/-- The inquiries are the same, but for durations that nobody measures. -/
def Agrees (q q' : Inquiry) : Prop :=
  q' = { q with durations := q'.durations } ∧ (q.measure = true → q'.durations = q.durations)

theorem Agrees.transcript_eq {q' : Inquiry} (h : q.Agrees q') : q'.transcript = q.transcript := by
  obtain ⟨hq, hdurations⟩ := h
  by_cases hm : q.measure = true
  · rw [hdurations hm] at hq
    rw [hq]
  · have hplain : q.measure = false := Bool.eq_false_iff.mpr hm
    rw [hq, transcript_of_not_measure hplain]
    exact transcript_of_not_measure hplain

/-! ## Leaving out paragraphs -/

section Filter

variable (q) (d : Stopwatch.Durations)

theorem filter_opening {k : Kind} (hk : k ≠ .notice) :
    q.opening.filter (·.kind ≠ k) = q.opening := by
  unfold opening
  split <;> simp [hk.symm]

theorem filter_closing {k : Kind} (hk : k ≠ .closing) :
    q.closing.filter (·.kind ≠ k) = q.closing := by
  unfold closing
  simp [hk.symm]

theorem filter_timing_measured (name : Text) :
    (q.measured name d).filter (·.kind ≠ .timing) = [] := by
  unfold measured
  split <;> simp

theorem filter_timing_paragraphs (word : Text) :
    (q.paragraphs word).filter (·.kind ≠ .timing) = q.paragraphs word := by
  unfold paragraphs wordParagraphs
  split
  · simp
  · split <;> simp

theorem filter_timing_answers (words : List Text) :
    (q.answers d words).filter (·.kind ≠ .timing) = words.flatMap q.paragraphs := by
  induction words generalizing d with
  | nil => rfl
  | cons word words ih =>
    rw [answers, List.flatMap_cons]
    split
    · rw [List.filter_append, filter_timing_paragraphs, ih]
    · rw [List.filter_append, List.filter_append, filter_timing_measured, filter_timing_paragraphs,
        ih, List.nil_append]

/-- **Without its measurements a transcript is that of a run that measures nothing.** -/
theorem filter_timing : q.transcript.filter (·.kind ≠ .timing)
    = ({ q with measure := false } : Inquiry).transcript := by
  have hplain : ({ q with measure := false } : Inquiry).transcript
      = q.opening ++ q.decided.flatMap q.paragraphs ++ q.closing := transcript_of_not_measure rfl
  rw [hplain, transcript, List.filter_append, List.filter_append, List.filter_append,
    filter_timing_measured, filter_opening q (by decide), filter_timing_answers,
    filter_closing q (by decide), List.nil_append]

theorem filter_listing_measured (name : Text) :
    (q.measured name d).filter (·.kind ≠ .listing) = q.measured name d := by
  unfold measured
  split <;> simp

theorem filter_listing_paragraphs (word : Text) : (q.paragraphs word).filter (·.kind ≠ .listing)
    = ({ q with derivations := false } : Inquiry).paragraphs word := by
  unfold paragraphs wordParagraphs
  split
  · simp
  · split <;> simp

theorem filter_listing_answers (words : List Text) : (q.answers d words).filter (·.kind ≠ .listing)
    = ({ q with derivations := false } : Inquiry).answers d words := by
  induction words generalizing d with
  | nil => rfl
  | cons word words ih =>
    rw [answers, answers]
    split
    · rw [List.filter_append, filter_listing_paragraphs, ih]
    · rw [List.filter_append, List.filter_append, filter_listing_measured,
        filter_listing_paragraphs, ih]
      rfl

/-- **Without its listings a transcript is that of a run that lists nothing.** -/
theorem filter_listing : q.transcript.filter (·.kind ≠ .listing)
    = ({ q with derivations := false } : Inquiry).transcript := by
  unfold transcript
  rw [List.filter_append, List.filter_append, List.filter_append, filter_listing_measured,
    filter_opening q (by decide), filter_listing_answers, filter_closing q (by decide)]
  rfl

end Filter

end Inquiry

end CommandLine
end Pyramid
