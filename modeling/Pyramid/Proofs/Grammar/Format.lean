import Mathlib
import Pyramid.Grammar.Source
import Pyramid.Proofs.Grammar.RoundTrip

/-!
# The format of a grammar text

Which texts are grammars, said of their lines and without the reader: a line may be passed over
(`Ignorable`), or it is well formed and spells a production (`IsWellFormed`, `Spells`).

* One line: the arrow stands at one place only exactly when there are two pieces between arrows
  (`cutAtArrow_iff`), the symbols found in a body are what is left of its pieces between spaces
  (`hasSymbols_iff`), and carriage returns at the end of a line make no difference
  (`arrowParts_dropReturns_iff`, `symbolsIn_dropReturns`). So a line is read as a production exactly
  when it spells it (`readLine_eq_ok_iff`).
* All lines: what is read are the productions that the lines spell (`readLines_eq_ok_iff`), and the
  error is about the first line that is at fault (`isFirstBad_of_readLines`).
* Two texts, one below the other, are read one after the other, and the lines of the second are
  numbered on from those of the first (`readLines_append`, `readLines_add`).

`readText_format` puts this together for whole texts.
-/

namespace Pyramid.Grammar

open Text

variable {line before after t : Text} {lines : List Text} {n : Nat}

/-! ## Lines that are passed over -/

/-- The line has nothing but blanks, or its first character after spaces and tabs is `#`. -/
def Ignorable (line : Text) : Prop :=
  AllBlank line ∨
    ∃ indent comment, line = indent ++ '#' :: comment ∧ ∀ c ∈ indent, c = ' ' ∨ c = '\t'

theorem isIgnorable_iff : isIgnorable line = true ↔ Ignorable line := by
  unfold isIgnorable Ignorable
  rw [Bool.or_eq_true, List.all_eq_true, beq_iff_eq]
  refine or_congr Iff.rfl ?_
  constructor
  · intro h
    obtain ⟨comment, hcomment⟩ := List.head?_eq_some_iff.mp h
    refine ⟨line.takeWhile fun c => c = ' ' || c = '\t', comment, ?_, fun c hc => ?_⟩
    · rw [← hcomment, List.takeWhile_append_dropWhile]
    · simpa using List.mem_takeWhile_imp hc
  · rintro ⟨indent, comment, rfl, hindent⟩
    rw [List.dropWhile_append_of_pos fun c hc => by simpa using hindent c hc,
      List.dropWhile_cons_of_neg (by decide)]
    rfl

instance (line : Text) : Decidable (Ignorable line) := decidable_of_iff _ isIgnorable_iff

/-! ## The arrow -/

/-- The arrow stands at one place of the line, and these are the parts before it and after it. -/
def CutAtArrow (line before after : Text) : Prop :=
  ∀ u v, line = u ++ Production.arrow ++ v ↔ u = before ∧ v = after

theorem CutAtArrow.line_eq (h : CutAtArrow line before after) :
    line = before ++ Production.arrow ++ after := (h _ _).mpr ⟨rfl, rfl⟩

theorem join_arrowParts (t : Text) : join Production.arrow (arrowParts t) = t := by
  fun_induction arrowParts t with
  | case1 rest ih =>
    obtain ⟨u, us, hparts, -⟩ := exists_arrowParts_eq_cons rest
    rw [hparts] at ih ⊢
    have hjoin : join Production.arrow ([] :: u :: us)
        = [] ++ Production.arrow ++ join Production.arrow (u :: us) := List.intercalate_cons_cons
    rw [hjoin, ih]
    rfl
  | case2 c rest _ ih =>
    obtain ⟨u, us, hparts, -⟩ := exists_arrowParts_eq_cons rest
    rw [hparts] at ih ⊢
    rw [List.modifyHead_cons]
    conv_rhs => rw [← ih]
    cases us with
    | nil => simp
    | cons w ws =>
      unfold join
      rw [List.intercalate_cons_cons, List.intercalate_cons_cons]
      rfl
  | case3 => rfl

/-- If there is only one piece, it is the text. -/
theorem eq_of_arrowParts_eq_singleton {piece : Text} (h : arrowParts t = [piece]) : t = piece := by
  rw [← join_arrowParts t, h, join_singleton]

theorem arrowParts_cases (t : Text) :
    arrowParts t = [t] ∨ ∃ u v, t = u ++ Production.arrow ++ v := by
  obtain ⟨u, us, hparts, -⟩ := exists_arrowParts_eq_cons t
  cases us with
  | nil =>
    rw [← eq_of_arrowParts_eq_singleton hparts] at hparts
    exact .inl hparts
  | cons w ws =>
    refine .inr ⟨u, join Production.arrow (w :: ws), ?_⟩
    rw [← join_arrowParts t, hparts]
    exact List.intercalate_cons_cons

theorem ne_append_arrow_append (u v : Text) : u ≠ u ++ Production.arrow ++ v := by
  intro h
  have hlen := congrArg List.length h
  simp [Production.arrow] at hlen

/-- **The arrow stands at one place exactly when there are two pieces between arrows.** -/
theorem cutAtArrow_iff : CutAtArrow line before after ↔ arrowParts line = [before, after] := by
  constructor
  · intro h
    have hline := h.line_eq
    -- An arrow inside one of the parts would be a second place.
    have hbefore : arrowParts before = [before] := by
      rcases arrowParts_cases before with hone | ⟨u, v, rfl⟩
      · exact hone
      · obtain ⟨hu, -⟩ := (h u (v ++ Production.arrow ++ after)).mp (by rw [hline]; simp)
        exact absurd hu (ne_append_arrow_append u v)
    have hafter : arrowParts after = [after] := by
      rcases arrowParts_cases after with hone | ⟨u, v, rfl⟩
      · exact hone
      · obtain ⟨hu, -⟩ := (h (before ++ Production.arrow ++ u) v).mp (by rw [hline]; simp)
        exact absurd hu.symm (ne_append_arrow_append before u)
    rw [hline, arrowParts_append_arrow, hbefore, hafter]
    rfl
  · intro hparts u v
    constructor
    · rintro rfl
      rw [arrowParts_append_arrow] at hparts
      obtain ⟨w, ws, hu, -⟩ := exists_arrowParts_eq_cons u
      obtain ⟨x, xs, hv, -⟩ := exists_arrowParts_eq_cons v
      have hws : ws = [] := by
        have hlen := congrArg List.length hparts
        rw [hu, hv, List.length_append, List.length_cons, List.length_cons] at hlen
        simp only [List.length_cons, List.length_nil] at hlen
        exact List.length_eq_zero_iff.mp (by omega)
      subst hws
      rw [hu, hv, List.singleton_append] at hparts
      cases hparts
      exact ⟨eq_of_arrowParts_eq_singleton hu, eq_of_arrowParts_eq_singleton hv⟩
    · rintro ⟨rfl, rfl⟩
      rw [← join_arrowParts line, hparts, join_pair]

/-! ## Carriage returns -/

theorem dropReturns_append_arrow (u v : Text) :
    dropReturns (u ++ Production.arrow ++ v) = u ++ Production.arrow ++ dropReturns v := by
  have hkeep : (u ++ Production.arrow).reverse.dropWhile (· = '\r')
      = (u ++ Production.arrow).reverse := by
    rw [List.reverse_append]
    rfl
  unfold dropReturns
  rw [List.reverse_append, List.dropWhile_append, hkeep]
  by_cases hv : v.reverse.dropWhile (· = '\r') = []
  · rw [if_pos (by simp [hv]), hv, List.reverse_reverse]
    exact (List.append_nil _).symm
  · rw [if_neg (by simpa using hv), List.reverse_append, List.reverse_reverse]

theorem IsArrowFree.append_returns {returns : Text} (h : IsArrowFree t)
    (hr : ∀ c ∈ returns, c = '\r') : IsArrowFree (t ++ returns) := by
  have hno : ∀ {c d : Char}, d ∈ returns → ¬ (c = '-' ∧ d = '>') := by
    rintro c d hd ⟨-, rfl⟩
    exact absurd (hr _ hd) (by decide)
  refine List.isChain_append.mpr ⟨h, ?_, fun c _ d hd => hno (List.mem_of_head? hd)⟩
  exact (List.pairwise_of_forall_mem_list fun c _ d hd => hno hd).isChain

theorem isArrowFree_of_arrowParts_eq_pair {u v : Text} (h : arrowParts t = [u, v]) :
    IsArrowFree u ∧ IsArrowFree v := by
  have hu : u ∈ arrowParts t := by rw [h]; simp
  have hv : v ∈ arrowParts t := by rw [h]; simp
  exact ⟨(isArrowFree_of_mem_arrowParts hu).1, (isArrowFree_of_mem_arrowParts hv).1⟩

/-- Carriage returns at the end of a line go with the part after the arrow. -/
theorem arrowParts_dropReturns_iff {body : Text} :
    arrowParts (dropReturns line) = [before, body] ↔
      ∃ after, CutAtArrow line before after ∧ body = dropReturns after := by
  constructor
  · intro hparts
    obtain ⟨returns, hline, hreturns⟩ := exists_returns line
    have hcut : dropReturns line = before ++ Production.arrow ++ body := by
      rw [← join_arrowParts (dropReturns line), hparts, join_pair]
    obtain ⟨hbefore, hbody⟩ := isArrowFree_of_arrowParts_eq_pair hparts
    rw [hcut, List.append_assoc] at hline
    refine ⟨body ++ returns, ?_, ?_⟩
    · rw [cutAtArrow_iff, hline, arrowParts_append hbefore (hbody.append_returns hreturns)]
    · rw [hline, dropReturns_append_arrow] at hcut
      exact (List.append_cancel_left hcut).symm
  · rintro ⟨after, hcut, rfl⟩
    obtain ⟨hbefore, hafter⟩ := isArrowFree_of_arrowParts_eq_pair (cutAtArrow_iff.mp hcut)
    rw [hcut.line_eq, dropReturns_append_arrow]
    exact arrowParts_append hbefore (hafter.of_isInfix (dropReturns_isPrefix after).isInfix)

theorem symbolsIn_dropReturns (t : Text) :
    Production.symbolsIn (dropReturns t) = Production.symbolsIn t := by
  obtain ⟨returns, ht, hreturns⟩ := exists_returns t
  have hblank : AllBlank returns := by
    intro c hc
    rw [hreturns c hc]
    decide
  conv_rhs => rw [ht]
  exact (Production.symbolsIn_append_blanks _ hblank).symm

/-! ## The symbols of a body -/

/-- The pieces leave these symbols: a piece with nothing but blanks leaves none, and any other piece
leaves what stands between the blanks at its ends. -/
inductive Leaves : (pieces symbols : List Text) → Prop where
  | nil : Leaves [] []
  | blank {piece : Text} {pieces symbols : List Text} (blank : AllBlank piece)
      (rest : Leaves pieces symbols) : Leaves (piece :: pieces) symbols
  | symbol {piece s : Text} {pieces symbols : List Text} (ne_nil : s ≠ []) (trimmed : IsTrimmed s)
      (padded : IsPadded s piece) (rest : Leaves pieces symbols) :
      Leaves (piece :: pieces) (s :: symbols)

/-- The text, cut at all its spaces, leaves these symbols. -/
def HasSymbols (body : Text) (symbols : List Text) : Prop :=
  ∃ pieces, body = join [' '] pieces ∧ (∀ piece ∈ pieces, ' ' ∉ piece) ∧ Leaves pieces symbols

theorem Leaves.filter_eq {pieces symbols : List Text} (h : Leaves pieces symbols) :
    (pieces.map strip).filter (· ≠ []) = symbols := by
  induction h with
  | nil => rfl
  | blank blank _ ih =>
    rw [List.map_cons, strip_eq_nil_iff.mpr blank, List.filter_cons_of_neg (by simp), ih]
  | symbol ne_nil trimmed padded _ ih =>
    rw [List.map_cons, (strip_eq_iff trimmed).mpr padded, List.filter_cons_of_pos (by simpa), ih]

theorem leaves_filter (pieces : List Text) :
    Leaves pieces ((pieces.map strip).filter (· ≠ [])) := by
  induction pieces with
  | nil => exact .nil
  | cons piece pieces ih =>
    rw [List.map_cons]
    by_cases hblank : strip piece = []
    · rw [List.filter_cons_of_neg (by simpa)]
      exact .blank (strip_eq_nil_iff.mp hblank) ih
    · rw [List.filter_cons_of_pos (by simpa)]
      exact .symbol hblank (isTrimmed_strip piece) (isPadded_strip piece) ih

/-- **The symbols that are found in a body are those that it has.** -/
theorem hasSymbols_iff {symbols : List Text} :
    HasSymbols t symbols ↔ Production.symbolsIn t = symbols := by
  unfold Production.symbolsIn
  constructor
  · rintro ⟨pieces, rfl, hspace, hleaves⟩
    by_cases hnil : pieces = []
    · -- No piece at all is joined to the same text as one empty piece.
      subst hnil
      cases hleaves
      rfl
    · rw [splitOn_join hnil hspace]
      exact hleaves.filter_eq
  · rintro rfl
    exact ⟨t.splitOn ' ', (List.intercalate_splitOn ' ').symm,
      fun piece => not_mem_of_mem_splitOn, leaves_filter _⟩

/-! ## Lines with a production -/

/-- The line holds the arrow once. Before it stands a variable, with blanks around it, and the part
after it has one or two symbols. -/
def IsWellFormed (line : Text) : Prop :=
  ∃ before after name symbols, CutAtArrow line before after ∧ IsPadded name before ∧ IsName name ∧
    HasSymbols after symbols ∧ (symbols.length = 1 ∨ symbols.length = 2)

/-- The line spells the production: its head stands before the arrow, and its symbols after it. -/
def Spells (line : Text) (p : Production) : Prop :=
  ∃ before after, CutAtArrow line before after ∧ IsPadded p.head before ∧
    HasSymbols after p.body.symbols

/-- A line is well formed exactly when it spells a production. -/
theorem isWellFormed_iff : IsWellFormed line ↔ ∃ p, Spells line p := by
  constructor
  · rintro ⟨before, after, name, symbols, hcut, hpad, hname, hsymbols, hsize⟩
    have hall : ∀ s ∈ symbols, IsSymbol s := fun s hs =>
      Production.isSymbol_of_mem_symbolsIn after (hasSymbols_iff.mp hsymbols ▸ hs)
    rcases hsize with hone | htwo
    · obtain ⟨a, rfl⟩ := List.length_eq_one_iff.mp hone
      exact ⟨⟨name, .terminal a, hname, hall⟩, before, after, hcut, hpad, hsymbols⟩
    · obtain ⟨b, c, rfl⟩ := List.length_eq_two.mp htwo
      exact ⟨⟨name, .pair b c, hname, hall⟩, before, after, hcut, hpad, hsymbols⟩
  · rintro ⟨p, before, after, hcut, hpad, hsymbols⟩
    refine ⟨before, after, p.head, p.body.symbols, hcut, hpad, p.head_name, hsymbols, ?_⟩
    cases p.body with
    | terminal a => exact .inl rfl
    | pair b c => exact .inr rfl

/-- **A line is read as a production exactly when it spells it.** -/
theorem readLine_eq_ok_iff {p : Production} : readLine line = .ok p ↔ Spells line p := by
  have htrimmed : IsTrimmed p.head := p.head_name.isSymbol.2.2
  constructor
  · intro h
    obtain ⟨head, body, hparts, hhead, hsymbols⟩ := exists_parts_of_readLine h
    obtain ⟨after, hcut, rfl⟩ := arrowParts_dropReturns_iff.mp hparts
    rw [symbolsIn_dropReturns] at hsymbols
    exact ⟨head, after, hcut, (strip_eq_iff htrimmed).mp hhead, hasSymbols_iff.mpr hsymbols⟩
  · rintro ⟨before, after, hcut, hpad, hsymbols⟩
    have hparts := arrowParts_dropReturns_iff.mpr ⟨after, hcut, rfl⟩
    have hmade : Production.ofTexts before (dropReturns after) = .ok p := by
      rw [Production.ofTexts_eq_ok_iff, symbolsIn_dropReturns]
      exact ⟨(strip_eq_iff htrimmed).mpr hpad, hasSymbols_iff.mp hsymbols⟩
    unfold readLine
    rw [hparts]
    simp only [hmade]
    rfl

theorem not_isWellFormed_of_readLine {d : LineDefect} (h : readLine line = .error d) :
    ¬ IsWellFormed line := by
  intro hform
  obtain ⟨p, hp⟩ := isWellFormed_iff.mp hform
  rw [readLine_eq_ok_iff.mpr hp] at h
  cases h

/-! ## All lines -/

/-- **What is read are the productions that the lines spell**, one for each line that is not passed
over, in order. -/
theorem readLines_eq_ok_iff {ps : List Production} :
    readLines n lines = .ok ps ↔ List.Forall₂ Spells (lines.filter fun l => ¬ Ignorable l) ps := by
  fun_induction readLines n lines generalizing ps with
  | case1 n =>
    rw [List.filter_nil, List.forall₂_nil_left_iff]
    constructor
    · intro h
      cases h
      rfl
    · rintro rfl
      rfl
  | case2 n line lines hskip ih =>
    rw [List.filter_cons_of_neg (by simpa using isIgnorable_iff.mp hskip)]
    exact ih
  | case3 n line lines hskip d hline =>
    rw [List.filter_cons_of_pos (by simpa using mt isIgnorable_iff.mpr hskip)]
    constructor
    · intro h
      cases h
    · intro h
      obtain ⟨p, _, hp, -, -⟩ := List.forall₂_cons_left_iff.mp h
      exact absurd (isWellFormed_iff.mpr ⟨p, hp⟩) (not_isWellFormed_of_readLine hline)
  | case4 n line lines hskip p hline ih =>
    rw [List.filter_cons_of_pos (by simpa using mt isIgnorable_iff.mpr hskip),
      List.forall₂_cons_left_iff]
    constructor
    · intro h
      cases hrest : readLines (n + 1) lines with
      | error e =>
        rw [hrest] at h
        cases h
      | ok qs =>
        rw [hrest] at h
        cases h
        exact ⟨p, qs, readLine_eq_ok_iff.mp hline, ih.mp hrest, rfl⟩
    · rintro ⟨q, qs, hq, hqs, rfl⟩
      have hpq : readLine line = .ok q := readLine_eq_ok_iff.mpr hq
      rw [hline] at hpq
      cases hpq
      rw [ih.mpr hqs]
      rfl

/-- Every line that is not passed over is well formed. -/
def AllWellFormed (lines : List Text) : Prop := ∀ line ∈ lines, ¬ Ignorable line → IsWellFormed line

/-- Of lines that are numbered from `n` on, that of number `k` is the first that is neither passed
over nor well formed. -/
def IsFirstBad (n : Nat) (lines : List Text) (k : Nat) : Prop :=
  ∃ before line after, lines = before ++ line :: after ∧ AllWellFormed before ∧
    ¬ Ignorable line ∧ ¬ IsWellFormed line ∧ k = n + before.length

theorem IsFirstBad.cons {k : Nat} (h : IsFirstBad (n + 1) lines k)
    (hline : ¬ Ignorable line → IsWellFormed line) : IsFirstBad n (line :: lines) k := by
  obtain ⟨before, bad, after, rfl, hbefore, hbad, hform, rfl⟩ := h
  refine ⟨line :: before, bad, after, rfl, ?_, hbad, hform, ?_⟩
  · intro l hl
    rcases List.mem_cons.mp hl with rfl | hl
    · exact hline
    · exact hbefore l hl
  · rw [List.length_cons]
    omega

theorem IsFirstBad.not_allWellFormed {k : Nat} (h : IsFirstBad n lines k) :
    ¬ AllWellFormed lines := by
  obtain ⟨before, line, after, rfl, -, hbad, hform, -⟩ := h
  exact fun hall => hform (hall line (by simp) hbad)

/-- **The error is about the first line that is neither passed over nor well formed.** -/
theorem isFirstBad_of_readLines {e : ReadError} (h : readLines n lines = .error e) :
    IsFirstBad n lines e.line := by
  fun_induction readLines n lines with
  | case1 n => cases h
  | case2 n line lines hskip ih =>
    exact (ih h).cons fun hno => absurd (isIgnorable_iff.mp hskip) hno
  | case3 n line lines hskip d hline =>
    cases h
    refine ⟨[], line, lines, rfl, ?_, mt isIgnorable_iff.mpr hskip,
      not_isWellFormed_of_readLine hline, rfl⟩
    simp [AllWellFormed]
  | case4 n line lines hskip p hline ih =>
    cases hrest : readLines (n + 1) lines with
    | ok qs =>
      rw [hrest] at h
      cases h
    | error e' =>
      rw [hrest] at h
      cases h
      exact (ih hrest).cons fun _ => isWellFormed_iff.mpr ⟨p, readLine_eq_ok_iff.mp hline⟩

/-! ## Two texts, one below the other -/

/-- The lines behind are read when those before have been. -/
theorem readLines_append (n : Nat) (ls ms : List Text) :
    readLines n (ls ++ ms) = do
      let ps ← readLines n ls
      let qs ← readLines (n + ls.length) ms
      return ps ++ qs := by
  induction ls generalizing n with
  | nil =>
    show readLines n ms = _
    cases readLines n ms <;> rfl
  | cons l ls ih =>
    have hnumber : n + (l :: ls).length = n + 1 + ls.length := by
      rw [List.length_cons]
      omega
    rw [List.cons_append, readLines, readLines, ih, hnumber]
    by_cases hskip : isIgnorable l = true
    · rw [if_pos hskip, if_pos hskip]
    · rw [if_neg hskip, if_neg hskip]
      cases readLine l with
      | error d => rfl
      | ok p =>
        cases readLines (n + 1) ls with
        | error e => rfl
        | ok ps => cases readLines (n + 1 + ls.length) ms <;> rfl

/-- Lines that are numbered from elsewhere have the same productions and the same defects. -/
theorem readLines_add (n k : Nat) (lines : List Text) :
    readLines (n + k) lines = (readLines n lines).mapError fun e => ⟨e.line + k, e.defect⟩ := by
  induction lines generalizing n with
  | nil => rfl
  | cons line lines ih =>
    have hnext := ih (n + 1)
    rw [Nat.add_right_comm] at hnext
    rw [readLines, readLines, hnext]
    by_cases hskip : isIgnorable line = true
    · rw [if_pos hskip, if_pos hskip]
    · rw [if_neg hskip, if_neg hskip]
      cases readLine line with
      | error d => rfl
      | ok p => cases readLines (n + 1) lines <;> rfl

/-! ## Texts -/

theorem readText_eq_ok_iff {g : Grammar} :
    readText t = .ok g ↔ readLines 1 (t.splitOn '\n') = .ok g.productions := by
  unfold readText read
  cases readLines 1 (t.splitOn '\n') with
  | error e =>
    constructor
    · intro h
      cases h
    · intro h
      cases h
  | ok ps =>
    constructor
    · intro h
      cases h
      rfl
    · intro h
      cases h
      exact congrArg Except.ok (ext_productions (productions_ofProductions _))

theorem readText_eq_error_iff {f : Failure} :
    readText t = .error f ↔
      ∃ e, readLines 1 (t.splitOn '\n') = .error e ∧ f = .fault e.fault := by
  unfold readText read
  cases readLines 1 (t.splitOn '\n') with
  | error e =>
    constructor
    · intro h
      cases h
      exact ⟨e, rfl, rfl⟩
    · rintro ⟨e', he, rfl⟩
      cases he
      rfl
  | ok ps =>
    constructor
    · intro h
      cases h
    · rintro ⟨e, he, -⟩
      cases he

theorem isWellFormed_of_spells {ps : List Production} (h : List.Forall₂ Spells lines ps) :
    ∀ line ∈ lines, IsWellFormed line := by
  induction h with
  | nil => simp
  | cons hp _ ih =>
    intro line hline
    rcases List.mem_cons.mp hline with rfl | hline
    · exact isWellFormed_iff.mpr ⟨_, hp⟩
    · exact ih line hline

theorem exists_readText_iff : (∃ g, readText t = .ok g) ↔ AllWellFormed (t.splitOn '\n') := by
  constructor
  · rintro ⟨g, hg⟩ line hline hno
    have hspelt := readLines_eq_ok_iff.mp (readText_eq_ok_iff.mp hg)
    exact isWellFormed_of_spells hspelt line (List.mem_filter.mpr ⟨hline, decide_eq_true hno⟩)
  · intro hall
    cases hread : readText t with
    | ok g => exact ⟨g, rfl⟩
    | error f =>
      obtain ⟨e, he, -⟩ := readText_eq_error_iff.mp hread
      exact absurd hall (isFirstBad_of_readLines he).not_allWellFormed

/-- The lines of two texts, one below the other, are read one after the other. -/
theorem readLines_below (t u : Text) :
    readLines 1 ((t ++ '\n' :: u).splitOn '\n') = do
      let ps ← readLines 1 (t.splitOn '\n')
      let qs ← (readLines 1 (u.splitOn '\n')).mapError fun e =>
        ⟨e.line + (t.splitOn '\n').length, e.defect⟩
      return ps ++ qs := by
  rw [List.splitOn_append_cons_self, readLines_append, readLines_add]

/-- **A text is read line by line, and the first bad line is blamed.**

A text is a grammar exactly when all its lines that are not passed over are well formed. Its
productions are then those that these lines spell, in order. Otherwise the reader fails, and names
the number of the first line at fault, where the lines that are passed over are counted, too.

If one text stands below another, the first of them that fails is blamed: the upper one as if it
stood alone, the lower one with its lines numbered on from those of the upper. If neither fails,
there are the productions of the upper text and then those of the lower. -/
theorem readText_format (t : Text) :
    ((∃ g, readText t = .ok g) ↔ AllWellFormed (t.splitOn '\n')) ∧
    (∀ g, readText t = .ok g →
      List.Forall₂ Spells ((t.splitOn '\n').filter fun l => ¬ Ignorable l) g.productions) ∧
    (¬ AllWellFormed (t.splitOn '\n') → ∃ number : Nat, IsFirstBad 1 (t.splitOn '\n') number ∧
      ∃ message, readText t = .error (.fault ⟨.malformedGrammar, message, some number⟩)) ∧
    ∀ u : Text,
      (∀ f, readText t = .error f → readText (t ++ '\n' :: u) = .error f) ∧
      (∀ g kind message number, readText t = .ok g →
        readText u = .error (.fault ⟨kind, message, some number⟩) →
        readText (t ++ '\n' :: u)
          = .error (.fault ⟨kind, message, some (number + (t.splitOn '\n').length)⟩)) ∧
      ∀ g h, readText t = .ok g → readText u = .ok h →
        readText (t ++ '\n' :: u) = .ok (.ofProductions (g.productions ++ h.productions)) := by
  refine ⟨exists_readText_iff, ?_, ?_, fun u => ⟨?_, ?_, ?_⟩⟩
  · intro g hg
    exact readLines_eq_ok_iff.mp (readText_eq_ok_iff.mp hg)
  · intro hbad
    cases hread : readText t with
    | ok g => exact absurd (exists_readText_iff.mp ⟨g, hread⟩) hbad
    | error f =>
      obtain ⟨e, he, rfl⟩ := readText_eq_error_iff.mp hread
      exact ⟨e.line, isFirstBad_of_readLines he, e.defect.message, rfl⟩
  · intro f hf
    obtain ⟨e, he, rfl⟩ := readText_eq_error_iff.mp hf
    refine readText_eq_error_iff.mpr ⟨e, ?_, rfl⟩
    rw [readLines_below, he]
    rfl
  · intro g kind message number hg hu
    obtain ⟨e, he, hfault⟩ := readText_eq_error_iff.mp hu
    refine readText_eq_error_iff.mpr ⟨⟨e.line + (t.splitOn '\n').length, e.defect⟩, ?_, ?_⟩
    · rw [readLines_below, readText_eq_ok_iff.mp hg, he]
      rfl
    · cases hfault
      rfl
  · intro g h hg hh
    rw [readText_eq_ok_iff, readLines_below, readText_eq_ok_iff.mp hg, readText_eq_ok_iff.mp hh]
    rfl

/-- A text with a comment, an empty line and a production with blanks around its parts, one of whose
symbols has a tab inside; and below it a text whose third line has two arrows. -/
theorem readText_format_below :
    let upper : Text := "\t# S->a\n\n\x0BS ->  A\tB   C\x0C\r"
    let lower : Text := "S->a\n# S\nS->a->b\nS->"
    (∃ g p, readText upper = .ok g ∧ g.productions = [p] ∧
        p.head = "S" ∧ p.body = .pair "A\tB" "C" ∧ Spells "\x0BS ->  A\tB   C\x0C\r" p) ∧
      (∃ number, IsFirstBad 1 (lower.splitOn '\n') number) ∧
      ∃ message,
        readText lower = .error (.fault ⟨.malformedGrammar, message, some 3⟩) ∧
        readText (upper ++ '\n' :: lower)
          = .error (.fault ⟨.malformedGrammar, message, some 6⟩) := by
  intro upper lower
  let p : Production := ⟨"S", .pair "A\tB" "C", by decide, by decide⟩
  have hok : readLines 1 (upper.splitOn '\n') = .ok [p] := by decide +kernel
  have herror : readLines 1 (lower.splitOn '\n') = .error ⟨3, .arrows "S->a->b"⟩ := by
    decide +kernel
  have hupper : readText upper = .ok (.ofProductions [p]) := readText_eq_ok_iff.mpr hok
  have hlower := readText_eq_error_iff.mpr ⟨_, herror, rfl⟩
  obtain ⟨-, hspelt, -, hbelow⟩ := readText_format upper
  obtain ⟨hgrammar, -, hblame, -⟩ := readText_format lower
  refine ⟨⟨_, p, hupper, rfl, rfl, rfl, ?_⟩, ?_, _, hlower, ?_⟩
  · have hlines : ((upper.splitOn '\n').filter fun l => ¬ Ignorable l)
        = ["\x0BS ->  A\tB   C\x0C\r"] := by decide +kernel
    have hspells := hspelt _ hupper
    rw [hlines] at hspells
    exact (List.forall₂_cons.mp hspells).1
  · have hbad : ¬ AllWellFormed (lower.splitOn '\n') := by
      rw [← hgrammar]
      rintro ⟨g', hg'⟩
      rw [hlower] at hg'
      cases hg'
    obtain ⟨number, hfirst, -⟩ := hblame hbad
    exact ⟨number, hfirst⟩
  · exact (hbelow lower).2.1 _ _ _ _ hupper hlower

end Pyramid.Grammar
