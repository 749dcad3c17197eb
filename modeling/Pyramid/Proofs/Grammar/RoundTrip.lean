import Mathlib
import Pyramid.Grammar.Reader
import Pyramid.Proofs.Text.Padding

/-!
# Writing a grammar and reading it back

A grammar that was read from a text can be written and read again. What comes back are its
productions, in their order and with repetitions, but for those whose head begins with `#`: they can
be read behind an unusual blank, but are written at the start of a line and are a comment there.

The proof goes by parts.

* A production is made again from its head and its key (`Production.ofTexts_head_key`).
* Texts without an arrow `->` inside, with one between them, are cut at that arrow
  (`arrowParts_append`). The head and the symbols of a production that was read are such texts,
  because they are parts of a piece between arrows (`isArrowFree_of_mem_arrowParts`).
* So a production that was read is written on a line of its own which is read back
  (`IsWritable.readLine_text`), unless it is taken for a comment (`isIgnorable_text`).
-/

namespace Pyramid

open Text

/-! ## Parts of a text -/

namespace Text

theorem strip_isInfix (t : Text) : strip t <:+: t := by
  obtain ⟨before, after, heq, -, -⟩ := isPadded_strip t
  exact ⟨before, after, heq.symm⟩

/-- A piece between two marks is a part of the text. -/
theorem isInfix_of_mem_splitOn {c : Char} {t piece : Text} (h : piece ∈ t.splitOn c) :
    piece <:+: t := by
  have hjoin : List.intercalate [c] (t.splitOn c) = t := List.intercalate_splitOn c
  rw [← hjoin]
  generalize t.splitOn c = pieces at h
  induction pieces with
  | nil => cases h
  | cons p ps ih =>
    have hrest : List.intercalate [c] ps <:+: List.intercalate [c] (p :: ps) := by
      cases ps with
      | nil => exact ⟨[], p, by simp [List.intercalate]⟩
      | cons q qs => exact ⟨p ++ [c], [], by simp [List.intercalate]⟩
    rcases List.mem_cons.mp h with rfl | h
    · cases ps with
      | nil => exact ⟨[], [], by simp [List.intercalate]⟩
      | cons q qs => exact ⟨[], c :: List.intercalate [c] (q :: qs), by simp [List.intercalate]⟩
    · exact (ih h).trans hrest

theorem not_mem_of_mem_splitOn {c : Char} {t piece : Text} (h : piece ∈ t.splitOn c) :
    c ∉ piece := by
  intro hc
  rw [List.splitOn_eq_splitOnP] at h
  have hfalse := Production.not_mem_of_mem_splitOnP h hc
  simp at hfalse

/-- Joined pieces are found again at the marks between them. -/
theorem splitOn_join {c : Char} {parts : List Text} (hne : parts ≠ [])
    (h : ∀ p ∈ parts, c ∉ p) : (join [c] parts).splitOn c = parts :=
  List.splitOn_intercalate c h hne

end Text

/-! ## Making a production again -/

namespace Production

/-- Two texts make a production exactly when its head is the one, stripped, and its symbols are
those in the other. -/
theorem ofTexts_eq_ok_iff {head body : Text} {p : Production} :
    ofTexts head body = .ok p ↔ strip head = p.head ∧ symbolsIn body = p.body.symbols := by
  unfold ofTexts
  dsimp only
  constructor
  · intro h
    split at h
    · split at h
      · next hs =>
        cases h
        exact ⟨rfl, hs⟩
      · next hs =>
        cases h
        exact ⟨rfl, hs⟩
      · cases h
    · cases h
  · rintro ⟨hhead, hsymbols⟩
    have hname : IsName (strip head) := hhead ▸ p.head_name
    rw [dif_pos hname]
    cases hbody : p.body with
    | terminal a =>
      rw [hbody] at hsymbols
      split
      · next hs => exact congrArg _ (ext hhead (by simp_all [Body.symbols]))
      · next hs => simp_all [Body.symbols]
      · next hs _ => exact absurd hsymbols (hs a)
    | pair b c =>
      rw [hbody] at hsymbols
      split
      · next hs => simp_all [Body.symbols]
      · next hs => exact congrArg _ (ext hhead (by simp_all [Body.symbols]))
      · next _ hs => exact absurd hsymbols (hs b c)

theorem strip_head (p : Production) : strip p.head = p.head :=
  strip_eq_self p.head_name.isSymbol.2.2

theorem symbols_ne_nil (b : Body) : b.symbols ≠ [] := by
  cases b <;> simp [Body.symbols]

/-- The symbols of a body are found again in its key. -/
theorem symbolsIn_key (p : Production) : symbolsIn p.key = p.body.symbols := by
  have hspace : ∀ s ∈ p.body.symbols, ' ' ∉ s := fun s hs => (p.body_symbols s hs).2.1
  have hsplit : p.key.splitOn ' ' = p.body.symbols := splitOn_join (symbols_ne_nil _) hspace
  have hstrip : p.body.symbols.map strip = p.body.symbols := by
    conv_rhs => rw [← List.map_id p.body.symbols]
    exact List.map_congr_left fun s hs => strip_eq_self (p.body_symbols s hs).2.2
  unfold symbolsIn
  rw [hsplit, hstrip, List.filter_eq_self]
  intro s hs
  simpa using (p.body_symbols s hs).1

/-- **A production is made again from its head and its key.** -/
theorem ofTexts_head_key (p : Production) : ofTexts p.head p.key = .ok p :=
  ofTexts_eq_ok_iff.mpr ⟨p.strip_head, p.symbolsIn_key⟩

end Production

/-! ## Arrows -/

namespace Grammar

/-- No arrow stands in the text. -/
def IsArrowFree (t : Text) : Prop := t.IsChain fun c d => ¬ (c = '-' ∧ d = '>')

theorem IsArrowFree.of_isInfix {t u : Text} (h : IsArrowFree t) (hu : u <:+: t) :
    IsArrowFree u := by
  obtain ⟨before, after, rfl⟩ := hu
  exact h.left_of_append.right_of_append

theorem IsArrowFree.join {u v : Text} (hu : IsArrowFree u) (hv : IsArrowFree v) :
    IsArrowFree (u ++ ' ' :: v) := by
  refine List.isChain_append.mpr ⟨hu, ?_, ?_⟩
  · refine List.isChain_cons.mpr ⟨?_, hv⟩
    rintro c - ⟨hc, -⟩
    exact absurd hc (by decide)
  · rintro c - d hd ⟨-, rfl⟩
    rw [List.head?_cons, Option.mem_some] at hd
    exact absurd hd (by decide)

/-- The first piece is the text up to the first arrow. -/
theorem exists_arrowParts_eq_cons (t : Text) : ∃ u us, arrowParts t = u :: us ∧ u <+: t := by
  fun_induction arrowParts t with
  | case1 rest ih => exact ⟨[], _, rfl, List.nil_prefix⟩
  | case2 c rest _ ih =>
    obtain ⟨u, us, heq, hu⟩ := ih
    refine ⟨c :: u, us, by rw [heq, List.modifyHead_cons], ?_⟩
    exact (List.prefix_cons_inj c).mpr hu
  | case3 => exact ⟨[], [], rfl, List.nil_prefix⟩

/-- No piece between arrows has an arrow inside, and each is a part of the text. -/
theorem isArrowFree_of_mem_arrowParts {t piece : Text} (h : piece ∈ arrowParts t) :
    IsArrowFree piece ∧ piece <:+: t := by
  fun_induction arrowParts t generalizing piece with
  | case1 rest ih =>
    rcases List.mem_cons.mp h with rfl | h
    · exact ⟨.nil, List.nil_infix⟩
    · obtain ⟨hfree, hpart⟩ := ih h
      exact ⟨hfree, hpart.trans (List.suffix_append ['-', '>'] rest).isInfix⟩
  | case2 c rest hno ih =>
    obtain ⟨u, us, heq, hu⟩ := exists_arrowParts_eq_cons rest
    rw [heq] at h ih
    rw [List.modifyHead_cons] at h
    have hrest : rest <:+: c :: rest := (List.suffix_cons c rest).isInfix
    rcases List.mem_cons.mp h with rfl | h
    · -- The character is put before the first piece, and no arrow begins with it.
      refine ⟨List.isChain_cons.mpr ⟨?_, (ih List.mem_cons_self).1⟩,
        ((List.prefix_cons_inj c).mpr hu).isInfix⟩
      rintro d hd ⟨rfl, rfl⟩
      obtain ⟨more, rfl⟩ := hu
      cases u with
      | nil => cases hd
      | cons e u =>
        cases hd
        exact hno _ rfl rfl
    · obtain ⟨hfree, hpart⟩ := ih (List.mem_cons_of_mem _ h)
      exact ⟨hfree, hpart.trans hrest⟩
  | case3 =>
    obtain rfl := List.mem_singleton.mp h
    exact ⟨.nil, List.nil_infix⟩

theorem arrowParts_cons {c : Char} {t : Text} (h : ∀ d ∈ t.head?, ¬ (c = '-' ∧ d = '>')) :
    arrowParts (c :: t) = (arrowParts t).modifyHead (c :: ·) := by
  rw [arrowParts]
  rintro rest rfl rfl
  exact h '>' rfl ⟨rfl, rfl⟩

theorem arrowParts_of_isArrowFree {t : Text} (h : IsArrowFree t) : arrowParts t = [t] := by
  induction t with
  | nil => rfl
  | cons c t ih =>
    obtain ⟨hhead, htail⟩ := List.isChain_cons.mp h
    rw [arrowParts_cons hhead, ih htail, List.modifyHead_cons]

/-- **An arrow parts the pieces before it from those behind it.** -/
theorem arrowParts_append_arrow (u v : Text) :
    arrowParts (u ++ Production.arrow ++ v) = arrowParts u ++ arrowParts v := by
  fun_induction arrowParts u with
  | case1 rest ih =>
    show [] :: arrowParts (rest ++ Production.arrow ++ v) = _
    rw [ih]
    rfl
  | case2 c rest hno ih =>
    have hnext : ∀ d ∈ (rest ++ Production.arrow ++ v).head?, ¬ (c = '-' ∧ d = '>') := by
      cases rest with
      | nil =>
        rintro d hd ⟨-, rfl⟩
        -- Behind the last character before the arrow stands the dash of the arrow.
        have hdash : '-' = '>' := Option.some.inj hd
        exact absurd hdash (by decide)
      | cons e rest =>
        rintro d hd ⟨rfl, rfl⟩
        cases hd
        exact hno _ rfl rfl
    obtain ⟨w, ws, hparts, -⟩ := exists_arrowParts_eq_cons rest
    show arrowParts (c :: (rest ++ Production.arrow ++ v)) = _
    rw [arrowParts_cons hnext, ih, hparts]
    rfl
  | case3 => rfl

/-- Two texts without arrows are found again around an arrow between them. -/
theorem arrowParts_append {u v : Text} (hu : IsArrowFree u) (hv : IsArrowFree v) :
    arrowParts (u ++ Production.arrow ++ v) = [u, v] := by
  rw [arrowParts_append_arrow, arrowParts_of_isArrowFree hu, arrowParts_of_isArrowFree hv]
  rfl

/-! ## Lines -/

/-- The production was read from a line: its parts have no arrow inside, and it does not reach over
the end of a line. -/
structure IsWritable (p : Production) : Prop where
  head_free : IsArrowFree p.head
  key_free : IsArrowFree p.key
  one_line : '\n' ∉ p.text

theorem dropReturns_eq_self {t : Text} (h : t.getLast? ≠ some '\r') : dropReturns t = t := by
  have hdrop : t.reverse.dropWhile (· = '\r') = t.reverse := by
    cases hrev : t.reverse with
    | nil => rfl
    | cons c cs =>
      have hlast : t.getLast? = some c := by rw [← List.head?_reverse, hrev, List.head?_cons]
      rw [hlast] at h
      exact List.dropWhile_cons_of_neg (by simpa using h)
  unfold dropReturns
  rw [hdrop, List.reverse_reverse]

/-- Nothing but carriage returns is dropped. -/
theorem exists_returns (line : Text) :
    ∃ returns, line = dropReturns line ++ returns ∧ ∀ c ∈ returns, c = '\r' := by
  refine ⟨(line.reverse.takeWhile (· = '\r')).reverse, ?_, fun c hc => ?_⟩
  · unfold dropReturns
    rw [← List.reverse_append, List.takeWhile_append_dropWhile, List.reverse_reverse]
  · simpa using List.mem_takeWhile_imp (List.mem_reverse.mp hc)

theorem dropReturns_isPrefix (t : Text) : dropReturns t <+: t := by
  obtain ⟨returns, heq, -⟩ := exists_returns t
  exact ⟨returns, heq.symm⟩

/-- What a line says about the production on it. -/
theorem exists_parts_of_readLine {line : Text} {p : Production} (h : readLine line = .ok p) :
    ∃ head body, arrowParts (dropReturns line) = [head, body] ∧ strip head = p.head ∧
      Production.symbolsIn body = p.body.symbols := by
  unfold readLine at h
  split at h
  · next head body hparts =>
    cases hof : Production.ofTexts head body with
    | error d =>
      rw [hof] at h
      cases h
    | ok q =>
      rw [hof] at h
      cases h
      obtain ⟨hhead, hsymbols⟩ := Production.ofTexts_eq_ok_iff.mp hof
      exact ⟨head, body, hparts, hhead, hsymbols⟩
  · cases h

theorem isInfix_of_mem_symbolsIn {s body : Text} (h : s ∈ Production.symbolsIn body) :
    s <:+: body := by
  unfold Production.symbolsIn at h
  obtain ⟨piece, hpiece, rfl⟩ := List.mem_map.mp (List.mem_filter.mp h).1
  exact (strip_isInfix piece).trans (isInfix_of_mem_splitOn hpiece)

theorem isArrowFree_key {p : Production} (h : ∀ s ∈ p.body.symbols, IsArrowFree s) :
    IsArrowFree p.key := by
  unfold Production.key
  cases hbody : p.body with
  | terminal a =>
    rw [Body.key_terminal]
    exact h a (by simp [hbody, Body.symbols])
  | pair b c =>
    rw [Body.key_pair]
    exact (h b (by simp [hbody, Body.symbols])).join (h c (by simp [hbody, Body.symbols]))

theorem mem_key_iff {p : Production} {c : Char} (hc : c ≠ ' ') :
    c ∈ p.key ↔ ∃ s ∈ p.body.symbols, c ∈ s := by
  unfold Production.key
  cases p.body with
  | terminal a => simp [Body.symbols]
  | pair a b => simp [Body.symbols, hc]

/-- **Whatever is read from a line can be written on a line.** -/
theorem isWritable_of_readLine {line : Text} {p : Production} (hline : '\n' ∉ line)
    (h : readLine line = .ok p) : IsWritable p := by
  obtain ⟨head, body, hparts, hhead, hsymbols⟩ := exists_parts_of_readLine h
  have hheadMem : head ∈ arrowParts (dropReturns line) := by simp [hparts]
  have hbodyMem : body ∈ arrowParts (dropReturns line) := by simp [hparts]
  obtain ⟨hfree, hpart⟩ := isArrowFree_of_mem_arrowParts hheadMem
  obtain ⟨hfree', hpart'⟩ := isArrowFree_of_mem_arrowParts hbodyMem
  -- Head and symbols are parts of the line.
  have hline' : dropReturns line <:+: line := (dropReturns_isPrefix line).isInfix
  have hheadPart : p.head <:+: head := hhead ▸ strip_isInfix head
  have hsymbolPart : ∀ s ∈ p.body.symbols, s <:+: body := fun s hs =>
    isInfix_of_mem_symbolsIn (hsymbols ▸ hs)
  have hin : ∀ {t : Text}, t <:+: dropReturns line → '\n' ∉ t := fun ht hn =>
    hline (hline'.subset (ht.subset hn))
  refine ⟨hfree.of_isInfix hheadPart,
    isArrowFree_key fun s hs => hfree'.of_isInfix (hsymbolPart s hs), ?_⟩
  unfold Production.text
  rw [List.mem_append, List.mem_append, mem_key_iff (by decide)]
  rintro ((hn | hn) | ⟨s, hs, hn⟩)
  · exact hin (hheadPart.trans hpart) hn
  · exact absurd hn (by decide)
  · exact hin ((hsymbolPart s hs).trans hpart') hn

/-- The last character of a production is not blank. -/
theorem not_isBlank_of_getLast?_text {p : Production} {c : Char} (h : p.text.getLast? = some c) :
    isBlank c = false := by
  have hlast : ∃ s ∈ p.body.symbols, s.getLast? = some c := by
    unfold Production.text Production.key at h
    cases hbody : p.body with
    | terminal a =>
      have ha : a ≠ [] := (p.body_symbols a (by simp [hbody, Body.symbols])).1
      rw [hbody, Body.key_terminal, List.getLast?_append_of_ne_nil _ ha] at h
      exact ⟨a, by simp [Body.symbols], h⟩
    | pair a b =>
      have hb : b ≠ [] := (p.body_symbols b (by simp [hbody, Body.symbols])).1
      rw [hbody, Body.key_pair, List.append_cons, ← List.append_assoc,
        List.getLast?_append_of_ne_nil _ hb] at h
      exact ⟨b, by simp [Body.symbols], h⟩
  obtain ⟨s, hs, hc⟩ := hlast
  exact (p.body_symbols s hs).2.2.2 c hc

/-- **A production is read back from the line it is written on.** -/
theorem IsWritable.readLine_text {p : Production} (h : IsWritable p) : readLine p.text = .ok p := by
  have hlast : p.text.getLast? ≠ some '\r' := by
    intro hr
    have hblank := not_isBlank_of_getLast?_text hr
    exact absurd hblank (by decide)
  unfold readLine
  rw [dropReturns_eq_self hlast]
  unfold Production.text
  rw [arrowParts_append h.head_free h.key_free]
  simp only [Production.ofTexts_head_key]
  rfl

/-- A written production is taken for a comment exactly when its head begins like one. -/
theorem isIgnorable_text (p : Production) :
    isIgnorable p.text = true ↔ p.head.head? = some '#' := by
  obtain ⟨c, rest, hhead⟩ := List.exists_cons_of_ne_nil p.head_name.1
  have hc : isBlank c = false := p.head_name.2 c (by simp [hhead])
  have hspace : (c = ' ' || c = '\t') = false := by
    rw [Bool.or_eq_false_iff, decide_eq_false_iff_not, decide_eq_false_iff_not]
    constructor
    · rintro rfl
      exact absurd hc (by decide)
    · rintro rfl
      exact absurd hc (by decide)
  have htext : p.text = c :: (rest ++ Production.arrow ++ p.key) := by
    unfold Production.text
    rw [hhead]
    rfl
  unfold isIgnorable
  rw [htext, hhead, List.all_cons, hc, List.dropWhile_cons_of_neg (by simp [hspace])]
  simp

/-! ## Texts -/

theorem isWritable_of_readLines {lines : List Text} {n : Nat} {ps : List Production}
    (hlines : ∀ line ∈ lines, '\n' ∉ line) (h : readLines n lines = .ok ps) :
    ∀ p ∈ ps, IsWritable p := by
  fun_induction readLines n lines generalizing ps with
  | case1 n =>
    cases h
    simp
  | case2 n line lines hskip ih => exact ih (fun l hl => hlines l (by simp [hl])) h
  | case3 n line lines hskip d hline => cases h
  | case4 n line lines hskip p hline ih =>
    cases hrest : readLines (n + 1) lines with
    | error e =>
      rw [hrest] at h
      cases h
    | ok qs =>
      rw [hrest] at h
      cases h
      intro q hq
      rcases List.mem_cons.mp hq with rfl | hq
      · exact isWritable_of_readLine (hlines line (by simp)) hline
      · exact ih (fun l hl => hlines l (by simp [hl])) hrest q hq

/-- Written productions are read back line by line, and comments are left out. -/
theorem readLines_text {ps : List Production} (h : ∀ p ∈ ps, IsWritable p) (n : Nat) :
    readLines n (ps.map (·.text)) = .ok (ps.filter fun p => p.head.head? ≠ some '#') := by
  induction ps generalizing n with
  | nil => rfl
  | cons p ps ih =>
    have hrest := ih (fun q hq => h q (by simp [hq])) (n + 1)
    rw [List.map_cons, readLines]
    by_cases hhash : p.head.head? = some '#'
    · rw [if_pos ((isIgnorable_text p).mpr hhash), hrest, List.filter_cons_of_neg (by simp [hhash])]
    · rw [if_neg (mt (isIgnorable_text p).mp hhash), (h p (by simp)).readLine_text]
      simp only [hrest]
      rw [List.filter_cons_of_pos (by simpa using hhash)]
      rfl

/-- The lines of a written grammar are its productions; a grammar without productions is written as
an empty line. -/
theorem splitOn_text {g : Grammar} (h : ∀ p ∈ g.productions, IsWritable p) :
    g.text.splitOn '\n' = if g.productions = [] then [[]] else g.productions.map (·.text) := by
  unfold Grammar.text
  by_cases hnil : g.productions = []
  · rw [if_pos hnil, hnil]
    rfl
  · rw [if_neg hnil]
    refine splitOn_join (by simpa using hnil) fun line hline => ?_
    obtain ⟨p, hp, rfl⟩ := List.mem_map.mp hline
    exact (h p hp).one_line

/-- What a written grammar is read as. -/
theorem read_text_of_isWritable {g : Grammar} (h : ∀ p ∈ g.productions, IsWritable p) :
    read g.text = .ok (.ofProductions (g.productions.filter fun p => p.head.head? ≠ some '#')) := by
  have hlines : readLines 1 (g.text.splitOn '\n')
      = .ok (g.productions.filter fun p => p.head.head? ≠ some '#') := by
    rw [splitOn_text h]
    by_cases hnil : g.productions = []
    · rw [if_pos hnil, hnil]
      rfl
    · rw [if_neg hnil, readLines_text h]
  unfold read
  rw [hlines]
  rfl

/-- The productions of a grammar that was read can be written. -/
theorem isWritable_of_read {t : Text} {g : Grammar} (h : read t = .ok g) :
    ∀ p ∈ g.productions, IsWritable p := by
  unfold read at h
  cases hlines : readLines 1 (t.splitOn '\n') with
  | error e =>
    rw [hlines] at h
    cases h
  | ok ps =>
    rw [hlines] at h
    cases h
    exact isWritable_of_readLines (fun _ => not_mem_of_mem_splitOn) hlines

/-- **A grammar that was read is written and read back.** The reading succeeds, and gives the
productions of the grammar in their order and with repetitions, without those whose head begins like
a comment; if there are none of these, it gives the grammar itself. -/
theorem read_text {t : Text} {g : Grammar} (h : read t = .ok g) :
    (∃ g', read g.text = .ok g' ∧
      g'.productions = g.productions.filter fun p => p.head.head? ≠ some '#') ∧
    ((∀ p ∈ g.productions, p.head.head? ≠ some '#') → read g.text = .ok g) := by
  have hread := read_text_of_isWritable (isWritable_of_read h)
  refine ⟨⟨_, hread, rfl⟩, fun hno => ?_⟩
  have hall : g.productions.filter (fun p => p.head.head? ≠ some '#') = g.productions :=
    List.filter_eq_self.mpr fun p hp => by simpa using hno p hp
  rw [hread, hall]
  exact congrArg _ (ext_productions rfl)

/-- A text with unusual blanks, an empty line, a comment and a repetition: behind a vertical tab a
head may begin with `#`, and a symbol may hold a tab or half an arrow. -/
def unusual : Text := "\x0B#A->- \x0B>\n\n# S->a\nS-->\t> a\tb\x0C\nS-->\t> a\tb\r"

/-- Of the three productions of that text the first is lost when they are written and read back. -/
theorem read_text_unusual :
    ∃ g g', read unusual = .ok g ∧ read g.text = .ok g' ∧
      g.productions.map (·.head) = ["#A", "S-", "S-"] ∧
      g'.productions.map (·.head) = ["S-", "S-"] := by
  have hheads : (readLines 1 (unusual.splitOn '\n')).map (·.map (·.head))
      = .ok ["#A", "S-", "S-"] := by decide +kernel
  cases hlines : readLines 1 (unusual.splitOn '\n') with
  | error e =>
    rw [hlines] at hheads
    cases hheads
  | ok ps =>
    rw [hlines] at hheads
    have hps : ps.map (·.head) = ["#A", "S-", "S-"] := Except.ok.inj hheads
    have hread : read unusual = .ok (.ofProductions ps) := by
      unfold read
      rw [hlines]
      rfl
    obtain ⟨⟨g', hread', hg'⟩, -⟩ := read_text hread
    refine ⟨_, g', hread, hread', hps, ?_⟩
    have hfilter : (ps.filter fun p => p.head.head? ≠ some '#').map (·.head)
        = (ps.map (·.head)).filter fun t => t.head? ≠ some '#' := by
      rw [List.filter_map]
      rfl
    rw [hg', productions_ofProductions, hfilter, hps]
    decide

end Grammar
end Pyramid
