import Mathlib
import Pyramid.Proofs.CommandLine.Transcript

/-!
# What a run prints

The program follows its transcript. Every part of it either does what the transcript says or is
broken off because the disk refuses an entry in the journal (`Completes`). The words share one
store; all that a word needs of it is that its nodes are right (`Serving`).

`run_of_accepted` says so of whole runs.
-/

namespace Pyramid

open Text

/-! ## Measurements -/

theorem Binary64.exponentFor_le {num k : Nat} (h : num < 2 ^ k) (den : Nat) :
    exponentFor num den ≤ max leastExponent k := by
  have hlog : Nat.log2 num ≤ k := by
    by_cases hnum : num = 0
    · simp [hnum]
    · exact ((Nat.log2_lt hnum).mpr h).le
  unfold exponentFor
  refine max_le_max le_rfl ?_
  split <;> omega

/-- A number that is far from the bound of the format is in it. -/
theorem Binary64.nearest_eq_finite {num : Nat} (h : num < 2 ^ 960) (negative : Bool) (den : Nat) :
    ∃ significand exponent, nearest negative num den = .finite negative significand exponent := by
  have hexponent : exponentFor num den ≤ max leastExponent 960 := exponentFor_le h den
  have hleast : leastExponent = -1074 := rfl
  have hgreatest : greatestExponent = 971 := rfl
  unfold nearest
  by_cases hnum : num = 0
  · rw [if_pos hnum]
    exact ⟨_, _, rfl⟩
  · simp only [hnum, if_false]
    split
    · rw [if_neg (by dsimp only; omega)]
      exact ⟨_, _, rfl⟩
    · rw [if_neg (by dsimp only; omega)]
      exact ⟨_, _, rfl⟩

namespace Stopwatch

theorem exists_line {ns : Int} (h : ns.natAbs < 2 ^ 960) (name : Text) :
    ∃ t, line name ns = .ok t := by
  obtain ⟨significand, exponent, heq⟩ := Binary64.nearest_eq_finite h (ns < 0) 1000000
  unfold line milliseconds
  rw [heq]
  exact ⟨_, rfl⟩

/-- No measurement takes longer than any clock can count. -/
def Durations.IsTimely (d : Durations) : Prop := ∀ ns ∈ d.cycle, ns.natAbs < 2 ^ 960

variable {d : Durations}

theorem Durations.IsTimely.next (h : d.IsTimely) : d.next.2.IsTimely := h

theorem Durations.IsTimely.natAbs_next_lt (h : d.IsTimely) : d.next.1.natAbs < 2 ^ 960 := by
  show (d.cycle.getD (d.made % d.cycle.length) 0).natAbs < 2 ^ 960
  rw [List.getD_eq_getElem?_getD]
  cases hget : d.cycle[d.made % d.cycle.length]? with
  | none => decide +kernel
  | some ns => exact h ns (List.mem_of_getElem? hget)

end Stopwatch

namespace CommandLine

/-! ## Parts that complete -/

section Completes

variable {α β : Type} {act : Program α} {f : α → Program β} {m : Machine} {Q : α → Machine → Prop}
  {R : β → Machine → Prop}

/-- From the machine, the part of the program ends with a result of which `Q` holds, together with
the machine afterwards, unless the disk refuses an entry in the journal. -/
def Completes (act : Program α) (m : Machine) (Q : α → Machine → Prop) : Prop :=
  match act m with
  | (.ok a, m') => Q a m'
  | (.error f, _) => ∃ e, f = .disk e

theorem Completes.pure {a : α} (h : Q a m) : Completes (pure a) m Q := h

theorem Completes.bind (h : Completes act m Q) (hf : ∀ a m', Q a m' → Completes (f a) m' R) :
    Completes (act >>= f) m R := by
  unfold Completes at h ⊢
  cases hact : act m with
  | mk r m' =>
    rw [hact] at h
    cases r with
    | ok a =>
      rw [Act.bind_of_ok hact]
      exact hf a m' h
    | error e =>
      rw [Act.bind_of_error hact]
      exact h

theorem Completes.imp {Q' : α → Machine → Prop} (h : Completes act m Q)
    (hq : ∀ a m', Q a m' → Q' a m') : Completes act m Q' := by
  unfold Completes at h ⊢
  split at h
  · next hact => exact hq _ _ h
  · exact h

end Completes

variable {a : Arguments} {s : Solver} {m : Machine} {g : Grammar} {words done : List Text}
  {word : Text}

theorem completes_say (t : Text) :
    Completes (say t) m fun _ m' => m' = { m with output := m.output ++ t } := rfl

theorem completes_get : Completes (get : Program Machine) m fun m₁ m' => m = m₁ ∧ m = m' :=
  ⟨rfl, rfl⟩

theorem completes_set (m₁ : Machine) :
    Completes (set m₁ : Program Unit) m fun _ m' => m₁ = m' := rfl

theorem completes_sayMeasured (ht : m.durations.IsTimely) (name : Text) :
    Completes (sayMeasured name) m fun _ m' => m' = { m with
      durations := m.durations.next.2
      output := m.output ++ Inquiry.timing name m.durations.next.1 } := by
  obtain ⟨t, hline⟩ := Stopwatch.exists_line ht.natAbs_next_lt name
  unfold sayMeasured
  refine completes_get.bind ?_
  rintro _ _ ⟨rfl, rfl⟩
  cases hnext : m.durations.next with
  | mk ns durations =>
    rw [hnext] at hline
    refine (completes_set { m with durations }).bind ?_
    rintro _ _ rfl
    rw [hline, Inquiry.timing, hline]
    exact completes_say t

/-! ## Words -/

/-- What the transcript of a solver's work depends on. -/
def inquiryFor (a : Arguments) (g : Grammar) (start : Text) (asked : List Text)
    (durations : Stopwatch.Durations) : Inquiry :=
  ⟨g, start, asked, a.derivations, a.measure, durations⟩

/-- The store of the machine is right for a grammar after some words were decided. -/
structure Serving (g : Grammar) (done : List Text) (m : Machine) : Prop where
  coherent : m.store.Coherent
  exact : m.store.Exact g
  accounts : m.store.Accounts (done.flatMap pieces)

theorem Serving.of_store_eq {m' : Machine} (h : Serving g done m) (hstore : m'.store = m.store) :
    Serving g done m' where
  coherent := hstore ▸ h.coherent
  exact := hstore ▸ h.exact
  accounts := hstore ▸ h.accounts

/-- A word is derived with the nodes of all words before it, and its node is right all the same. -/
theorem completes_derive (h : Serving s.grammar done m) (hw : word ≠ []) :
    Completes (atBench (s.derive word)) m fun n m' => s.grammar.Records word n ∧
      Serving s.grammar (done ++ [word]) m' ∧ m'.output = m.output ∧
      m'.durations = m.durations := by
  have hderive := Solver.delivers_derive (P := (·.SameProductions s.grammar)) (.refl s.grammar)
    (b := ⟨m.store, m.disk, m.now⟩) h.coherent hw
  obtain ⟨ts, hreq, hresult⟩ := hderive
  unfold Completes atBench
  cases hact : s.derive word ⟨m.store, m.disk, m.now⟩ with
  | mk r b =>
    rw [hact] at hreq hresult
    cases r with
    | error f => exact hresult
    | ok n =>
      obtain ⟨rfl, hn⟩ := hresult
      have hcoherent := hreq.coherent h.coherent
      have hexact := hreq.exact h.coherent h.exact
      have haccounts := hreq.accounts h.accounts
      refine ⟨⟨(hcoherent hn).text_eq, hexact hn⟩, ⟨hcoherent, hexact, ?_⟩, rfl, rfl⟩
      rw [List.flatMap_append, List.flatMap_singleton]
      exact haccounts

/-- What is printed, and what is still to be printed for some words. -/
def printed (q : Inquiry) (words : List Text) (m : Machine) : Text :=
  m.output ++ render (q.answers m.durations words)

section

variable {q : Inquiry} (hq : q = inquiryFor a s.grammar s.start q.asked q.durations)

include hq

/-- **One word of a run.** What is printed for it is what the transcript has for it. -/
theorem completes_runWord (h : Serving s.grammar done m)
    (ht : a.measure = true → m.durations.IsTimely) (word : Text) (words : List Text) :
    Completes (runWord a s word) m fun _ m' => Serving s.grammar (done ++ [word]) m' ∧
      (a.measure = true → m'.durations.IsTimely) ∧
      printed q words m' = printed q (word :: words) m := by
  have hparagraphs : ∀ word, q.paragraphs word
      = wordParagraphs s.grammar s.start a.derivations word := by
    rw [hq]
    exact fun _ => rfl
  have hmeasure : q.measure = a.measure := by rw [hq]; rfl
  unfold runWord
  simp only [printed, Inquiry.answers, hparagraphs]
  by_cases hw : word = []
  · subst hw
    rw [if_pos rfl, if_pos rfl, wordParagraphs, if_pos rfl]
    refine (completes_say _).imp ?_
    rintro _ m' rfl
    refine ⟨?_, ht, by simp⟩
    have hsame : (done ++ [[]]).flatMap pieces = done.flatMap pieces := by simp [pieces]
    exact ⟨h.coherent, h.exact, hsame ▸ h.accounts⟩
  · rw [if_neg hw, if_neg hw]
    refine (completes_derive h hw).bind ?_
    rintro n m₁ ⟨hn, hserving, houtput, hdurations⟩
    by_cases hm : a.measure = true
    · rw [if_pos hm]
      refine (completes_sayMeasured (hdurations ▸ ht hm) _).bind ?_
      rintro _ m₂ rfl
      refine (completes_say _).imp ?_
      rintro _ m₃ rfl
      refine ⟨hserving.of_store_eq rfl, fun hm => (hdurations ▸ ht hm), ?_⟩
      simp [Inquiry.measured, Inquiry.elapsed, hmeasure, hm, block_eq hn hw, houtput, hdurations]
    · rw [if_neg hm]
      refine (completes_say _).imp ?_
      rintro _ m₂ rfl
      refine ⟨hserving.of_store_eq rfl, fun hm' => absurd hm' hm, ?_⟩
      simp [Inquiry.measured, Inquiry.elapsed, hmeasure, hm, block_eq hn hw, houtput, hdurations]

theorem completes_runWords (h : Serving s.grammar done m)
    (ht : a.measure = true → m.durations.IsTimely) (words : List Text) :
    Completes (runWords a s words) m fun _ m' => Serving s.grammar (done ++ words) m' ∧
      m'.output = printed q words m := by
  induction words generalizing m done with
  | nil =>
    refine .pure ⟨?_, ?_⟩
    · rwa [List.append_nil]
    · simp [printed, Inquiry.answers]
  | cons word words ih =>
    refine (completes_runWord hq h ht word words).bind ?_
    rintro _ m₁ ⟨hserving, ht₁, hprinted⟩
    refine (ih hserving ht₁).imp ?_
    rintro _ m₂ ⟨hserving₂, houtput⟩
    rw [hprinted] at houtput
    rw [List.append_assoc, List.singleton_append] at hserving₂
    exact ⟨hserving₂, houtput⟩

/-- All that is printed after a successful start. -/
theorem completes_decideAll {entropy : Int} (h : Serving s.grammar [] m)
    (ht : a.measure = true → m.durations.IsTimely) (hwords : wordsFor a entropy = .ok q.asked) :
    Completes (decideAll a entropy s) m fun _ m' =>
      m'.output = m.output
        ++ render (q.opening ++ q.answers m.durations q.decided ++ q.closing) := by
  -- The rule and the summary, after all words were decided.
  have hclosing : ∀ m₁, Serving s.grammar q.decided m₁ →
      Completes (do sayLine rule; sayLine (s.summary (← get).store)) m₁ fun _ m' =>
        m'.output = m₁.output ++ render q.closing := by
    intro m₁ h₁
    have hsize : m₁.store.size = (substrings q.decided).card :=
      Store.size_eq_card fun t => by rw [h₁.accounts.contains_iff, substrings, List.mem_toFinset]
    have hgrammar : q.grammar = s.grammar := congrArg Inquiry.grammar hq
    have hsummary : s.summary m₁.store = q.summary := by
      unfold Solver.summary Inquiry.summary
      rw [hsize, hgrammar]
    show (m₁.output ++ (rule ++ "\n")) ++ (s.summary m₁.store ++ "\n") = _
    rw [hsummary, Inquiry.closing, List.append_assoc]
    simp
  unfold decideAll
  rw [hwords]
  show Completes (if q.asked = [] then _ else _) m _
  by_cases hasked : q.asked = []
  · have hdecided : q.decided = sampleWords := if_pos hasked
    rw [if_pos hasked]
    refine (completes_say _).bind ?_
    rintro _ m₁ rfl
    have h₁ : Serving s.grammar [] { m with output := m.output ++ (samplesNotice ++ "\n") } :=
      h.of_store_eq rfl
    refine (completes_runWords hq h₁ ht sampleWords).bind ?_
    rintro _ m₂ ⟨hserving, houtput⟩
    rw [List.nil_append, ← hdecided] at hserving
    refine (hclosing m₂ hserving).imp ?_
    rintro _ m₃ hend
    rw [hend, houtput, Inquiry.opening, if_pos hasked, hdecided]
    simp [printed]
  · have hdecided : q.decided = q.asked := if_neg hasked
    rw [if_neg hasked]
    refine (completes_runWords hq h ht q.asked).bind ?_
    rintro _ m₂ ⟨hserving, houtput⟩
    rw [List.nil_append, ← hdecided] at hserving
    refine (hclosing m₂ hserving).imp ?_
    rintro _ m₃ hend
    rw [hend, houtput, Inquiry.opening, if_neg hasked, hdecided]
    simp [printed]

end

/-! ## Whole runs -/

theorem serving_new (g : Grammar) (guarded : Bool) (hm : m.store = { number := 1, guarded }) :
    Serving g [] m where
  coherent := hm ▸ Store.coherent_of_empty fun _ => rfl
  exact := hm ▸ Store.exact_of_empty fun _ => rfl
  accounts := hm ▸ Store.accounts_new 1 guarded

/-- A grammar that was read is loaded, unless the journal is refused the entry. -/
theorem load_cases {source : Grammar.Source} {d : Disk} {name : Option Text}
    (hread : source.read d = .ok (g, name)) (journal : Option Journal) (now : Moment) :
    ∃ disk, source.load journal now d = (.ok g, disk) ∨
      ∃ e, source.load journal now d = (.error (.disk e), disk) := by
  unfold Grammar.Source.load
  rw [hread]
  dsimp only
  split
  · split
    · exact ⟨_, .inr ⟨_, rfl⟩⟩
    · exact ⟨_, .inl rfl⟩
  · exact ⟨_, .inl rfl⟩

theorem completes_load {source : Grammar.Source} {name : Option Text}
    (hread : source.read m.disk = .ok (g, name)) (journal : Option Journal) :
    Completes (fun m =>
      let (r, disk) := source.load journal m.now m.disk
      (r, { m with disk })) m fun g' m' => g' = g ∧ ∃ disk, m' = { m with disk } := by
  obtain ⟨disk, hload | ⟨e, hload⟩⟩ := load_cases hread journal m.now
  · simp only [Completes, hload]
    exact ⟨trivial, disk, rfl⟩
  · simp only [Completes, hload]
    exact ⟨e, rfl⟩

theorem completes_startUp {settings : Settings} {name : Option Text} {q : Inquiry}
    (hq : q = inquiryFor a g settings.start q.asked q.durations)
    (hsettings : settingsFor a m.disk = .ok settings)
    (hread : (sourceFor settings).read m.disk = .ok (g, name))
    (ht : a.measure = true → m.durations.IsTimely) :
    Completes (startUp a) m fun s m' => s.grammar = g ∧ s.start = settings.start ∧
      Serving g [] m' ∧ m'.durations = q.elapsed m.durations ∧
      m'.output = m.output ++ render (q.measured loadingName m.durations) := by
  have hmeasure : q.measure = a.measure := congrArg Inquiry.measure hq
  unfold startUp
  refine completes_get.bind ?_
  rintro _ _ ⟨rfl, rfl⟩
  rw [hsettings]
  refine (completes_load hread (some (journalFor settings))).bind ?_
  rintro _ m₁ ⟨rfl, disk, rfl⟩
  by_cases hm : a.measure = true
  · rw [if_pos hm]
    refine (completes_sayMeasured (m := { m with disk }) (ht hm) loadingName).bind ?_
    rintro _ m₂ rfl
    refine ⟨rfl, rfl, serving_new _ settings.guarded rfl, ?_, ?_⟩
    · simp [Inquiry.elapsed, hmeasure, hm]
    · simp [Inquiry.measured, hmeasure, hm]
  · rw [if_neg hm]
    refine ⟨rfl, rfl, serving_new _ settings.guarded rfl, ?_, ?_⟩
    · simp [Inquiry.elapsed, hmeasure, hm]
    · simp [Inquiry.measured, hmeasure, hm]

/-- The machine at the start of a run. -/
def Environment.start (env : Environment) : Machine where
  disk := env.disk
  now := env.now
  durations := env.durations
  store := { number := 1, guarded := false }

theorem run_eq_execute {argv : List Text} (hargs : read argv = .ok a) (env : Environment) :
    (run argv env).status = (execute a env.entropy env.start).1 ∧
      (run argv env).output = (execute a env.entropy env.start).2.output := by
  unfold run
  rw [hargs]
  exact ⟨rfl, rfl⟩

/-- **A run whose settings and whose grammar are accepted follows its transcript**, unless it is
broken off because the disk refuses an entry in the journal. -/
theorem run_of_accepted {argv : List Text} {env : Environment} {settings : Settings}
    {name : Option Text} {asked : List Text} (hargs : read argv = .ok a)
    (hsettings : settingsFor a env.disk = .ok settings)
    (hread : (sourceFor settings).read env.disk = .ok (g, name))
    (hwords : wordsFor a env.entropy = .ok asked)
    (ht : a.measure = true → env.durations.IsTimely) :
    (∃ e, (run argv env).status = .error (.disk e)) ∨
      (run argv env).status = .ok 0 ∧ (run argv env).output
        = render (inquiryFor a g settings.start asked env.durations).transcript := by
  obtain ⟨hstatus, houtput⟩ := run_eq_execute hargs env
  rw [hstatus, houtput]
  set q := inquiryFor a g settings.start asked env.durations with hq
  have hstart := completes_startUp (m := env.start) hq hsettings hread ht
  unfold Completes at hstart
  unfold execute
  split at hstart
  · next s m₁ hact =>
    obtain ⟨rfl, hstart, hserving, hdurations, hprinted⟩ := hstart
    rw [hact]
    have hq' : q = inquiryFor a s.grammar s.start q.asked q.durations := by rw [hstart]; exact hq
    have ht₁ : a.measure = true → m₁.durations.IsTimely := by
      intro hm
      rw [hdurations]
      unfold Inquiry.elapsed
      split
      · exact (ht hm).next
      · exact ht hm
    have hdecide := completes_decideAll hq' hserving ht₁ hwords
    unfold Completes at hdecide
    dsimp only
    split at hdecide
    · next m₂ hact₂ =>
      rw [hact₂]
      refine .inr ⟨rfl, ?_⟩
      show m₂.output = _
      rw [hdecide, hprinted, hdurations]
      show [] ++ render (q.measured loadingName q.durations)
        ++ render (q.opening ++ q.answers (q.elapsed q.durations) q.decided ++ q.closing) = _
      simp only [Inquiry.transcript, render_append, List.nil_append, List.append_assoc]
    · next f m₂ hact₂ =>
      obtain ⟨e, rfl⟩ := hdecide
      rw [hact₂]
      exact .inl ⟨e, rfl⟩
  · next f m₁ hact =>
    obtain ⟨e, rfl⟩ := hstart
    rw [hact]
    exact .inl ⟨e, rfl⟩

end CommandLine
end Pyramid
