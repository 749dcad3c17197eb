import Mathlib
import Pyramid.Proofs.CommandLine.Printing

/-!
# Answers do not depend on each other

All words of a run share one store, so almost every node that is printed was made for another word.
None of this can be seen: what a run prints is told by the words, the start variable, the
productions and the two switches for listings and measurements (`Started.run_eq`). The journal and
the guard of the store have no part in it.

`run_independent` compares two runs.
-/

namespace Pyramid.CommandLine

open Text

/-- The words that are asked for when none are to be generated. -/
def Arguments.asked (a : Arguments) : List Text := a.words ++ if a.samples then sampleWords else []

theorem wordsFor_of_generate {a : Arguments} (h : a.generate = 0) (entropy : Int) :
    wordsFor a entropy = .ok a.asked := by
  unfold wordsFor
  rw [if_pos h]
  show Except.ok (a.words ++ (if a.samples then sampleWords else []) ++ []) = _
  rw [List.append_nil]
  rfl

/-- A run that gets past its start, generates no words and is refused no entry in its journal. -/
structure Started (argv : List Text) (env : Environment) (a : Arguments) (settings : Settings)
    (g : Grammar) : Prop where
  args : read argv = .ok a
  generate : a.generate = 0
  accepted : settingsFor a env.disk = .ok settings
  loaded : ∃ name, (sourceFor settings).read env.disk = .ok (g, name)
  log : ∀ e, (run argv env).status ≠ .error (.disk e)
  clock : a.measure = true → env.durations.IsTimely

/-- What the transcript of a run depends on. -/
def inquiry (env : Environment) (a : Arguments) (settings : Settings) (g : Grammar) : Inquiry :=
  inquiryFor a g settings.start a.asked env.durations

variable {argv argv' : List Text} {env env' : Environment} {a a' : Arguments}
  {settings settings' : Settings} {g g' : Grammar}

theorem Started.run_eq (h : Started argv env a settings g) :
    (run argv env).status = .ok 0 ∧
      (run argv env).output = render (inquiry env a settings g).transcript := by
  obtain ⟨name, hread⟩ := h.loaded
  have hwords := wordsFor_of_generate h.generate env.entropy
  rcases run_of_accepted h.args h.accepted hread hwords h.clock with ⟨e, he⟩ | hrun
  · exact absurd he (h.log e)
  · exact hrun

/-- What is printed about a word in a run without measurements. -/
def blockOf (g : Grammar) (start : Text) (derivations : Bool) (word : Text) : Text :=
  render (wordParagraphs g start derivations word)

/-- **Two runs, side by side.** The first five parts are about runs as they stand, the last two
about what a switch adds.

A run that gets past its start ends well and prints its transcript; without measurements that is the
notice, if no words were given, one block for each word in order, the rule and the summary. A block
depends on the word, the set of productions, the start variable and the switch for listings. If the
words of one run are those of the other in another order, so are the blocks, and the summary is the
same. Two runs that agree in words, switches, start variable and productions, and if they measure in
durations, print the same, whatever their journals, stores, disks and hours of the day are.

With measurements a run prints the transcript without them and measurements in between; with
listings, the transcript without them and listings in between. -/
theorem run_independent (h : Started argv env a settings g)
    (h' : Started argv' env' a' settings' g') :
    let q := inquiry env a settings g
    let q' := inquiry env' a' settings' g'
    ((run argv env).status = .ok 0 ∧ (run argv env).output = render q.transcript) ∧
    (a.measure = false → (run argv env).output
      = (if a.asked = [] then samplesNotice ++ "\n" else [])
        ++ q.decided.flatMap (blockOf g settings.start a.derivations)
        ++ (rule ++ "\n" ++ q.summary ++ "\n")) ∧
    (g.SameProductions g' → ∀ start derivations word,
      blockOf g start derivations word = blockOf g' start derivations word) ∧
    (g' = g → settings'.start = settings.start → a'.derivations = a.derivations →
      q'.decided.Perm q.decided →
      (q'.decided.map (blockOf g' settings'.start a'.derivations)).Perm
          (q.decided.map (blockOf g settings.start a.derivations)) ∧
        q'.summary = q.summary) ∧
    (q.Agrees q' → (run argv' env').output = (run argv env).output) ∧
    (({ q with measure := false } : Inquiry).Agrees q' →
      (run argv' env').output = render (q.transcript.filter (·.kind ≠ .timing))) ∧
    (({ q with derivations := false } : Inquiry).Agrees q' →
      (run argv' env').output = render (q.transcript.filter (·.kind ≠ .listing))) := by
  intro q q'
  obtain ⟨hstatus, houtput⟩ := h.run_eq
  obtain ⟨-, houtput'⟩ := h'.run_eq
  refine ⟨⟨hstatus, houtput⟩, ?_, ?_, ?_, ?_, ?_, ?_⟩
  · intro hm
    rw [houtput, Inquiry.render_transcript hm]
    rfl
  · intro hsame start derivations word
    unfold blockOf
    rw [wordParagraphs_congr hsame]
  · intro hg hstart hderivations hperm
    subst hg
    rw [hstart, hderivations]
    refine ⟨hperm.map _, ?_⟩
    unfold Inquiry.summary
    rw [substrings_perm hperm]
    rfl
  · intro hq
    rw [houtput', houtput, hq.transcript_eq]
  · intro hq
    rw [houtput', hq.transcript_eq, q.filter_timing]
  · intro hq
    rw [houtput', hq.transcript_eq, q.filter_listing]

/-- An empty disk, and a clock by which everything takes `ns` nanoseconds. -/
def Environment.first (ns : Int) : Environment := ⟨.empty [], ⟨1, 1, 0, 0, 0⟩, ⟨[ns], 0⟩, 0⟩

/-- Three words, one of them empty, decided with measurements, and once more with a full journal in
their place. -/
theorem run_independent_measured :
    (run ["-d", "-m", "abba", "", "ab"] (.first 1500000)).output
        ≠ (run ["-d", "-l", "debug", "abba", "", "ab"] (.first 0)).output ∧
      ∃ q : Inquiry,
        (run ["-d", "-m", "abba", "", "ab"] (.first 1500000)).output = render q.transcript ∧
        (run ["-d", "-l", "debug", "abba", "", "ab"] (.first 0)).output
          = render (q.transcript.filter (·.kind ≠ .timing)) := by
  obtain ⟨g, hg⟩ : ∃ g,
      (sourceFor {}).read (.empty []) = .ok (g, some "resource:palindromes.txt") := ⟨_, rfl⟩
  have h : Started ["-d", "-m", "abba", "", "ab"] (.first 1500000)
      { words := ["abba", "", "ab"], derivations := true, measure := true } {} g :=
    { args := rfl
      generate := rfl
      accepted := by decide +kernel
      loaded := ⟨_, hg⟩
      log := fun _ => Act.ne_error_of_isOk (by decide +kernel) _
      clock := by
        intro _ ns hns
        rw [List.mem_singleton.mp hns]
        decide +kernel }
  have h' : Started ["-d", "-l", "debug", "abba", "", "ab"] (.first 0)
      { words := ["abba", "", "ab"], derivations := true, level := .text "debug" }
      { level := .debug } g :=
    { args := rfl
      generate := rfl
      accepted := by decide +kernel
      loaded := ⟨_, hg⟩
      log := fun _ => Act.ne_error_of_isOk (by decide +kernel) _
      clock := fun hm => absurd hm Bool.false_ne_true }
  obtain ⟨⟨-, houtput⟩, -, -, -, -, hmeasured, -⟩ := run_independent h h'
  exact ⟨by decide +kernel, _, houtput, hmeasured ⟨rfl, fun hm => absurd hm Bool.false_ne_true⟩⟩

end Pyramid.CommandLine
