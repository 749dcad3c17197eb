import Mathlib
import Pyramid.Proofs.Chart.Build
import Pyramid.Proofs.Chart.Shape

/-!
# Builds that share a store

Several builds may be under way on one store. A request is then two steps: the build looks the text
up, and if it has found nothing it makes the node from its own rows and puts it into the store,
whatever the store has for the text by then. Between any two steps other builds may take theirs, new
builds may begin, and the store may be cleared. `Pool.run` carries out such moves in any order.

Of what a coherent store promises nothing is left: the nodes that a node was combined from may be
overwritten or gone, and one text may have many nodes. But every node in the store and in the rows
of a build stays sound, and no step can change that (`Stage.step_sound`, `Pool.Inv.move`). So a
build never finds its chains out of balance, and whenever it is finished its chart is the one that
it would have grown alone (`Pool.agrees_alone`).
-/

namespace Pyramid

open Text

/-! ## A request in two steps -/

namespace Store

/-- The second half of a request: makes the node and puts it into the store, over any other node. -/
def fill (st : Store) (text : Text) (make : Stamp → Except Failure Node) :
    Except Failure Node × Store :=
  match make st.nextStamp with
  | .error f => (.error f, st)
  | .ok n => if n.text = text then (.ok n, st.take n) else (.error (.foreignNode n.text text), st)

theorem obtain_of_present {st : Store} {text : Text} {n : Node} (h : st.get? text = some n)
    (make : Stamp → Except Failure Node) :
    st.obtain text make = (.ok n, { st with hits := st.hits + 1 }) := by
  unfold obtain
  rw [h]

theorem obtain_of_absent {st : Store} {text : Text} (h : st.get? text = none)
    (make : Stamp → Except Failure Node) : st.obtain text make = st.fill text make := by
  unfold obtain
  rw [h]
  rfl

end Store

/-- Where a build stands between two steps. -/
inductive Stage (α : Type) where
  | ready (rest : Build α)
  /-- A text was looked up in vain; its node is to be made. -/
  | missed (text : Text) (make : Stamp → Except Failure Node) (next : Node → Build α)

namespace Stage

variable {α : Type}

/-- What is left to do, a request that is half done being still to do. -/
def rest : Stage α → Build α
  | .ready rest => rest
  | .missed text make next => .request text make next

/-- The next step of a build, on the store as it is found. -/
def step : Stage α → Store → Stage α × Store
  | .ready (.request text make next), st =>
    match st.get? text with
    | some n => (.ready (next n), { st with hits := st.hits + 1 })
    | none => (.missed text make next, st)
  | .missed text make next, st =>
    match st.fill text make with
    | (.ok n, st) => (.ready (next n), st)
    | (.error f, st) => (.ready (.fail f), st)
  | .ready (.note _ _ next), st => (.ready next, st)
  | .ready (.done a), st => (.ready (.done a), st)
  | .ready (.fail f), st => (.ready (.fail f), st)

theorem step_of_present {st : Store} {text : Text} {n : Node} (h : st.get? text = some n)
    (make : Stamp → Except Failure Node) (next : Node → Build α) :
    step (.ready (.request text make next)) st
      = (.ready (next n), { st with hits := st.hits + 1 }) := by
  simp only [step, h]

theorem step_of_absent {st : Store} {text : Text} (h : st.get? text = none)
    (make : Stamp → Except Failure Node) (next : Node → Build α) :
    step (.ready (.request text make next)) st = (.missed text make next, st) := by
  simp only [step, h]

theorem step_of_fill {st st' : Store} {text : Text} {make : Stamp → Except Failure Node} {n : Node}
    (h : st.fill text make = (.ok n, st')) (next : Node → Build α) :
    step (.missed text make next) st = (.ready (next n), st') := by
  simp only [step, h]

/-- Several steps of one build, without anything between them. -/
def steps : Nat → Stage α → Store → Stage α × Store
  | 0, stage, st => (stage, st)
  | k + 1, stage, st => steps k (stage.step st).1 (stage.step st).2

theorem exists_steps_of_obtain {s : Solver} {b b' : Bench} {text : Text}
    {make : Stamp → Except Failure Node} {n : Node} (next : Node → Build α)
    (h : s.obtain text make b = (.ok n, b')) :
    ∃ k, steps k (.ready (.request text make next)) b.store = (.ready (next n), b'.store) := by
  unfold Solver.obtain at h
  cases hget : b.store.get? text with
  | some m =>
    rw [Store.obtain_of_present hget] at h
    cases h
    refine ⟨1, ?_⟩
    rw [steps, step_of_present hget, steps]
  | none =>
    rw [Store.obtain_of_absent hget] at h
    cases hfill : b.store.fill text make with
    | mk r st =>
      rw [hfill] at h
      cases r with
      | ok m =>
        cases h
        refine ⟨2, ?_⟩
        rw [steps, step_of_absent hget, steps, step_of_fill hfill, steps]
      | error f =>
        -- A failure is passed on, after an entry in the journal or without one.
        cases f with
        | fault f =>
          simp only at h
          unfold Journal.raise at h
          split at h <;> cases h
        | _ => cases h

theorem steps_add (j k : Nat) (stage : Stage α) (st : Store) :
    steps (j + k) stage st = steps k (steps j stage st).1 (steps j stage st).2 := by
  induction j generalizing stage st with
  | zero => rw [Nat.zero_add, steps]
  | succ j ih => rw [Nat.succ_add, steps, steps, ih]

/-- **The steps of a build that nobody disturbs carry it out.** -/
theorem exists_steps_of_run {s : Solver} {p : Build α} {b b' : Bench} {a : α}
    (h : p.run s b = (.ok a, b')) :
    ∃ k, steps k (.ready p) b.store = (.ready (.done a), b'.store) := by
  induction p generalizing b with
  | done a' =>
    cases h
    exact ⟨0, rfl⟩
  | fail f => cases h
  | request text make next ih =>
    rw [Build.run] at h
    obtain ⟨n, b₁, hobtain, h⟩ := Act.exists_of_bind_eq_ok h
    obtain ⟨j, hj⟩ := exists_steps_of_obtain next hobtain
    obtain ⟨k, hk⟩ := ih n h
    exact ⟨j + k, by rw [steps_add, hj, hk]⟩
  | note severity message next ih =>
    rw [Build.run] at h
    rcases Solver.note_cases s severity message b with ⟨disk, hnote⟩ | ⟨e, disk, hnote⟩
    · rw [Act.bind_of_ok hnote] at h
      obtain ⟨k, hk⟩ := ih h
      exact ⟨1 + k, by rw [steps_add]; exact hk⟩
    · rw [Act.bind_of_error hnote] at h
      cases h

end Stage

/-! ## Steps keep nodes sound -/

namespace Store

variable {g : Grammar} {st : Store} {n : Node}

/-- Every node of the store is sound for the text it is kept under. -/
def Sound (g : Grammar) (st : Store) : Prop := ∀ ⦃t n⦄, st.get? t = some n → g.Sound t n

theorem Sound.take (h : st.Sound g) (hn : g.Sound n.text n) : (st.take n).Sound g := by
  intro t m hm
  rw [get?_take] at hm
  by_cases he : n.text = t
  · rw [if_pos he] at hm
    cases hm
    rwa [← he]
  · rw [if_neg he] at hm
    exact h hm

theorem sound_clear (g : Grammar) (st : Store) : st.clear.Sound g := by
  intro t n hn
  rw [get?_clear] at hn
  cases hn

/-- What is linked to nodes of a coherent store is sound if the store is exact. -/
theorem Coherent.sound (hc : st.Coherent) (he : st.Exact g) : st.Sound g := by
  intro t n hn
  have hlink := hc hn
  have hrecords : g.Records t n := ⟨hlink.text_eq, he hn⟩
  have hpos : 0 < t.length := List.length_pos_iff.mpr hlink.ne_nil
  by_cases h2 : 2 ≤ t.length
  · obtain ⟨l, hl, hgetl⟩ := hlink.left h2
    obtain ⟨r, hr, hgetr⟩ := hlink.right h2
    exact .combined hrecords h2 hl hr (hc.sound he hgetl) (hc.sound he hgetr)
  · have h1 : t.length = 1 := by omega
    obtain ⟨c, rfl⟩ := List.length_eq_one_iff.mp h1
    exact .single hrecords (hlink.single h1).1 (hlink.single h1).2
termination_by t => t.length

end Store

namespace Stage

variable {α : Type} {g : Grammar} {E : Failure → Prop} {Q : α → Prop}

/-- **A step leaves sound nodes behind it and a safe build before it**, whatever sound nodes it
finds in the store. -/
theorem step_sound {stage : Stage α} {st : Store} (hst : st.Sound g)
    (h : stage.rest.Safe g E Q) :
    (stage.step st).2.Sound g ∧ (stage.step st).1.rest.Safe g E Q := by
  cases stage with
  | ready p =>
    cases p with
    | done a => exact ⟨hst, h⟩
    | fail f => exact ⟨hst, h⟩
    | note severity message next => exact ⟨hst, h⟩
    | request text make next =>
      cases hget : st.get? text with
      | some n =>
        rw [step_of_present hget]
        exact ⟨hst, h.2 n (hst hget)⟩
      | none =>
        rw [step_of_absent hget]
        exact ⟨hst, h⟩
  | missed text make next =>
    -- The build makes the node itself, so it does not matter what others have put there.
    obtain ⟨n, hmake, hn⟩ := h.1 st.nextStamp
    have htext : n.text = text := hn.records.text_eq
    have hfill : st.fill text make = (.ok n, st.take n) := by
      unfold Store.fill
      rw [hmake]
      exact if_pos htext
    rw [step_of_fill hfill]
    refine ⟨hst.take ?_, h.2 n hn⟩
    rwa [htext]

end Stage

/-! ## Pools -/

/-- A build of the chart of a word, as far as it has come. -/
structure Job where
  word : Text
  stage : Stage (List Row)

namespace Job

def result? (job : Job) : Option (List Row) :=
  match job.stage with
  | .ready (.done rows) => some rows
  | _ => none

/-- The failure that the build has ended with, if it has. -/
def failure? (job : Job) : Option Failure :=
  match job.stage with
  | .ready (.fail f) => some f
  | _ => none

theorem rest_of_result? {job : Job} {rows : List Row} (h : job.result? = some rows) :
    job.stage.rest = .done rows := by
  unfold result? at h
  split at h
  · next hstage =>
    cases h
    rw [hstage]
    rfl
  · cases h

theorem rest_of_failure? {job : Job} {f : Failure} (h : job.failure? = some f) :
    job.stage.rest = .fail f := by
  unfold failure? at h
  split at h
  · next hstage =>
    cases h
    rw [hstage]
    rfl
  · cases h

end Job

/-- A store and the builds that share it, in the order in which they began. -/
structure Pool where
  store : Store
  jobs : List Job

/-- What can happen next in a pool. -/
inductive Move where
  /-- A solver begins to chart a word. -/
  | start (s : Solver) (word : Text)
  /-- A build takes its next step. -/
  | advance (i : Nat)
  /-- A build is refused an entry in its journal, if it is about to make one. -/
  | refuse (i : Nat) (e : Disk.Error)
  | clear

namespace Job

def advance (job : Job) (st : Store) : Job × Store :=
  ({ job with stage := (job.stage.step st).1 }, (job.stage.step st).2)

def refuse (e : Disk.Error) (job : Job) (st : Store) : Job × Store :=
  match job.stage with
  | .ready (.note _ _ _) => ({ job with stage := .ready (.fail (.disk e)) }, st)
  | _ => (job, st)

end Job

namespace Pool

/-- Something happens to one of the builds and to the store. -/
def update (p : Pool) (i : Nat) (f : Job → Store → Job × Store) : Pool :=
  match p.jobs[i]? with
  | some job => ⟨(f job p.store).2, p.jobs.set i (f job p.store).1⟩
  | none => p

/-- The pool after a move. -/
def move (p : Pool) : Move → Pool
  | .start s word => { p with jobs := p.jobs ++ [⟨word, .ready (s.grammar.chart word)⟩] }
  | .advance i => p.update i Job.advance
  | .refuse i e => p.update i (Job.refuse e)
  | .clear => { p with store := p.store.clear }

def run (p : Pool) (moves : List Move) : Pool := moves.foldl move p

end Pool

/-- The build is safe: if it has failed, then in a way that `E` admits for its word, and if it is
finished it has a chart of the word. -/
def Job.Safe (g : Grammar) (E : Text → Failure → Prop) (job : Job) : Prop :=
  job.stage.rest.Safe g (E job.word) (g.IsChart job.word)

namespace Pool

structure Inv (g : Grammar) (E : Text → Failure → Prop) (p : Pool) : Prop where
  store : p.store.Sound g
  jobs : ∀ job ∈ p.jobs, job.Safe g E

/-- The moves that keep to the productions of a grammar, and refuse entries only as `E` admits. -/
def Admits (g : Grammar) (E : Text → Failure → Prop) : Move → Prop
  | .start s word => s.grammar.SameProductions g ∧ (word = [] → E word (.fault Solver.emptyWord))
  | .refuse _ e => ∀ word, E word (.disk e)
  | _ => True

variable {g : Grammar} {E : Text → Failure → Prop} {p : Pool}

theorem Inv.update {f : Job → Store → Job × Store} (h : p.Inv g E)
    (hf : ∀ job st, job.Safe g E → st.Sound g → (f job st).1.Safe g E ∧ (f job st).2.Sound g)
    (i : Nat) : (p.update i f).Inv g E := by
  unfold Pool.update
  cases hi : p.jobs[i]? with
  | none => exact h
  | some job =>
    obtain ⟨hjob, hstore⟩ := hf job p.store (h.jobs job (List.mem_of_getElem? hi)) h.store
    refine ⟨hstore, fun other hother => ?_⟩
    rcases List.mem_or_eq_of_mem_set hother with hmem | rfl
    · exact h.jobs other hmem
    · exact hjob

theorem Inv.move {m : Move} (h : p.Inv g E) (hm : Admits g E m) : (p.move m).Inv g E := by
  cases m with
  | start s word =>
    refine ⟨h.store, fun job hjob => ?_⟩
    rcases List.mem_append.mp hjob with hmem | hnew
    · exact h.jobs job hmem
    · obtain rfl := List.mem_singleton.mp hnew
      exact Grammar.safe_chart hm.1 hm.2
  | advance i =>
    refine h.update (fun job st hjob hst => ?_) i
    obtain ⟨hstore, hstage⟩ := Stage.step_sound hst hjob
    exact ⟨hstage, hstore⟩
  | refuse i e =>
    refine h.update (fun job st hjob hst => ?_) i
    unfold Job.refuse
    split
    · exact ⟨hm job.word, hst⟩
    · exact ⟨hjob, hst⟩
  | clear => exact ⟨Store.sound_clear g _, h.jobs⟩

theorem Inv.run {moves : List Move} (h : p.Inv g E) (hmoves : ∀ m ∈ moves, Admits g E m) :
    (p.run moves).Inv g E := by
  induction moves generalizing p with
  | nil => exact h
  | cons m moves ih =>
    exact ih (h.move (hmoves m (by simp))) fun m' hm' => hmoves m' (by simp [hm'])

end Pool

/-- **A build that nobody disturbs is the solver's chart.** If it begins on a store and takes its
steps one after another, it comes to the rows that the solver comes to, and leaves the store as the
solver leaves it. -/
theorem Pool.run_undisturbed {s : Solver} {word : Text} {b b' : Bench} {rows : List Row}
    (h : s.chart word b = (.ok rows, b')) :
    ∃ k, Pool.run ⟨b.store, []⟩ (.start s word :: List.replicate k (.advance 0))
      = ⟨b'.store, [⟨word, .ready (.done rows)⟩]⟩ := by
  have hsteps : ∀ (k : Nat) (stage : Stage (List Row)) (st : Store),
      Pool.run ⟨st, [⟨word, stage⟩]⟩ (List.replicate k (.advance 0))
        = ⟨(stage.steps k st).2, [⟨word, (stage.steps k st).1⟩]⟩ := by
    intro k
    induction k with
    | zero => exact fun _ _ => rfl
    | succ k ih => exact fun stage st => ih (stage.step st).1 (stage.step st).2
  rw [← Solver.run_chart] at h
  obtain ⟨k, hk⟩ := Stage.exists_steps_of_run h
  refine ⟨k, ?_⟩
  show Pool.run ⟨b.store, [⟨word, .ready (s.grammar.chart word)⟩]⟩ _ = _
  rw [hsteps, hk]

/-! ## Charts with the same content -/

/-- The texts and the derivations in the cells of a chart. -/
def contents (rows : List Row) : List (List (Text × SortedSet Derivation)) :=
  rows.map fun row => row.map fun n => (n.text, n.derivations)

theorem map_eq_map_of_forall₂ {α β γ : Type} {R S : α → β → Prop} {f : β → γ} {as : List α}
    {bs cs : List β} (hb : List.Forall₂ R as bs) (hc : List.Forall₂ S as cs)
    (hf : ∀ a b c, R a b → S a c → f b = f c) : bs.map f = cs.map f := by
  induction hb generalizing cs with
  | nil =>
    cases hc
    rfl
  | cons hab _ ih =>
    cases hc with
    | cons hac hrest => rw [List.map_cons, List.map_cons, hf _ _ _ hab hac, ih hrest]

/-- Sound rows have the content of rows that an exact store holds. -/
theorem Grammar.SoundRows.contents_eq {g : Grammar} {word : Text} {st : Store} {heights : List Nat}
    {rows rows' : List Row} (h : g.SoundRows word heights rows) (hc : st.Coherent)
    (he : st.Exact g) (h' : st.HoldsRows word heights rows') :
    contents rows = contents rows' := by
  refine map_eq_map_of_forall₂ h h' ?_
  intro k row row' hrow hrow'
  refine map_eq_map_of_forall₂ hrow hrow'.forall₂ ?_
  intro t n m hn hm
  exact hn.records.content_eq ⟨(hc hm).text_eq, he hm⟩

/-- **Answers do not depend on how builds interleave.** Solvers with the productions of one grammar
chart words on one store, taking turns in any order, beginning at any time, while the store is
cleared at any time.

A build fails only if its word is empty or its journal is refused an entry; so it never finds its
chains out of balance, and no node is turned away. A build that is finished has in all its cells the
texts and the derivations of the chart that a solver grows of the word alone, on an empty store; and
such a chart is one of the ways in which builds can take turns. -/
theorem Pool.agrees_alone {g : Grammar} {st : Store} {moves : List Move}
    (hst : st.Reachable (·.SameProductions g))
    (hmoves : ∀ s word, .start s word ∈ moves → s.grammar.SameProductions g) :
    (∀ job ∈ (Pool.run ⟨st, []⟩ moves).jobs,
      (∀ f, job.failure? = some f → (∃ i e, .refuse i e ∈ moves ∧ f = .disk e) ∨
        (job.word = [] ∧ f = .fault Solver.emptyWord)) ∧
      ∀ rows, job.result? = some rows → ∀ (s : Solver) (b : Bench),
        s.grammar.SameProductions g → (∀ t, b.store.get? t = none) →
        (∀ e, (s.chart job.word b).1 ≠ .error (.disk e)) →
        ∃ alone, (s.chart job.word b).1 = .ok alone ∧ contents rows = contents alone) ∧
    ∀ (s : Solver) (b b' : Bench) (word : Text) (rows : List Row),
      s.chart word b = (.ok rows, b') →
      ∃ k, Pool.run ⟨b.store, []⟩ (.start s word :: List.replicate k (.advance 0))
        = ⟨b'.store, [⟨word, .ready (.done rows)⟩]⟩ := by
  refine ⟨?_, fun s b b' word rows h => Pool.run_undisturbed h⟩
  let E : Text → Failure → Prop := fun word f => (∃ i e, .refuse i e ∈ moves ∧ f = .disk e) ∨
    (word = [] ∧ f = .fault Solver.emptyWord)
  have hadmits : ∀ m ∈ moves, Admits g E m := by
    intro m hm
    cases m with
    | start s word => exact ⟨hmoves s word hm, fun hw => .inr ⟨hw, rfl⟩⟩
    | refuse i e => exact fun _ => .inl ⟨i, e, hm, rfl⟩
    | advance | clear => trivial
  have hstart : Inv g E ⟨st, []⟩ := ⟨hst.coherent.sound hst.exact, by simp⟩
  have hinv := hstart.run hadmits
  intro job hjob
  have hsafe : job.stage.rest.Safe g (E job.word) (g.IsChart job.word) := hinv.jobs job hjob
  refine ⟨?_, ?_⟩
  · intro f hf
    rw [Job.rest_of_failure? hf] at hsafe
    exact hsafe
  · intro rows hrows s b hs hempty hlog
    rw [Job.rest_of_result? hrows] at hsafe
    have hc := Store.coherent_of_empty hempty
    have hchart := Solver.delivers_chart (P := (·.SameProductions g)) hs hc hsafe.ne_nil
    obtain ⟨ts, alone, hok, hreq, -, halone⟩ := hchart.exists_ok hlog
    refine ⟨alone, hok, ?_⟩
    exact hsafe.sound.contents_eq (hreq.coherent hc) (hreq.exact hc (Store.exact_of_empty hempty))
      halone

/-- Two builds of one word. Both look for its letter and find nothing, so the second overwrites what
the first has made; then the store is cleared, and the first combines nodes that are no longer
there. -/
def Pool.turns : List Move :=
  let s := Solver.quiet .doubling
  [.start s "aa", .start s "aa", .advance 0, .advance 1, .advance 0, .advance 1, .advance 0, .clear,
    .advance 0, .advance 0, .advance 0]

/-- The first of two such builds is finished, with the chart that it would have grown alone. -/
theorem Pool.agrees_alone_turns :
    ∃ job ∈ (Pool.run ⟨Bench.first.store, []⟩ Pool.turns).jobs, ∃ rows, job.result? = some rows ∧
      ∃ alone, ((Solver.quiet .doubling).chart "aa" .first).1 = .ok alone ∧
        contents rows = contents alone := by
  have hst : Bench.first.store.Reachable (·.SameProductions .doubling) := .new 1 false
  have hmoves : ∀ s word, .start s word ∈ Pool.turns → s.grammar.SameProductions .doubling := by
    intro s word hs
    obtain ⟨rfl, rfl⟩ : s = Solver.quiet .doubling ∧ word = "aa" := by
      simpa [Pool.turns] using hs
    exact .refl _
  have hword : (Pool.run ⟨Bench.first.store, []⟩ Pool.turns).jobs[0]?.map (·.word)
      = some ("aa" : Text) := by
    decide +kernel
  have hdone : ((Pool.run ⟨Bench.first.store, []⟩ Pool.turns).jobs[0]?.bind (·.result?)).isSome
      = true := by
    decide +kernel
  have hok : ((Solver.quiet .doubling).chart "aa" .first).1.isOk = true := by decide +kernel
  obtain ⟨job, hjob, hjobword⟩ := Option.map_eq_some_iff.mp hword
  rw [hjob] at hdone
  obtain ⟨rows, hrows⟩ := Option.isSome_iff_exists.mp hdone
  have hmem := List.mem_of_getElem? hjob
  obtain ⟨-, hfinished⟩ := (Pool.agrees_alone hst hmoves).1 job hmem
  refine ⟨job, hmem, rows, hrows, ?_⟩
  rw [← hjobword]
  exact hfinished rows hrows _ .first (.refl _) (fun _ => rfl)
    (hjobword ▸ fun _ => Act.ne_error_of_isOk hok _)

end Pyramid
