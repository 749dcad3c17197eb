import Mathlib
import Pyramid.Journal
import Pyramid.Proofs.Disk.Paths

/-!
# What stands in a journal

Many writers share a journal: each is a child of another, and all of them enter messages and raise
failures as they like (`Journal.Call`). `Journal.entries` and `Journal.errors` say what should then
stand in the two files, without the disk: the text of every call that is admitted, in order, and of
those the errors.

* The two files are different ones in the same directory, whatever the journal is called
  (`location_ne_errorLocation`).
* One call adds its text to the file of all messages, to that of errors as well, or to none
  (`Call.receives_record`), and fails as it has to (`Call.perform_eq`).
* So a run adds the texts of its calls (`receives_run`), and what the two files then hold is told
  apart by their locations (`linesFor_location`, `linesFor_errorLocation`).

`run_appends` puts this together.
-/

namespace Pyramid.Journal

open Text

variable {j : Journal} {d d' : Disk}

/-! ## Calls -/

/-- What a writer asks of a journal. -/
inductive Request where
  /-- To enter a message. -/
  | enter (severity : Severity) (message : Text)
  /-- To enter a failure and to fail with it. -/
  | raise (f : Failure)

/-- A request, the time at which it is made, and who makes it: the tags of the children that lead to
the writer from the journal on. -/
structure Call where
  chain : List Text
  now : Moment
  request : Request

namespace Call

/-- The journal as the caller has it. -/
def writer (c : Call) (j : Journal) : Journal := c.chain.foldl child j

def severity (c : Call) : Severity :=
  match c.request with
  | .enter severity _ => severity
  | .raise _ => .error

def message (c : Call) : Text :=
  match c.request with
  | .enter _ message => message
  | .raise f => f.message

/-- How the call ends if the disk takes what is entered. -/
def outcome (c : Call) : Except Failure Unit :=
  match c.request with
  | .enter _ _ => .ok ()
  | .raise f => .error f

/-- The call carried out. -/
def perform (c : Call) (j : Journal) (d : Disk) : Except Failure Unit × Disk :=
  match c.request with
  | .enter severity message =>
    match (c.writer j).record c.now severity message d with
    | (.error e, d) => (.error (.disk e), d)
    | (.ok (), d) => (.ok (), d)
  | .raise f => (c.writer j).raise c.now f d

/-- The level of the call is at least that of the caller's journal. -/
def IsAdmitted (c : Call) (j : Journal) : Prop := (c.writer j).level.rank ≤ c.severity.level.rank

instance (c : Call) (j : Journal) : Decidable (c.IsAdmitted j) := Nat.decLe _ _

/-- The text that the call adds to a file: a header and the message. -/
def text (c : Call) (j : Journal) : Text :=
  c.now.text ++ ", " ++ c.severity.mark ++ ", " ++ (c.writer j).tag ++ ": " ++ c.message

/-- The lines that the call adds, each with the file for which it is meant. -/
def lines (c : Call) (j : Journal) : List (Path × Text) :=
  if c.IsAdmitted j then
    (j.path, c.text j) :: if c.severity = .error then [(j.errorPath, c.text j)] else []
  else []

end Call

/-! ## Runs -/

/-- Carries out calls one after another. A call that fails does not keep the others from being
made. -/
def run (j : Journal) : List Call → Disk → List (Except Failure Unit) × Disk
  | [], d => ([], d)
  | c :: calls, d =>
    let (result, d) := c.perform j d
    let (results, d) := run j calls d
    (result :: results, d)

/-- The disk takes all that is entered. -/
def IsTaken (j : Journal) : List Call → Disk → Prop
  | [], _ => True
  | c :: calls, d =>
    ((c.writer j).record c.now c.severity c.message d).1 = .ok () ∧
      IsTaken j calls (c.perform j d).2

/-- The texts of the calls that are admitted, in order. -/
def entries (j : Journal) (calls : List Call) : List Text :=
  (calls.filter fun c => c.IsAdmitted j).map (·.text j)

/-- The texts of the errors among the calls that are admitted, in order. -/
def errors (j : Journal) (calls : List Call) : List Text :=
  ((calls.filter fun c => c.IsAdmitted j).filter fun c => c.severity = .error).map (·.text j)

/-- The journal with another level. -/
def atLevel (j : Journal) (l : Level) : Journal := { j with level := l }

/-- Where the file of all messages is. -/
def location (j : Journal) (d : Disk) : Location := d.locationOf j.path.text

/-- Where the file of errors is. -/
def errorLocation (j : Journal) (d : Disk) : Location := d.locationOf j.errorPath.text

/-! ## The two files -/

theorem isShort_path (j : Journal) : j.path.IsShort :=
  (Path.isShort_ofText _).append (Path.isShort_ofText _)

theorem isShort_errorPath (j : Journal) : j.errorPath.IsShort :=
  (Path.isShort_ofText _).append (Path.isShort_ofText _)

/-- **Errors have a file of their own.** -/
theorem location_ne_errorLocation (j : Journal) (d : Disk) : j.location d ≠ j.errorLocation d := by
  obtain ⟨anchor, names, stem, hpaths⟩ :=
    Path.exists_append_ofText (Path.ofText j.directory) j.file
  have hlog : Path.IsEnding ".log" := ⟨by decide, by decide⟩
  have herr : Path.IsEnding "_err.log" := ⟨by decide, by decide⟩
  exact d.locationOf_ne j.isShort_path j.isShort_errorPath (hpaths _ hlog) (hpaths _ herr) hlog herr
    (by decide)

/-! ## One call -/

/-- Children write to the same files and take the same messages, each with its own tag. -/
theorem foldl_child (j : Journal) (chain : List Text) :
    chain.foldl child j = { j with tag := chain.getLastD j.tag } := by
  induction chain generalizing j with
  | nil => rfl
  | cons tag chain ih =>
    rw [List.foldl_cons, ih, List.getLastD_cons]
    rfl

namespace Call

variable {c : Call}

theorem writer_eq (c : Call) (j : Journal) :
    c.writer j = { j with tag := c.chain.getLastD j.tag } := foldl_child j c.chain

theorem path_writer (c : Call) (j : Journal) : (c.writer j).path = j.path := by
  rw [writer_eq]
  rfl

theorem errorPath_writer (c : Call) (j : Journal) : (c.writer j).errorPath = j.errorPath := by
  rw [writer_eq]
  rfl

theorem isAdmitted_iff : c.IsAdmitted j ↔ j.level.rank ≤ c.severity.level.rank := by
  unfold IsAdmitted
  rw [writer_eq]

theorem takes_writer : (c.writer j).takes c.severity.level = decide (c.IsAdmitted j) := rfl

theorem line_writer : (c.writer j).line c.now c.severity c.message = c.text j := rfl

/-- **A call adds its text to the files for which it is meant.** -/
theorem receives_record
    (h : (c.writer j).record c.now c.severity c.message d = (.ok (), d')) :
    d.Receives (c.lines j) d' := by
  unfold record at h
  rw [takes_writer, line_writer, path_writer, errorPath_writer] at h
  unfold lines
  by_cases hadmitted : c.IsAdmitted j
  · rw [if_pos (decide_eq_true hadmitted)] at h
    rw [if_pos hadmitted]
    cases hfirst : Disk.appendLine j.path (c.text j) d with
    | mk r between =>
      rw [hfirst] at h
      cases r with
      | error e => cases h
      | ok u =>
        have hlog := Disk.Receives.of_appendLine hfirst
        by_cases herror : c.severity = .error
        · simp only [if_pos herror] at h ⊢
          exact hlog.append (.of_appendLine h)
        · simp only [if_neg herror] at h ⊢
          cases h
          exact hlog
  · rw [if_neg (by simpa using hadmitted)] at h
    rw [if_neg hadmitted]
    cases h
    exact .nil d

/-- **A call ends as it has to**, if the disk takes what is entered: with the failure that was
raised, or well. -/
theorem perform_eq (h : (c.writer j).record c.now c.severity c.message d = (.ok (), d')) :
    c.perform j d = (c.outcome, d') := by
  obtain ⟨chain, now, request⟩ := c
  cases request with
  | enter severity message =>
    unfold perform outcome
    dsimp only
    rw [show (writer ⟨chain, now, .enter severity message⟩ j).record now severity message d
      = (.ok (), d') from h]
  | raise f =>
    unfold perform outcome raise
    dsimp only
    rw [show (writer ⟨chain, now, .raise f⟩ j).record now .error f.message d = (.ok (), d') from h]

end Call

/-! ## Whole runs -/

/-- **A run adds the lines of its calls and ends as they do.** -/
theorem receives_run {calls : List Call} (h : j.IsTaken calls d) :
    d.Receives (calls.flatMap (·.lines j)) (j.run calls d).2 ∧
      (j.run calls d).1 = calls.map (·.outcome) := by
  induction calls generalizing d with
  | nil => exact ⟨.nil d, rfl⟩
  | cons c calls ih =>
    obtain ⟨hok, hrest⟩ := h
    cases hrecord : (c.writer j).record c.now c.severity c.message d with
    | mk r between =>
      rw [hrecord] at hok
      cases hok
      have hperform := c.perform_eq hrecord
      rw [hperform] at hrest
      obtain ⟨hreceives, houtcomes⟩ := ih hrest
      have hrun : j.run (c :: calls) d
          = (c.outcome :: (j.run calls between).1, (j.run calls between).2) := by
        rw [run, hperform]
      rw [hrun, List.flatMap_cons, List.map_cons]
      exact ⟨(c.receives_record hrecord).append hreceives, by rw [houtcomes]⟩

/-! ## What is in the files -/

namespace Call

variable {c : Call}

theorem linesFor_location (c : Call) (j : Journal) (d : Disk) :
    d.linesFor (j.location d) (c.lines j) = if c.IsAdmitted j then [c.text j] else [] := by
  have hpath : d.locationOf j.path.text = j.location d := rfl
  have herrorPath : d.locationOf j.errorPath.text ≠ j.location d :=
    (j.location_ne_errorLocation d).symm
  unfold lines
  split_ifs with hadmitted herror
  · rw [← List.singleton_append, Disk.linesFor_append, Disk.linesFor_singleton,
      Disk.linesFor_singleton, if_pos hpath, if_neg herrorPath, List.append_nil]
  · rw [Disk.linesFor_singleton, if_pos hpath]
  · rfl

theorem linesFor_errorLocation (c : Call) (j : Journal) (d : Disk) :
    d.linesFor (j.errorLocation d) (c.lines j)
      = if c.IsAdmitted j ∧ c.severity = .error then [c.text j] else [] := by
  have hpath : d.locationOf j.path.text ≠ j.errorLocation d := j.location_ne_errorLocation d
  have herrorPath : d.locationOf j.errorPath.text = j.errorLocation d := rfl
  unfold lines
  by_cases hadmitted : c.IsAdmitted j
  · by_cases herror : c.severity = .error
    · rw [if_pos hadmitted, if_pos herror, if_pos ⟨hadmitted, herror⟩, ← List.singleton_append,
        Disk.linesFor_append, Disk.linesFor_singleton, Disk.linesFor_singleton, if_neg hpath,
        if_pos herrorPath, List.nil_append]
    · rw [if_pos hadmitted, if_neg herror, if_neg (fun h => herror h.2), Disk.linesFor_singleton,
        if_neg hpath]
  · rw [if_neg hadmitted, if_neg (fun h => hadmitted h.1)]
    rfl

theorem path_eq_of_mem_lines {w : Path × Text} (h : w ∈ c.lines j) :
    w.1 = j.path ∨ w.1 = j.errorPath := by
  unfold lines at h
  split_ifs at h with hadmitted herror
  · rcases List.mem_cons.mp h with rfl | h
    · exact .inl rfl
    · exact .inr (congrArg Prod.fst (List.mem_singleton.mp h))
  · exact .inl (congrArg Prod.fst (List.mem_singleton.mp h))
  · cases h

end Call

variable {calls : List Call}

/-- **The file of all messages gets the calls that are admitted.** -/
theorem linesFor_location (j : Journal) (d : Disk) (calls : List Call) :
    d.linesFor (j.location d) (calls.flatMap (·.lines j)) = j.entries calls := by
  induction calls with
  | nil => rfl
  | cons c calls ih =>
    rw [List.flatMap_cons, Disk.linesFor_append, ih, c.linesFor_location]
    unfold entries
    by_cases hadmitted : c.IsAdmitted j
    · rw [if_pos hadmitted, List.filter_cons_of_pos (by simpa using hadmitted), List.map_cons,
        List.singleton_append]
    · rw [if_neg hadmitted, List.filter_cons_of_neg (by simpa using hadmitted), List.nil_append]

/-- **The file of errors gets the errors among them.** -/
theorem linesFor_errorLocation (j : Journal) (d : Disk) (calls : List Call) :
    d.linesFor (j.errorLocation d) (calls.flatMap (·.lines j)) = j.errors calls := by
  induction calls with
  | nil => rfl
  | cons c calls ih =>
    rw [List.flatMap_cons, Disk.linesFor_append, ih, c.linesFor_errorLocation]
    unfold errors
    rw [List.filter_filter, List.filter_filter]
    by_cases hentered : c.IsAdmitted j ∧ c.severity = .error
    · rw [if_pos hentered, List.filter_cons_of_pos (by simpa [and_comm] using hentered),
        List.map_cons, List.singleton_append]
    · rw [if_neg hentered, List.filter_cons_of_neg (by simpa [and_comm] using hentered),
        List.nil_append]

/-- **No other file gets anything.** -/
theorem linesFor_eq_nil {l : Location} (hl : l ≠ j.location d) (hl' : l ≠ j.errorLocation d) :
    d.linesFor l (calls.flatMap (·.lines j)) = [] := by
  unfold Disk.linesFor
  rw [List.map_eq_nil_iff, List.filter_eq_nil_iff]
  intro w hw
  obtain ⟨c, -, hc⟩ := List.mem_flatMap.mp hw
  rw [decide_eq_true_iff]
  rintro rfl
  rcases Call.path_eq_of_mem_lines hc with hpath | hpath
  · exact hl (by rw [hpath]; rfl)
  · exact hl' (by rw [hpath]; rfl)

/-- If nothing is admitted, nothing is written. -/
theorem flatMap_lines_eq_nil (h : j.entries calls = []) : calls.flatMap (·.lines j) = [] := by
  unfold entries at h
  rw [List.map_eq_nil_iff, List.filter_eq_nil_iff] at h
  rw [List.flatMap_eq_nil_iff]
  intro c hc
  exact if_neg (by simpa using h c hc)

/-- Once there are entries, something was written to the path of the journal. -/
theorem exists_path_of_entries (h : j.entries calls ≠ []) :
    ∃ w ∈ calls.flatMap (·.lines j), w.1 = j.path := by
  obtain ⟨line, hline⟩ := List.exists_mem_of_ne_nil _ h
  obtain ⟨c, hc, -⟩ := List.mem_map.mp hline
  obtain ⟨hmem, hadmitted⟩ := List.mem_filter.mp hc
  refine ⟨(j.path, c.text j), List.mem_flatMap.mpr ⟨c, hmem, ?_⟩, rfl⟩
  rw [Call.lines, if_pos (of_decide_eq_true hadmitted)]
  exact List.mem_cons_self

theorem exists_errorPath_of_errors (h : j.errors calls ≠ []) :
    ∃ w ∈ calls.flatMap (·.lines j), w.1 = j.errorPath := by
  obtain ⟨line, hline⟩ := List.exists_mem_of_ne_nil _ h
  obtain ⟨c, hc, -⟩ := List.mem_map.mp hline
  obtain ⟨hc, herror⟩ := List.mem_filter.mp hc
  obtain ⟨hmem, hadmitted⟩ := List.mem_filter.mp hc
  refine ⟨(j.errorPath, c.text j), List.mem_flatMap.mpr ⟨c, hmem, ?_⟩, rfl⟩
  rw [Call.lines, if_pos (of_decide_eq_true hadmitted), if_pos (of_decide_eq_true herror)]
  exact List.mem_cons_of_mem _ List.mem_cons_self

/-! ## Levels -/

/-- The texts are the same at each level. -/
theorem text_atLevel (c : Call) (j : Journal) (l : Level) : c.text (j.atLevel l) = c.text j := by
  unfold Call.text
  rw [Call.writer_eq, Call.writer_eq]
  rfl

theorem isAdmitted_of_atLevel {l : Level} (hl : j.level.rank ≤ l.rank) (c : Call)
    (h : c.IsAdmitted (j.atLevel l)) : c.IsAdmitted j := by
  rw [Call.isAdmitted_iff] at h ⊢
  exact hl.trans h

/-- **A stricter journal has some of the entries**, in the same order. -/
theorem entries_atLevel_sublist {l : Level} (hl : j.level.rank ≤ l.rank) (calls : List Call) :
    ((j.atLevel l).entries calls).Sublist (j.entries calls) := by
  unfold entries
  simp only [text_atLevel]
  refine (List.monotone_filter_right calls fun c hc => ?_).map _
  exact decide_eq_true (isAdmitted_of_atLevel hl c (of_decide_eq_true hc))

theorem errors_atLevel_sublist {l : Level} (hl : j.level.rank ≤ l.rank) (calls : List Call) :
    ((j.atLevel l).errors calls).Sublist (j.errors calls) := by
  unfold errors
  simp only [text_atLevel]
  refine ((List.monotone_filter_right calls fun c hc => ?_).filter _).map _
  exact decide_eq_true (isAdmitted_of_atLevel hl c (of_decide_eq_true hc))

/-! ## The main result -/

/-- Between the two disks the calls were entered in the journal, and nothing else was done. -/
structure Gains (j : Journal) (calls : List Call) (d d' : Disk) : Prop where
  log : d'.file? (j.location d) = Disk.appended (d.file? (j.location d)) (j.entries calls)
  errorLog :
    d'.file? (j.errorLocation d) = Disk.appended (d.file? (j.errorLocation d)) (j.errors calls)
  others : ∀ l, l ≠ j.location d → l ≠ j.errorLocation d → d'.file? l = d.file? l
  /-- Neither a file nor a directory is made for a call that is not admitted. -/
  unchanged : j.entries calls = [] → d' = d
  /-- The paths of the journal lead to the files. -/
  located : j.entries calls ≠ [] → d'.locate j.path.text = .ok (j.location d)
  errorLocated : j.errors calls ≠ [] → d'.locate j.errorPath.text = .ok (j.errorLocation d)

/-- **The files hold what was entered before, and then the calls that are admitted.** -/
theorem gains_run (h : j.IsTaken calls d) : j.Gains calls d (j.run calls d).2 := by
  obtain ⟨hreceives, -⟩ := receives_run h
  constructor
  case log => rw [hreceives.file?_eq, linesFor_location]
  case errorLog => rw [hreceives.file?_eq, linesFor_errorLocation]
  case others =>
    intro l hl hl'
    rw [hreceives.file?_eq, linesFor_eq_nil hl hl', Disk.appended_nil]
  case unchanged => exact fun hnil => hreceives.unchanged (flatMap_lines_eq_nil hnil)
  case located =>
    intro hne
    obtain ⟨w, hw, hpath⟩ := exists_path_of_entries hne
    have hlocated := hreceives.located w hw
    rw [hpath] at hlocated
    exact hlocated
  case errorLocated =>
    intro hne
    obtain ⟨w, hw, hpath⟩ := exists_errorPath_of_errors hne
    have hlocated := hreceives.located w hw
    rw [hpath] at hlocated
    exact hlocated

/-- **A journal is only ever added to.** Whoever makes the calls, and in whichever order: what is
added to the file of all messages are the texts of the calls that are admitted, what is added to the
file of errors are those of the errors among them, and nothing is written or made for any other
call. What is raised is raised at every level, and of two journals on the same files the stricter
one has some of the entries of the other. -/
theorem run_appends (j : Journal) (calls : List Call) (d : Disk) (h : j.IsTaken calls d) :
    j.Gains calls d (j.run calls d).2 ∧
      (j.run calls d).1 = calls.map (·.outcome) ∧
      ∀ l : Level, j.level.rank ≤ l.rank → (j.atLevel l).IsTaken calls d →
        (j.atLevel l).Gains calls d ((j.atLevel l).run calls d).2 ∧
        (j.atLevel l).location d = j.location d ∧
        (j.atLevel l).errorLocation d = j.errorLocation d ∧
        ((j.atLevel l).entries calls).Sublist (j.entries calls) ∧
        ((j.atLevel l).errors calls).Sublist (j.errors calls) := by
  refine ⟨gains_run h, (receives_run h).2, fun l hl hstricter => ?_⟩
  exact ⟨gains_run hstricter, rfl, rfl, entries_atLevel_sublist hl calls,
    errors_atLevel_sublist hl calls⟩

/-- A journal, and calls of its owner, of a child and of a child of that child. -/
def ofThree : Journal × List Call :=
  (⟨"logs", "x", "main", .info⟩,
    [⟨[], ⟨5, 4, 12, 0, 0⟩, .enter .debug "hidden"⟩,
      ⟨["a"], ⟨5, 4, 12, 0, 1⟩, .enter .info "shown"⟩,
      ⟨["a", "b"], ⟨5, 4, 12, 0, 2⟩, .raise (.outside .key "missing")⟩])

theorem run_appends_of_three :
    ofThree.1.IsTaken ofThree.2 (.empty []) ∧
      (ofThree.1.run ofThree.2 (.empty [])).2.file? ["logs", "x.log"]
        = some (Utf8.encode
          "[04/05 12:00:01], INF, a: shown\n[04/05 12:00:02], ERR, b: 'missing'\n") ∧
      (ofThree.1.run ofThree.2 (.empty [])).2.file? ["logs", "x_err.log"]
        = some (Utf8.encode "[04/05 12:00:02], ERR, b: 'missing'\n") ∧
      (ofThree.1.run ofThree.2 (.empty [])).1 = [.ok (), .ok (), .error (.outside .key "missing")] ∧
      (ofThree.1.atLevel .error).IsTaken ofThree.2 (.empty []) ∧
      ((ofThree.1.atLevel .error).run ofThree.2 (.empty [])).2.file? ["logs", "x.log"]
        = some (Utf8.encode "[04/05 12:00:02], ERR, b: 'missing'\n") := by
  have htaken : ofThree.1.IsTaken ofThree.2 (.empty []) := ⟨rfl, rfl, rfl, trivial⟩
  have hstricter : (ofThree.1.atLevel .error).IsTaken ofThree.2 (.empty []) :=
    ⟨rfl, rfl, rfl, trivial⟩
  obtain ⟨hgains, houtcomes, hlevels⟩ := run_appends ofThree.1 ofThree.2 (.empty []) htaken
  obtain ⟨hgains', -⟩ := hlevels .error (by decide) hstricter
  exact ⟨htaken, hgains.log, hgains.errorLog, houtcomes, hstricter, hgains'.log⟩

end Pyramid.Journal
