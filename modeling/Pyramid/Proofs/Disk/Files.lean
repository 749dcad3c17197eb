import Mathlib
import Pyramid.Disk.Basic

/-!
# Files on the disk

A disk is looked at through the files on it (`Disk.file?`) and the directories, which are never
taken away (`Disk.Extends`).

* A path that can be followed leads where its names say (`locate_eq_locationOf`), and still does on
  a disk with more directories (`Extends.locate_eq`).
* Making directories changes no file (`addsDirectories_makeDirectories`).
* Adding a line to a file changes no other file (`Receives.of_appendLine`). Lines are added one
  after the other: what a disk receives first and what it receives then is what it receives in all
  (`Receives.append`).
-/

namespace Pyramid.Disk

variable {d d' d'' : Disk} {loc : Location}

/-! ## Entries -/

theorem entry?_of_ne_nil (d : Disk) (h : loc ≠ []) : d.entry? loc = d.entries[loc]? := by
  cases loc with
  | nil => exact absurd rfl h
  | cons name names => rfl

theorem entry?_put (d : Disk) (h : loc ≠ []) (e : Entry) (l : Location) :
    entry? (d.put loc e) l = if l = loc then some e else d.entry? l := by
  by_cases hl : l = []
  · subst hl
    rw [if_neg (Ne.symm h)]
    rfl
  · rw [entry?_of_ne_nil _ hl, entry?_of_ne_nil _ hl]
    unfold put
    rw [Std.TreeMap.getElem?_insert]
    simp only [Std.LawfulEqOrd.compare_eq_iff_eq]
    by_cases hloc : loc = l
    · rw [if_pos hloc, if_pos hloc.symm]
    · rw [if_neg hloc, if_neg (Ne.symm hloc)]

/-- The bytes of the file at a location, if there is one. -/
def file? (d : Disk) (loc : Location) : Option (List UInt8) :=
  match d.entry? loc with
  | some (.file bytes) => some bytes
  | _ => none

theorem file?_put (d : Disk) (h : loc ≠ []) (bytes : List UInt8) (l : Location) :
    (d.put loc (.file bytes)).file? l = if l = loc then some bytes else d.file? l := by
  unfold file?
  rw [entry?_put d h]
  by_cases hl : l = loc
  · rw [if_pos hl, if_pos hl]
  · rw [if_neg hl, if_neg hl]

/-! ## Directories stay -/

/-- What was a directory still is one, and the working directory is the same. -/
structure Extends (d d' : Disk) : Prop where
  home_eq : d'.home = d.home
  directory : ∀ loc, d.entry? loc = some .directory → entry? d' loc = some .directory

theorem Extends.refl (d : Disk) : d.Extends d := ⟨rfl, fun _ h => h⟩

theorem Extends.trans (h : d.Extends d') (h' : d'.Extends d'') : d.Extends d'' :=
  ⟨h'.home_eq.trans h.home_eq, fun loc hloc => h'.directory loc (h.directory loc hloc)⟩

theorem ne_nil_of_entry?_ne (h : d.entry? loc ≠ some .directory) : loc ≠ [] := by
  rintro rfl
  exact h rfl

/-- An entry may be put where no directory is. -/
theorem extends_put (h : d.entry? loc ≠ some .directory) (e : Entry) : d.Extends (d.put loc e) := by
  refine ⟨rfl, fun l hl => ?_⟩
  rw [entry?_put d (ne_nil_of_entry?_ne h), if_neg]
  · exact hl
  · rintro rfl
    exact h hl

theorem Extends.step_eq (h : d.Extends d') {name : Text} {next : Location}
    (hstep : d.step loc name = .ok next) : d'.step loc name = .ok next := by
  unfold step at hstep ⊢
  cases hentry : d.entry? loc with
  | none =>
    rw [hentry] at hstep
    cases hstep
  | some e =>
    cases e with
    | file bytes =>
      rw [hentry] at hstep
      cases hstep
    | directory =>
      rw [hentry] at hstep
      rw [h.directory loc hentry]
      exact hstep

theorem Extends.walk_eq (h : d.Extends d') {names : List Text} {l : Location}
    (hwalk : d.walk loc names = .ok l) : d'.walk loc names = .ok l := by
  induction names generalizing loc with
  | nil => exact hwalk
  | cons name names ih =>
    rw [walk] at hwalk ⊢
    cases hstep : d.step loc name with
    | error r =>
      rw [hstep] at hwalk
      cases hwalk
    | ok next =>
      rw [hstep] at hwalk
      rw [h.step_eq hstep]
      exact ih hwalk

theorem start_congr (h : d'.home = d.home) (anchor : Anchor) :
    d'.start anchor = d.start anchor := by
  unfold start
  rw [h]

/-- A path that could be followed can be followed still. -/
theorem Extends.locate_eq (h : d.Extends d') {path : Text} (hpath : d.locate path = .ok loc) :
    d'.locate path = .ok loc := by
  unfold locate at hpath ⊢
  cases hflaw : flaw? path with
  | some r =>
    rw [hflaw] at hpath
    cases hpath
  | none =>
    rw [hflaw] at hpath
    rw [start_congr h.home_eq]
    exact h.walk_eq hpath

/-! ## Where paths lead -/

/-- Where one name leads, if it can be followed: up, or to the place of that name. -/
def follow (loc : Location) (name : Text) : Location :=
  if name = ['.', '.'] then loc.dropLast else loc ++ [name]

theorem locationOf_eq (d : Disk) (path : Text) :
    d.locationOf path
      = (Path.ofText path).names.foldl follow (d.start (Path.ofText path).anchor) := rfl

theorem locationOf_congr (h : d'.home = d.home) (path : Text) :
    d'.locationOf path = d.locationOf path := by
  rw [locationOf_eq, locationOf_eq, start_congr h]

theorem step_eq_ok {name : Text} {next : Location} (h : d.step loc name = .ok next) :
    next = if name = [] ∨ name = ['.'] then loc else follow loc name := by
  unfold step at h
  unfold follow
  split at h
  · cases h
  · cases h
  · split_ifs at h ⊢
    · exact (Except.ok.inj h).symm
    · exact (Except.ok.inj h).symm
    · exact (Except.ok.inj h).symm

theorem walk_eq_ok {names : List Text} {l : Location} (h : d.walk loc names = .ok l) :
    l = (names.filter fun n => n ≠ [] ∧ n ≠ ['.']).foldl follow loc := by
  induction names generalizing loc with
  | nil => exact (Except.ok.inj h).symm
  | cons name names ih =>
    rw [walk] at h
    cases hstep : d.step loc name with
    | error r =>
      rw [hstep] at h
      cases h
    | ok next =>
      rw [hstep] at h
      rw [ih h, step_eq_ok hstep]
      by_cases hhere : name = [] ∨ name = ['.']
      · rw [if_pos hhere, List.filter_cons_of_neg (by simpa [or_iff_not_imp_left] using hhere)]
      · rw [if_neg hhere, List.filter_cons_of_pos (by simpa using hhere), List.foldl_cons]

/-- **A path that can be followed leads where its names say.** -/
theorem locate_eq_locationOf {path : Text} (h : d.locate path = .ok loc) :
    loc = d.locationOf path := by
  unfold locate at h
  cases hflaw : flaw? path with
  | some r =>
    rw [hflaw] at h
    cases h
  | none =>
    rw [hflaw] at h
    exact walk_eq_ok h

/-! ## Making directories -/

/-- There may be more directories, but all files are as they were. -/
structure AddsDirectories (d d' : Disk) : Prop extends Extends d d' where
  file?_eq : ∀ loc, d'.file? loc = d.file? loc

theorem AddsDirectories.refl (d : Disk) : d.AddsDirectories d := ⟨.refl d, fun _ => rfl⟩

theorem AddsDirectories.trans (h : d.AddsDirectories d') (h' : d'.AddsDirectories d'') :
    d.AddsDirectories d'' :=
  ⟨h.toExtends.trans h'.toExtends, fun loc => (h'.file?_eq loc).trans (h.file?_eq loc)⟩

theorem addsDirectories_put (h : d.entry? loc = none) :
    d.AddsDirectories (d.put loc .directory) := by
  have hne : d.entry? loc ≠ some .directory := by
    rw [h]
    exact Option.some_ne_none _ ∘ Eq.symm
  refine ⟨extends_put hne _, fun l => ?_⟩
  unfold file?
  rw [entry?_put d (ne_nil_of_entry?_ne hne)]
  by_cases hl : l = loc
  · rw [if_pos hl, hl, h]
  · rw [if_neg hl]

theorem addsDirectories_makeMissing (anchor : Anchor) (passed : List Text) (loc : Location)
    (names : List Text) (d : Disk) :
    d.AddsDirectories (makeMissing anchor passed loc names d).2 := by
  induction names generalizing passed loc d with
  | nil => exact .refl d
  | cons name names ih =>
    rw [makeMissing]
    cases d.step loc name with
    | error r => exact .refl d
    | ok next =>
      cases hentry : d.entry? next with
      | none => simpa only [hentry] using (addsDirectories_put hentry).trans (ih _ next _)
      | some e =>
        cases e with
        | file bytes => simpa only [hentry] using AddsDirectories.refl d
        | directory => simpa only [hentry] using ih _ next d

theorem addsDirectories_makeWay (anchor : Anchor) (whole : Text) (passed : List Text)
    (loc : Location) (names : List Text) (d : Disk) :
    d.AddsDirectories (makeWay anchor whole passed loc names d).2 := by
  induction names generalizing passed loc with
  | nil => exact .refl d
  | cons name names ih =>
    rw [makeWay]
    cases d.step loc name with
    | error r => exact .refl d
    | ok next =>
      cases hentry : d.entry? next with
      | none =>
        by_cases hdeep : directoryBound < (name :: names).length
        · simpa only [hentry, if_pos hdeep] using AddsDirectories.refl d
        · simpa only [hentry, if_neg hdeep] using
            addsDirectories_makeMissing anchor passed loc (name :: names) d
      | some e =>
        cases e with
        | file bytes => simpa only [hentry] using AddsDirectories.refl d
        | directory => simpa only [hentry] using ih _ next

/-- **Making directories changes no file**, whether it succeeds or is refused. -/
theorem addsDirectories_makeDirectories (p : Path) (d : Disk) :
    d.AddsDirectories (makeDirectories p d).2 := by
  unfold makeDirectories
  cases flaw? p.text with
  | some r => exact .refl d
  | none => exact addsDirectories_makeWay _ _ _ _ _ d

/-! ## Adding lines -/

/-- Adding to a file puts the longer file in its place. -/
theorem exists_of_append_eq_ok {path : Text} {bytes : List UInt8}
    (h : append path bytes d = (.ok (), d')) :
    ∃ loc, d.locate path = .ok loc ∧ d.entry? loc ≠ some .directory ∧
      d' = d.put loc (.file ((d.file? loc).getD [] ++ bytes)) := by
  unfold append at h
  cases hloc : d.locate path with
  | error r =>
    rw [hloc] at h
    cases h
  | ok loc =>
    rw [hloc] at h
    refine ⟨loc, rfl, ?_⟩
    unfold file?
    cases hentry : d.entry? loc with
    | none =>
      simp only [hentry] at h
      cases h
      exact ⟨nofun, rfl⟩
    | some e =>
      cases e with
      | file old =>
        simp only [hentry] at h
        cases h
        exact ⟨nofun, rfl⟩
      | directory =>
        simp only [hentry] at h
        cases h

/-- What is in a file when lines have been added to it. Without any, it is as it was, and may be
missing. -/
def appended (old : Option (List UInt8)) (lines : List Text) : Option (List UInt8) :=
  if lines = [] then old
  else some (old.getD [] ++ lines.flatMap fun line => Utf8.encode (line ++ ['\n']))

theorem appended_nil (old : Option (List UInt8)) : appended old [] = old := if_pos rfl

theorem appended_of_ne_nil {lines : List Text} (old : Option (List UInt8)) (h : lines ≠ []) :
    appended old lines
      = some (old.getD [] ++ lines.flatMap fun line => Utf8.encode (line ++ ['\n'])) := if_neg h

theorem appended_append (old : Option (List UInt8)) (ls ms : List Text) :
    appended old (ls ++ ms) = appended (appended old ls) ms := by
  by_cases hl : ls = []
  · rw [hl, appended_nil, List.nil_append]
  by_cases hm : ms = []
  · rw [hm, appended_nil, List.append_nil]
  · rw [appended_of_ne_nil old hl, appended_of_ne_nil _ hm,
      appended_of_ne_nil old (List.append_ne_nil_of_left_ne_nil hl ms), Option.getD_some,
      List.flatMap_append, List.append_assoc]

/-- Of lines for several files, those for the file at a location. -/
def linesFor (d : Disk) (l : Location) (lines : List (Path × Text)) : List Text :=
  (lines.filter fun w => d.locationOf w.1.text = l).map (·.2)

theorem linesFor_congr (h : d'.home = d.home) (l : Location) (lines : List (Path × Text)) :
    d'.linesFor l lines = d.linesFor l lines := by
  unfold linesFor
  simp only [locationOf_congr h]

theorem linesFor_append (d : Disk) (l : Location) (ls ms : List (Path × Text)) :
    d.linesFor l (ls ++ ms) = d.linesFor l ls ++ d.linesFor l ms := by
  unfold linesFor
  rw [List.filter_append, List.map_append]

theorem linesFor_singleton (d : Disk) (l : Location) (path : Path) (line : Text) :
    d.linesFor l [(path, line)] = if d.locationOf path.text = l then [line] else [] := by
  unfold linesFor
  by_cases h : d.locationOf path.text = l
  · rw [if_pos h, List.filter_cons_of_pos (by simpa using h), List.filter_nil, List.map_singleton]
  · rw [if_neg h, List.filter_cons_of_neg (by simpa using h), List.filter_nil, List.map_nil]

/-- The lines were added, in order, each to the file that its path leads to, and nothing else was
done to any file. -/
structure Receives (d : Disk) (lines : List (Path × Text)) (d' : Disk) : Prop
    extends Extends d d' where
  /-- The paths lead to the files. -/
  located : ∀ w ∈ lines, d'.locate w.1.text = .ok (d.locationOf w.1.text)
  file?_eq : ∀ l, d'.file? l = appended (d.file? l) (d.linesFor l lines)
  /-- Without lines nothing happens, and no directory is made. -/
  unchanged : lines = [] → d' = d

theorem Receives.nil (d : Disk) : d.Receives [] d :=
  ⟨.refl d, by simp, fun l => (appended_nil _).symm, fun _ => rfl⟩

/-- **Lines are added one after the other.** -/
theorem Receives.append {ls ms : List (Path × Text)} (h : d.Receives ls d')
    (h' : d'.Receives ms d'') : d.Receives (ls ++ ms) d'' := by
  refine ⟨h.toExtends.trans h'.toExtends, fun w hw => ?_, fun l => ?_, fun hnil => ?_⟩
  · rcases List.mem_append.mp hw with hw | hw
    · exact h'.toExtends.locate_eq (h.located w hw)
    · rw [h'.located w hw, locationOf_congr h.home_eq]
  · rw [linesFor_append, appended_append, ← h.file?_eq, h'.file?_eq, linesFor_congr h.home_eq]
  · obtain ⟨rfl, rfl⟩ := List.append_eq_nil_iff.mp hnil
    rw [h'.unchanged rfl, h.unchanged rfl]

/-- **Adding a line to a file changes no other file.** -/
theorem Receives.of_appendLine {path : Path} {line : Text}
    (h : appendLine path line d = (.ok (), d')) : d.Receives [(path, line)] d' := by
  unfold appendLine at h
  cases hway : makeDirectories path.parent d with
  | mk r between =>
    have hadds := addsDirectories_makeDirectories path.parent d
    rw [hway] at h hadds
    cases r with
    | error e => cases h
    | ok u =>
      obtain ⟨loc, hloc, hentry, rfl⟩ := exists_of_append_eq_ok h
      have hput := extends_put hentry
        (.file ((between.file? loc).getD [] ++ Utf8.encode (line ++ ['\n'])))
      have hplace : d.locationOf path.text = loc := by
        rw [locate_eq_locationOf hloc, locationOf_congr hadds.home_eq]
      refine ⟨hadds.toExtends.trans hput, fun w hw => ?_, fun l => ?_, nofun⟩
      · obtain rfl := List.mem_singleton.mp hw
        rw [hplace]
        exact hput.locate_eq hloc
      · rw [file?_put _ (ne_nil_of_entry?_ne hentry), hadds.file?_eq, hadds.file?_eq]
        rw [linesFor_singleton, hplace]
        by_cases hl : l = loc
        · rw [if_pos hl, if_pos hl.symm, appended_of_ne_nil _ (List.cons_ne_nil _ _),
            List.flatMap_singleton, hl]
          rfl
        · rw [if_neg hl, if_neg (Ne.symm hl), appended_nil]

end Pyramid.Disk
