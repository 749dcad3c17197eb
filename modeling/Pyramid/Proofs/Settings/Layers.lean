import Mathlib
import Pyramid.Proofs.CommandLine.StartUp
import Pyramid.Proofs.Toml.Keys
import Pyramid.Session.Run

/-!
# Settings in layers

Settings come from three places: the defaults, a file, and the command line. Each layer is a table
of values under the names of the fields, and a value that is absent lets the layer below through
(`Value.orElse`).

* `Settings.value` is what the settings have for a field, as a value that a table could give. After
  a table was taken it is the table's value over the one from before (`value_foldl`,
  `applied_eq_ok_iff`).
* Which tables are taken is said without the order of the checks: every name is a field's, every
  value fits its field, and a level is one of the four (`IsAcceptable`). The order shows in one
  place only: the message about the first value that does not fit shows the value, and one that
  cannot be shown ends the attempt with another failure (`Unshown`).
* Two tables in turn are one table, the first updated with the values of the second
  (`applied_applied`).
* The program puts the switches over the file and the file over the defaults
  (`settingsFor_eq_ok_iff`). The names in a file's table are distinct because those of every
  document are.

`layers` puts this together.
-/

namespace Pyramid

/-! ## Absent values -/

namespace Value

/-- The value, or the one below it where it is absent. -/
def orElse : Value → Value → Value
  | .absent, below => below
  | v, _ => v

@[simp] theorem absent_orElse (v : Value) : absent.orElse v = v := rfl

theorem orElse_assoc (u v w : Value) : (u.orElse v).orElse w = u.orElse (v.orElse w) := by
  cases u <;> rfl

end Value

namespace Table

variable {t u : Table} {key k : Text} {v : Value} {e : Text × Value}

/-- What the table has for a key. No entry is the same as an absent value. -/
def value (t : Table) (key : Text) : Value := (t.get? key).getD .absent

theorem value_eq_absent (h : key ∉ t.keys) : t.value key = .absent := by
  unfold value
  rw [get?_eq_none h]
  rfl

theorem value_cons (k : Text) (v : Value) (t : Table) (key : Text) :
    value ((k, v) :: t) key = if k = key then v else t.value key := by
  simp only [value, get?]
  split <;> rfl

/-- The table with an entry set, unless its value is absent. -/
def put (t : Table) (key : Text) : Value → Table
  | .absent => t
  | v => t.set key v

/-- The table with the values of another one, those that are there, in place of its own. -/
def updated (t u : Table) : Table := u.foldl (fun t e => t.put e.1 e.2) t

theorem updated_cons (t u : Table) (k : Text) (v : Value) :
    t.updated ((k, v) :: u) = (t.put k v).updated u := rfl

theorem put_cases (t : Table) (key : Text) (v : Value) :
    (v = .absent ∧ t.put key v = t) ∨ t.put key v = t.set key v := by
  cases v with
  | absent => exact .inl ⟨rfl, rfl⟩
  | _ => exact .inr rfl

theorem value_put (t : Table) (k : Text) (v : Value) (key : Text) :
    (t.put k v).value key = if k = key then v.orElse (t.value key) else t.value key := by
  have hset : (t.set k v).value key = if k = key then v else t.value key := by
    unfold value
    rw [get?_set]
    split <;> rfl
  cases v with
  | absent => simp [put]
  | _ => exact hset

theorem nodup_keys_put (h : t.keys.Nodup) : (t.put key v).keys.Nodup := by
  rcases t.put_cases key v with ⟨-, heq⟩ | heq
  · rwa [heq]
  · rw [heq]
    exact nodup_keys_set h

theorem nodup_keys_updated (h : t.keys.Nodup) : (t.updated u).keys.Nodup := by
  induction u generalizing t with
  | nil => exact h
  | cons e u ih => exact ih (nodup_keys_put h)

theorem mem_updated (h : e ∈ t.updated u) : e ∈ t ∨ e ∈ u := by
  induction u generalizing t with
  | nil => exact .inl h
  | cons d u ih =>
    obtain ⟨k, v⟩ := d
    rw [updated_cons] at h
    rcases ih h with h | h
    · rcases t.put_cases k v with ⟨-, heq⟩ | heq
      · rw [heq] at h
        exact .inl h
      · rw [heq] at h
        rcases mem_set h with h | rfl
        · exact .inl h
        · exact .inr List.mem_cons_self
    · exact .inr (List.mem_cons_of_mem _ h)

/-- **An updated table has the values of the second table, and where these are absent its own.** -/
theorem value_updated (hu : u.keys.Nodup) (key : Text) :
    (t.updated u).value key = (u.value key).orElse (t.value key) := by
  induction u generalizing t with
  | nil => rfl
  | cons e u ih =>
    obtain ⟨k, v⟩ := e
    obtain ⟨hk, hu⟩ := List.nodup_cons.mp hu
    rw [updated_cons, ih hu, value_put, value_cons]
    by_cases heq : k = key
    · -- No later entry is about the key, so this one stays.
      subst heq
      rw [if_pos rfl, if_pos rfl, value_eq_absent hk, Value.absent_orElse]
    · rw [if_neg heq, if_neg heq]

end Table

theorem Level.ofName?_eq_none_iff {t : Text} : ofName? t = none ↔ t ∉ all.map name := by
  simp [ofName?]

theorem Level.name_injective {l m : Level} (h : l.name = m.name) : l = m := by
  have hname := congrArg ofName? h
  rw [ofName?_name, ofName?_name] at hname
  exact Option.some.inj hname

theorem Level.exists_of_mem {t : Text} (h : t ∈ all.map name) : ∃ l : Level, t = l.name := by
  obtain ⟨l, -, hl⟩ := List.mem_map.mp h
  exact ⟨l, hl.symm⟩

theorem Level.name_mem (l : Level) : l.name ∈ all.map name := by
  cases l <;> decide

namespace Settings

variable {s s' : Settings} {values a b : Table} {f g : Field} {v w : Value}

/-! ## Fields and their values -/

theorem Field.ofName?_eq_some_iff {name : Text} : ofName? name = some f ↔ f.name = name := by
  constructor
  · intro h
    simpa using List.find?_some h
  · rintro rfl
    exact f.ofName?_name

theorem Field.name_injective (h : f.name = g.name) : f = g := by
  have hname := congrArg ofName? h
  rw [ofName?_name, ofName?_name] at hname
  exact Option.some.inj hname

/-- The value is one that the field can have: a truth value for the guard, a text for all others. An
absent value fits every field. -/
inductive Field.Fits : Field → Value → Prop where
  | absent (f : Field) : Fits f .absent
  | text {f : Field} (h : f ≠ .guarded) (t : Text) : Fits f (.text t)
  | bool (b : Bool) : Fits .guarded (.bool b)

theorem Field.accepts_iff : f.accepts v = true ↔ f.Fits v := by
  constructor
  · intro h
    cases v with
    | absent => exact .absent f
    | text t =>
      refine .text ?_ t
      rintro rfl
      cases h
    | bool b =>
      cases f with
      | guarded => exact .bool b
      | _ => cases h
    | _ => cases f <;> cases h
  · intro h
    cases h with
    | absent => cases f <;> rfl
    | text hne t =>
      cases f with
      | guarded => exact absurd rfl hne
      | _ => rfl
    | bool b => rfl

/-- What the settings have for a field, as a value. -/
def value (s : Settings) : Field → Value
  | .grammar => match s.grammar with
    | none => .absent
    | some file => .text file
  | .start => .text s.start
  | .directory => .text s.directory
  | .level => .text s.level.name
  | .guarded => .bool s.guarded

/-- Settings are determined by the values of their fields. -/
theorem ext_value (h : ∀ f, s.value f = s'.value f) : s = s' := by
  have hgrammar := h .grammar
  have hstart := h .start
  have hdirectory := h .directory
  have hlevel := h .level
  have hguarded := h .guarded
  simp only [value, Value.text.injEq, Value.bool.injEq]
    at hgrammar hstart hdirectory hlevel hguarded
  obtain ⟨grammar, start, directory, level, guarded⟩ := s
  obtain ⟨grammar', start', directory', level', guarded'⟩ := s'
  obtain rfl : level = level' := Level.name_injective hlevel
  obtain rfl : grammar = grammar' := by
    cases grammar <;> cases grammar' <;> simp_all
  simp_all

/-- Settings have a value of its type for every field, and only the grammar file may be absent. -/
theorem fits_value (s : Settings) (f : Field) :
    f.Fits (s.value f) ∧ (s.value f = .absent → f = .grammar) := by
  cases f with
  | grammar =>
    refine ⟨?_, fun _ => rfl⟩
    unfold value
    cases s.grammar with
    | none => exact .absent _
    | some file => exact .text (by decide) file
  | guarded => exact ⟨.bool _, fun h => nomatch h⟩
  | start | directory | level => exact ⟨.text (by decide) _, fun h => nomatch h⟩

/-! ## Tables that are taken -/

/-- Every name is that of a field. -/
def IsKnown (values : Table) : Prop := ∀ key ∈ values.keys, ∃ f : Field, f.name = key

/-- Every value fits the field of its name. -/
def IsTyped (values : Table) : Prop := ∀ (f : Field) v, (f.name, v) ∈ values → f.Fits v

/-- The table has names of fields with values that fit, and a level, if it has one, is one of the
four. -/
structure IsAcceptable (values : Table) : Prop where
  known : IsKnown values
  typed : IsTyped values
  level : ∀ t, (Field.level.name, .text t) ∈ values → t ∈ Level.all.map Level.name

/-- The first value of the table that does not fit its field. -/
def FirstMisfit (values : Table) (f : Field) (v : Value) : Prop :=
  ∃ before after, values = before ++ (f.name, v) :: after ∧ IsTyped before ∧ ¬ f.Fits v

/-- All names are known, and the first value that does not fit cannot be shown. -/
def Unshown (values : Table) (l : Limit) : Prop :=
  IsKnown values ∧ ∃ f v, FirstMisfit values f v ∧ v.display = .error l

theorem reserved_ne_name (f : Field) : reserved ≠ f.name := by
  cases f <;> decide

theorem IsKnown.not_reserved (h : IsKnown values) : reserved ∉ values.keys := by
  intro hmem
  obtain ⟨f, hf⟩ := h reserved hmem
  exact reserved_ne_name f hf.symm

theorem isTyped_cons {e : Text × Value} (he : ∀ f : Field, f.name = e.1 → f.Fits e.2)
    (h : IsTyped values) : IsTyped (e :: values) := by
  intro f v hmem
  rcases List.mem_cons.mp hmem with rfl | hmem
  · exact he f rfl
  · exact h f v hmem

/-- A table whose values do not all fit has a first one that does not. -/
theorem exists_firstMisfit (h : ¬ IsTyped values) : ∃ f v, FirstMisfit values f v := by
  induction values with
  | nil => exact absurd (fun f v hmem => nomatch hmem) h
  | cons e values ih =>
    -- A name that is no field's has nothing to fit, so only fields are asked.
    by_cases he : ∀ f : Field, f.name = e.1 → f.Fits e.2
    · obtain ⟨f, v, before, after, rfl, hbefore, hv⟩ :=
        ih fun hvalues => h (isTyped_cons he hvalues)
      exact ⟨f, v, e :: before, after, rfl, isTyped_cons he hbefore, hv⟩
    · obtain ⟨f, hf⟩ := not_forall.mp he
      obtain ⟨hname, hv⟩ := Classical.not_imp.mp hf
      refine ⟨f, e.2, [], values, ?_, fun _ _ hmem => (nomatch hmem), hv⟩
      rw [hname]
      rfl

/-! ## The first reason to refuse a table -/

/-- The reason to refuse an entry whose value does not fit. -/
def misfit? (e : Text × Value) : Option Refusal :=
  (Field.ofName? e.1).bind fun f => if f.accepts e.2 then none else some (.type f e.2)

theorem misfit?_of_fits (h : f.Fits v) : misfit? (f.name, v) = none := by
  simp [misfit?, Field.ofName?_name, Field.accepts_iff.mpr h]

theorem misfit?_of_not_fits (h : ¬ f.Fits v) : misfit? (f.name, v) = some (.type f v) := by
  have hfalse : f.accepts v = false := by
    rw [← Bool.not_eq_true, Field.accepts_iff]
    exact h
  simp [misfit?, Field.ofName?_name, hfalse]

theorem misfit?_of_isTyped {e : Text × Value} (h : IsTyped values) (he : e ∈ values) :
    misfit? e = none := by
  obtain ⟨name, v⟩ := e
  cases hf : Field.ofName? name with
  | none => simp [misfit?, hf]
  | some f =>
    obtain rfl := Field.ofName?_eq_some_iff.mp hf
    exact misfit?_of_fits (h f v he)

/-- The names of no field, in order. -/
def unknownNames (values : Table) : List Text :=
  Text.sort (values.keys.filter fun name => (Field.ofName? name).isNone)

theorem unknownNames_eq_nil_iff : unknownNames values = [] ↔ IsKnown values := by
  have hnone : ∀ name, (Field.ofName? name).isNone = true ↔ ¬ ∃ f : Field, f.name = name := by
    intro name
    simp only [Option.isNone_iff_eq_none, Option.eq_none_iff_forall_ne_some, ne_eq,
      Field.ofName?_eq_some_iff, not_exists]
  simp only [unknownNames, List.eq_nil_iff_forall_not_mem, Text.mem_sort, List.mem_filter, hnone,
    not_and, not_not]
  rfl

theorem refusal?_eq (h : reserved ∉ values.keys) :
    refusal? values =
      if unknownNames values ≠ [] then some (.unknown (unknownNames values))
      else match values.findSome? misfit? with
        | some r => some r
        | none => match values.get? Field.level.name with
          | some (.text t) => if (Level.ofName? t).isNone then some (.level t) else none
          | _ => none := by
  have hany : values.any (·.1 = reserved) = false := by
    refine List.any_eq_false.mpr fun e he hname => h ?_
    rw [← of_decide_eq_true hname]
    exact List.mem_map_of_mem he
  unfold refusal?
  rw [if_neg (by simp [hany])]
  rfl

theorem refusal?_of_not_isKnown (hself : reserved ∉ values.keys) (h : ¬ IsKnown values) :
    refusal? values = some (.unknown (unknownNames values)) := by
  rw [refusal?_eq hself, if_pos (mt unknownNames_eq_nil_iff.mp h)]

theorem refusal?_of_firstMisfit (hknown : IsKnown values) (h : FirstMisfit values f v) :
    refusal? values = some (.type f v) := by
  obtain ⟨before, after, heq, hbefore, hv⟩ := h
  have hfirst : values.findSome? misfit? = some (.type f v) := by
    refine List.findSome?_eq_some_iff.mpr
      ⟨before, (f.name, v), after, heq, misfit?_of_not_fits hv, ?_⟩
    exact fun e he => misfit?_of_isTyped hbefore he
  rw [refusal?_eq hknown.not_reserved, if_neg (by simpa using unknownNames_eq_nil_iff.mpr hknown),
    hfirst]

theorem refusal?_of_isTyped (hknown : IsKnown values) (h : IsTyped values) :
    refusal? values = match values.get? Field.level.name with
      | some (.text t) => if (Level.ofName? t).isNone then some (.level t) else none
      | _ => none := by
  have hfirst : values.findSome? misfit? = none :=
    List.findSome?_eq_none_iff.mpr fun e he => misfit?_of_isTyped h he
  rw [refusal?_eq hknown.not_reserved, if_neg (by simpa using unknownNames_eq_nil_iff.mpr hknown),
    hfirst]

theorem refusal?_of_level {t : Text} (hknown : IsKnown values) (htyped : IsTyped values)
    (hnodup : values.keys.Nodup) (h : (Field.level.name, .text t) ∈ values)
    (ht : t ∉ Level.all.map Level.name) : refusal? values = some (.level t) := by
  rw [refusal?_of_isTyped hknown htyped, Table.get?_of_mem hnodup h]
  simp [Level.ofName?_eq_none_iff.mpr ht]

theorem IsAcceptable.refusal?_eq_none (h : IsAcceptable values) : refusal? values = none := by
  rw [refusal?_of_isTyped h.known h.typed]
  split
  · next t hget =>
    have hlevel : Level.ofName? t ≠ none := fun hnone =>
      Level.ofName?_eq_none_iff.mp hnone (h.level t (Table.mem_of_get? hget))
    rw [if_neg (by simpa using hlevel)]
  · rfl

/-! ## What a taken table does -/

/-- Sets the field of an entry. -/
def assignEntry (s : Settings) (e : Text × Value) : Settings :=
  match Field.ofName? e.1 with
  | some f => s.assign f e.2
  | none => s

theorem assignEntry_name (s : Settings) (f : Field) (v : Value) :
    s.assignEntry (f.name, v) = s.assign f v := by
  simp only [assignEntry, Field.ofName?_name]

theorem override_eq (h : IsAcceptable values) :
    s.override values = .ok (values.foldl assignEntry s) := by
  unfold override
  rw [h.refusal?_eq_none]
  rfl

theorem assign_absent (s : Settings) (f : Field) : s.assign f .absent = s := by
  cases f <;> rfl

theorem assign_level (s : Settings) (l : Level) :
    s.assign .level (.text l.name) = { s with level := l } := by
  simp only [assign, Level.ofName?_name]

/-- A field is set to a value that fits, unless it is absent, and no other field changes. -/
theorem value_assign (hv : f.Fits v) (hlevel : ∀ t, f = .level → v = .text t →
    t ∈ Level.all.map Level.name) (g : Field) :
    (s.assign f v).value g = if f = g then v.orElse (s.value g) else s.value g := by
  cases hv with
  | absent => rw [assign_absent, Value.absent_orElse, ite_self]
  | bool b => cases g <;> rfl
  | text hne t =>
    cases f with
    | guarded => exact absurd rfl hne
    | level =>
      -- A text that is no level would leave the settings as they are.
      obtain ⟨l, rfl⟩ := Level.exists_of_mem (hlevel t rfl rfl)
      rw [assign_level]
      cases g <;> rfl
    | grammar | start | directory => cases g <;> rfl

theorem IsAcceptable.of_cons {e : Text × Value} (h : IsAcceptable (e :: values)) :
    IsAcceptable values where
  known key hkey := h.known key (List.mem_cons_of_mem _ hkey)
  typed f v hmem := h.typed f v (List.mem_cons_of_mem _ hmem)
  level t hmem := h.level t (List.mem_cons_of_mem _ hmem)

theorem isAcceptable_nil : IsAcceptable [] where
  known _ h := nomatch h
  typed _ _ h := nomatch h
  level _ h := nomatch h

theorem IsAcceptable.cons (h : IsAcceptable values) (hv : f.Fits v)
    (hlevel : ∀ t, f = .level → v = .text t → t ∈ Level.all.map Level.name) :
    IsAcceptable ((f.name, v) :: values) where
  known key hkey := by
    rcases List.mem_cons.mp hkey with rfl | hkey
    · exact ⟨f, rfl⟩
    · exact h.known key hkey
  typed := by
    refine isTyped_cons (fun g hg => ?_) h.typed
    rw [Field.name_injective hg]
    exact hv
  level t hmem := by
    rcases List.mem_cons.mp hmem with heq | hmem
    · obtain ⟨hname, htext⟩ := Prod.mk.inj heq
      exact hlevel t (Field.name_injective hname).symm htext.symm
    · exact h.level t hmem

/-- **The settings after a table have its values, and their own where these are absent.** -/
theorem value_foldl (h : IsAcceptable values) (hnodup : values.keys.Nodup) (f : Field) :
    (values.foldl assignEntry s).value f = (values.value f.name).orElse (s.value f) := by
  induction values generalizing s with
  | nil => rfl
  | cons e values ih =>
    obtain ⟨name, v⟩ := e
    obtain ⟨hname, hrest⟩ := List.nodup_cons.mp hnodup
    obtain ⟨g, rfl⟩ := h.known name List.mem_cons_self
    have hassign := value_assign (s := s) (h.typed g v List.mem_cons_self)
      (fun t hg hv => h.level t (by rw [← hg, ← hv]; exact List.mem_cons_self)) f
    rw [List.foldl_cons, ih h.of_cons hrest, assignEntry_name, hassign, Table.value_cons]
    by_cases hgf : g = f
    · -- The entry is for the field, and the rest of the table has no second one.
      subst hgf
      rw [if_pos rfl, if_pos rfl, Table.value_eq_absent hname, Value.absent_orElse]
    · rw [if_neg hgf, if_neg (mt Field.name_injective hgf)]

/-! ## What comes of a table -/

/-- What comes of changing settings by a table. -/
def applied (s : Settings) (values : Table) : Except Failure Settings :=
  (s.override values).mapError Refusal.failure

theorem applied_of_refusal {r : Refusal} (s : Settings) (h : refusal? values = some r) :
    s.applied values = .error r.failure := override_eq_error_iff.mpr ⟨r, h, rfl⟩

theorem applied_eq (s : Settings) (h : IsAcceptable values) :
    s.applied values = .ok (values.foldl assignEntry s) := by
  unfold applied
  rw [override_eq h]
  rfl

theorem applied_of_unshown {l : Limit} (s : Settings) (h : Unshown values l) :
    s.applied values = .error (.limit l) := by
  obtain ⟨hknown, f, v, hfirst, hl⟩ := h
  rw [applied_of_refusal s (refusal?_of_firstMisfit hknown hfirst)]
  simp only [Refusal.failure, hl]

/-- A table that is not taken is refused with a message, but for a value that cannot be shown. -/
theorem applied_of_not_isAcceptable (s : Settings) (hnodup : values.keys.Nodup)
    (hself : reserved ∉ values.keys) (h : ¬ IsAcceptable values) :
    (∃ message, s.applied values = .error (fileFault message)) ∨ ∃ l, Unshown values l := by
  -- The order of the checks decides which failure it is: names, then types, then the level.
  by_cases hknown : IsKnown values
  · by_cases htyped : IsTyped values
    · have hlevel : ¬ ∀ t, (Field.level.name, .text t) ∈ values → t ∈ Level.all.map Level.name :=
        fun hlevel => h ⟨hknown, htyped, hlevel⟩
      obtain ⟨t, ht⟩ := not_forall.mp hlevel
      obtain ⟨hmem, hunknown⟩ := Classical.not_imp.mp ht
      exact .inl ⟨_, applied_of_refusal s (refusal?_of_level hknown htyped hnodup hmem hunknown)⟩
    · obtain ⟨f, v, hfirst⟩ := exists_firstMisfit htyped
      have happlied := applied_of_refusal s (refusal?_of_firstMisfit hknown hfirst)
      rcases (Refusal.type f v).failure_cases with ⟨message, hm⟩ | ⟨hr, -⟩ | ⟨g, w, l, hr, hl, -⟩
      · rw [hm] at happlied
        exact .inl ⟨message, happlied⟩
      · cases hr
      · cases hr
        exact .inr ⟨l, hknown, f, v, hfirst, hl⟩
  · exact .inl ⟨_, applied_of_refusal s (refusal?_of_not_isKnown hself hknown)⟩

theorem applied_of_reserved (s : Settings) (h : reserved ∈ values.keys) :
    s.applied values = .error .illTyped := by
  refine applied_of_refusal s (r := .reserved) ?_
  obtain ⟨e, he, hname⟩ := List.mem_map.mp h
  unfold refusal?
  rw [if_pos (List.any_eq_true.mpr ⟨e, he, decide_eq_true hname⟩)]

theorem isAcceptable_of_applied (hnodup : values.keys.Nodup) (h : s.applied values = .ok s') :
    IsAcceptable values := by
  by_contra hnot
  by_cases hself : reserved ∈ values.keys
  · rw [applied_of_reserved s hself] at h
    cases h
  · rcases applied_of_not_isAcceptable s hnodup hself hnot with ⟨message, herror⟩ | ⟨l, hl⟩
    · rw [h] at herror
      cases herror
    · rw [applied_of_unshown s hl] at h
      cases h

/-- **A table is taken exactly if it is acceptable, and then the settings have its values over their
own.** -/
theorem applied_eq_ok_iff (hnodup : values.keys.Nodup) :
    s.applied values = .ok s' ↔
      IsAcceptable values ∧ ∀ f, s'.value f = (values.value f.name).orElse (s.value f) := by
  constructor
  · intro h
    have hacceptable := isAcceptable_of_applied hnodup h
    rw [applied_eq s hacceptable] at h
    cases h
    exact ⟨hacceptable, value_foldl hacceptable hnodup⟩
  · rintro ⟨hacceptable, hvalue⟩
    rw [applied_eq s hacceptable]
    refine congrArg _ (ext_value fun f => ?_)
    rw [value_foldl hacceptable hnodup, hvalue]

/-! ## One layer over another -/

theorem IsAcceptable.updated (ha : IsAcceptable a) (hb : IsAcceptable b) :
    IsAcceptable (a.updated b) where
  known key hkey := by
    obtain ⟨e, he, rfl⟩ := List.mem_map.mp hkey
    rcases Table.mem_updated he with he | he
    · exact ha.known _ (List.mem_map_of_mem he)
    · exact hb.known _ (List.mem_map_of_mem he)
  typed f v hmem := (Table.mem_updated hmem).elim (ha.typed f v) (hb.typed f v)
  level t hmem := (Table.mem_updated hmem).elim (ha.level t) (hb.level t)

/-- **Two tables in turn do what the first does with the values of the second in place of its
own.** -/
theorem applied_applied (s : Settings) (ha : IsAcceptable a) (hb : IsAcceptable b)
    (hnodupa : a.keys.Nodup) (hnodupb : b.keys.Nodup) :
    ∃ s₁ s₂, s.applied a = .ok s₁ ∧ s₁.applied b = .ok s₂ ∧ s.applied (a.updated b) = .ok s₂ := by
  have hab := ha.updated hb
  have hnodup := Table.nodup_keys_updated (u := b) hnodupa
  refine ⟨_, _, applied_eq s ha, applied_eq _ hb, ?_⟩
  refine (applied_eq_ok_iff hnodup).mpr ⟨hab, fun f => ?_⟩
  rw [value_foldl hb hnodupb, value_foldl ha hnodupa, Table.value_updated hnodupb,
    Value.orElse_assoc]

/-! ## The journal -/

/-- The level and the directory of any settings open a journal. -/
theorem opens_journal (s : Settings) (name : Text) (session : Session) :
    ∃ session', Session.run (.journal name "cnfchart" "main" (some s.level.name) (some s.directory))
      session = (.ok (.journal (CommandLine.journalFor s)), session') := by
  simp only [Session.run, Option.getD_some, Level.ofName?_name]
  exact ⟨_, rfl⟩

/-! ## Files -/

theorem nodup_keys_of_tableOf {file text : Text} (h : tableOf file text = .ok values) :
    values.keys.Nodup := by
  unfold tableOf at h
  dsimp only at h
  split at h
  · cases h
  · cases h
  · next root hroot =>
    split at h
    · cases h
      exact List.nodup_nil
    · next hget =>
      cases h
      exact (Table.distinct_of_value ((Toml.distinct_of_read hroot).get? hget)).keys
    · cases h

theorem read_eq_ok_iff {d : Disk} {file : Text} :
    Settings.read d file = .ok s ↔
      ∃ text values, d.HasText file text ∧ tableOf file text = .ok values ∧
      ({} : Settings).applied values = .ok s := by
  constructor
  · intro h
    unfold Settings.read at h
    split at h
    · cases h
    · cases h
    · next bytes hread =>
      split at h
      · cases h
      · next text hdecode =>
        obtain ⟨values, htable, happlied⟩ := CommandLine.exists_of_bind_eq_ok h
        exact ⟨text, values, ⟨bytes, hread, hdecode⟩, htable, happlied⟩
  · rintro ⟨text, values, ⟨bytes, hread, hdecode⟩, htable, happlied⟩
    simp only [Settings.read, hread, hdecode, htable]
    exact happlied

end Settings

namespace CommandLine

variable {a : Arguments} {d : Disk} {s : Settings}

/-- The table of the file that the command line names. If it names none, the table is empty. -/
def Arguments.HasTable (a : Arguments) (d : Disk) (file : Table) : Prop :=
  if a.config = [] then file = []
  else ∃ text, d.HasText a.config text ∧ Settings.tableOf a.config text = .ok file

theorem Arguments.HasTable.nodup_keys {file : Table} (h : a.HasTable d file) : file.keys.Nodup := by
  unfold HasTable at h
  split at h
  · rw [h]
    exact List.nodup_nil
  · obtain ⟨text, -, htable⟩ := h
    exact Settings.nodup_keys_of_tableOf htable

theorem Arguments.nodup_keys_values (a : Arguments) : a.values.keys.Nodup := by
  show [Settings.Field.grammar.name, Settings.Field.start.name, Settings.Field.level.name].Nodup
  decide

/-- The settings come from the table of the file, over the defaults, and from the switches over
these. -/
theorem settingsFor_eq_ok :
    settingsFor a d = .ok s ↔
      ∃ file base, a.HasTable d file ∧ ({} : Settings).applied file = .ok base ∧
      base.applied a.values = .ok s := by
  by_cases hconfig : a.config = []
  · simp only [settingsFor, Arguments.HasTable, if_pos hconfig]
    constructor
    · exact fun h => ⟨[], {}, rfl, Settings.applied_eq _ Settings.isAcceptable_nil, h⟩
    · rintro ⟨file, base, rfl, hbase, hs⟩
      rw [Settings.applied_eq _ Settings.isAcceptable_nil] at hbase
      cases hbase
      exact hs
  · simp only [settingsFor, Arguments.HasTable, if_neg hconfig]
    constructor
    · intro h
      obtain ⟨base, hread, hs⟩ := exists_of_bind_eq_ok h
      obtain ⟨text, file, htext, htable, hbase⟩ := Settings.read_eq_ok_iff.mp hread
      exact ⟨file, base, ⟨text, htext, htable⟩, hbase, hs⟩
    · rintro ⟨file, base, ⟨text, htext, htable⟩, hbase, hs⟩
      rw [Settings.read_eq_ok_iff.mpr ⟨text, file, htext, htable, hbase⟩]
      exact hs

/-- **Each field has the value of the switch, else that of the file, else the default.** -/
theorem settingsFor_eq_ok_iff :
    settingsFor a d = .ok s ↔ ∃ file, a.HasTable d file ∧ Settings.IsAcceptable file ∧
      Settings.IsAcceptable a.values ∧ ∀ f, s.value f =
        (a.values.value f.name).orElse ((file.value f.name).orElse (({} : Settings).value f)) := by
  rw [settingsFor_eq_ok]
  constructor
  · rintro ⟨file, base, htable, hbase, hs⟩
    obtain ⟨hfile, hbase⟩ := (Settings.applied_eq_ok_iff htable.nodup_keys).mp hbase
    obtain ⟨hswitches, hs⟩ := (Settings.applied_eq_ok_iff a.nodup_keys_values).mp hs
    refine ⟨file, htable, hfile, hswitches, fun f => ?_⟩
    rw [hs, hbase]
  · rintro ⟨file, htable, hfile, hswitches, hs⟩
    refine ⟨file, _, htable, Settings.applied_eq _ hfile, ?_⟩
    refine (Settings.applied_eq_ok_iff a.nodup_keys_values).mpr ⟨hswitches, fun f => ?_⟩
    rw [hs, Settings.value_foldl hfile htable.nodup_keys]

end CommandLine

namespace Settings

/-- **Settings in layers.**

For all settings, however they have come about:

* A table with distinct names, none of them reserved, is refused with a message about the settings
  exactly if it is not acceptable, unless its names are known and its first value that does not fit
  cannot be shown, which is a failure of its own. An acceptable table is taken, and each field then
  has the table's value, or where that is absent or missing the value it had.
* Every field has a value of its type, which only for the grammar file may be absent, and the level
  is one of the four, so that the program's journal can be opened.
* Two acceptable tables in turn do the same as the first one updated with the values of the second.
* The program's settings are, field by field, what the switches give, else what the file gives, if
  one is named and its table is acceptable, else the default. -/
theorem layers (s : Settings) :
    (∀ values : Table, values.keys.Nodup → reserved ∉ values.keys →
      ((∃ message, s.applied values = .error (fileFault message)) ↔
        ¬ IsAcceptable values ∧ ¬ ∃ l, Unshown values l) ∧
      (∀ l, Unshown values l → s.applied values = .error (.limit l)) ∧
      (IsAcceptable values → ∃ s', s.applied values = .ok s' ∧
        ∀ f : Field, s'.value f = (values.value f.name).orElse (s.value f))) ∧
    (∀ f : Field, f.Fits (s.value f) ∧ (s.value f = .absent → f = .grammar)) ∧
    (∃ level directory, s.value .level = .text level ∧ s.value .directory = .text directory ∧
      level ∈ Level.all.map Level.name ∧ ∀ name session, ∃ session',
        Session.run (.journal name "cnfchart" "main" (some level) (some directory)) session
          = (.ok (.journal (CommandLine.journalFor s)), session')) ∧
    (∀ a b : Table, IsAcceptable a → IsAcceptable b → a.keys.Nodup → b.keys.Nodup →
      ∃ s₁ s₂, s.applied a = .ok s₁ ∧ s₁.applied b = .ok s₂ ∧ s.applied (a.updated b) = .ok s₂) ∧
    ∀ (a : CommandLine.Arguments) (d : Disk), CommandLine.settingsFor a d = .ok s ↔
      ∃ file, a.HasTable d file ∧ IsAcceptable file ∧ IsAcceptable a.values ∧
        ∀ f : Field, s.value f = (a.values.value f.name).orElse
          ((file.value f.name).orElse (({} : Settings).value f)) := by
  refine ⟨fun values hnodup hself => ⟨⟨?_, ?_⟩, fun l hl => applied_of_unshown s hl, ?_⟩,
    s.fits_value, ?_, fun a b ha hb => applied_applied s ha hb,
    fun a d => CommandLine.settingsFor_eq_ok_iff⟩
  · rintro ⟨message, herror⟩
    refine ⟨fun h => ?_, fun ⟨l, hl⟩ => ?_⟩
    · rw [applied_eq s h] at herror
      cases herror
    · rw [applied_of_unshown s hl] at herror
      cases herror
  · rintro ⟨hnot, hshown⟩
    exact (applied_of_not_isAcceptable s hnodup hself hnot).resolve_right hshown
  · intro h
    exact ⟨_, applied_eq s h, value_foldl h hnodup⟩
  · exact ⟨_, _, rfl, rfl, s.level.name_mem, s.opens_journal⟩

/-! ## Numbers that cannot be shown -/

theorem display_integer {n : Int} (h : Text.isShowable n = false) :
    (Value.integer n).display = .error .digitsShown := by
  unfold Value.display Value.displayAt
  rw [if_neg (by decide)]
  simp only [h]
  rfl

theorem not_isShowable {n : Nat} (h : Nat.pow 10 Text.digitBound ≤ n) :
    Text.isShowable n = false := by
  unfold Text.isShowable
  rw [Int.natAbs_natCast]
  exact decide_eq_false (Nat.not_lt.mpr h)

/-- A start symbol that is a number of one digit too many to be shown. -/
def longNumber : Table := [(Field.start.name, .integer (Nat.pow 10 Text.digitBound : Nat))]

/-- The number is not a text, so the table is not acceptable. But the message about it cannot be
written, and none about the settings results. A text under the same name is taken, and stays below a
table in which the name has an absent value. -/
theorem layers_longNumber :
    ¬ IsAcceptable longNumber ∧ Unshown longNumber .digitsShown ∧
      ({} : Settings).applied longNumber = .error (.limit .digitsShown) ∧
      (¬ ∃ message, ({} : Settings).applied longNumber = .error (fileFault message)) ∧
      ∃ s₁ s₂, ({} : Settings).applied [(Field.start.name, .text "X")] = .ok s₁ ∧
        s₁.applied [(Field.start.name, .absent), (Field.level.name, .text "info")] = .ok s₂ ∧
        s₂.value .start = .text "X" ∧ s₂.value .level = .text "info" := by
  obtain ⟨hone, -, -, htwo, -⟩ := layers {}
  have hmisfit : ∀ n : Int, ¬ Field.start.Fits (.integer n) := fun n h => nomatch h
  have hunshown : Unshown longNumber .digitsShown := by
    refine ⟨fun key hkey => ⟨.start, (List.mem_singleton.mp hkey).symm⟩, .start, _,
      ⟨[], [], rfl, fun _ _ h => (nomatch h), hmisfit _⟩, ?_⟩
    exact display_integer (not_isShowable (Nat.le_refl _))
  have hnot : ¬ IsAcceptable longNumber :=
    fun h => hmisfit _ (h.typed .start _ List.mem_cons_self)
  obtain ⟨hfault, hlimit, -⟩ := hone longNumber (List.nodup_singleton _)
    (mt List.mem_singleton.mp (reserved_ne_name .start))
  refine ⟨hnot, hunshown, hlimit _ hunshown, fun h => (hfault.mp h).2 ⟨_, hunshown⟩, ?_⟩
  have ha : IsAcceptable [(Field.start.name, .text "X")] :=
    isAcceptable_nil.cons (.text (by decide) _) fun _ hf => nomatch hf
  have hb : IsAcceptable [(Field.start.name, .absent), (Field.level.name, .text "info")] := by
    refine (isAcceptable_nil.cons (.text (by decide) _) fun t _ ht => ?_).cons (.absent _)
      fun _ hf => nomatch hf
    cases ht
    exact Level.info.name_mem
  obtain ⟨s₁, s₂, hs₁, hs₂, hs⟩ := htwo _ _ ha hb (by decide) (by decide)
  obtain ⟨s', hs', hvalue⟩ := (hone _ (by decide) (by decide)).2.2 (ha.updated hb)
  obtain rfl : s₂ = s' := Except.ok.inj (hs.symm.trans hs')
  exact ⟨s₁, s₂, hs₁, hs₂, hvalue .start, hvalue .level⟩

end Settings
end Pyramid
