import Mathlib
import Pyramid.Toml.Document

/-!
# Keys of tables

A table is a list of entries, and nothing in the list keeps a key from standing in it twice. Tables
that are only ever changed with `Table.set` have distinct keys, and so do those of a document:
whatever the reader accepts, all its tables have distinct keys, however deep they lie
(`Toml.distinct_of_read`).
-/

namespace Pyramid

/-! ## Tables -/

namespace Table

variable {t : Table} {key k : Text} {v w : Value} {e : Text × Value}

/-- The keys of a table, in order. -/
def keys (t : Table) : List Text := t.map (·.1)

theorem mem_of_get? (h : t.get? key = some v) : (key, v) ∈ t := by
  induction t with
  | nil => cases h
  | cons e t ih =>
    obtain ⟨k, w⟩ := e
    unfold get? at h
    split at h
    · next hk =>
      cases h
      subst hk
      exact List.mem_cons_self
    · exact List.mem_cons_of_mem _ (ih h)

theorem mem_keys (h : (key, v) ∈ t) : key ∈ t.keys := List.mem_map_of_mem h

/-- In a table with distinct keys every entry is found. -/
theorem get?_of_mem (ht : t.keys.Nodup) (h : (key, v) ∈ t) : t.get? key = some v := by
  induction t with
  | nil => cases h
  | cons e t ih =>
    obtain ⟨k, w⟩ := e
    obtain ⟨hk, ht⟩ := List.nodup_cons.mp ht
    unfold get?
    rcases List.mem_cons.mp h with heq | h
    · cases heq
      rw [if_pos rfl]
    · have hne : k ≠ key := by
        rintro rfl
        exact hk (mem_keys h)
      rw [if_neg hne]
      exact ih ht h

theorem get?_eq_none (h : key ∉ t.keys) : t.get? key = none := by
  refine Option.eq_none_iff_forall_ne_some.mpr fun v hv => ?_
  exact h (mem_keys (mem_of_get? hv))

theorem mem_set (h : e ∈ t.set key v) : e ∈ t ∨ e = (key, v) := by
  induction t with
  | nil => exact .inr (List.mem_singleton.mp h)
  | cons d t ih =>
    obtain ⟨k, w⟩ := d
    unfold set at h
    split at h
    · next hk =>
      rcases List.mem_cons.mp h with rfl | h
      · exact .inr (by rw [hk])
      · exact .inl (List.mem_cons_of_mem _ h)
    · rcases List.mem_cons.mp h with rfl | h
      · exact .inl List.mem_cons_self
      · exact (ih h).imp_left (List.mem_cons_of_mem _)

/-- Setting a key adds no other. -/
theorem mem_keys_set (h : k ∈ (t.set key v).keys) : k ∈ t.keys ∨ k = key := by
  obtain ⟨e, he, rfl⟩ := List.mem_map.mp h
  rcases mem_set he with he | rfl
  · exact .inl (List.mem_map_of_mem he)
  · exact .inr rfl

theorem nodup_keys_set (ht : t.keys.Nodup) : (t.set key v).keys.Nodup := by
  induction t with
  | nil => exact List.nodup_singleton key
  | cons e t ih =>
    obtain ⟨k, w⟩ := e
    obtain ⟨hk, ht'⟩ := List.nodup_cons.mp ht
    unfold set
    split
    · exact ht
    · next hne =>
      refine List.nodup_cons.mpr ⟨fun hmem => ?_, ih ht'⟩
      rcases mem_keys_set hmem with hmem | heq
      · exact hk hmem
      · exact hne heq

end Table

/-! ## Tables inside tables -/

/-- All tables in the value have distinct keys. -/
inductive Value.Distinct : Value → Prop where
  | plain {v : Value} (h : Toml.isCompound v = false) : Distinct v
  | array {vs : List Value} (h : ∀ v ∈ vs, Distinct v) : Distinct (.array vs)
  | table {t : Table} (keys : t.keys.Nodup) (h : ∀ e ∈ t, Distinct e.2) : Distinct (.table t)

namespace Table

variable {t u : Table} {key : Text} {v : Value}

/-- The table and all tables in it have distinct keys. -/
structure Distinct (t : Table) : Prop where
  keys : t.keys.Nodup
  values : ∀ e ∈ t, e.2.Distinct

theorem distinct_of_value (h : (Value.table t).Distinct) : t.Distinct := by
  cases h with
  | plain h => cases h
  | table keys h => exact ⟨keys, h⟩

theorem Distinct.value (h : t.Distinct) : (Value.table t).Distinct := .table h.keys h.values

theorem distinct_nil : Distinct [] := ⟨List.nodup_nil, fun _ h => nomatch h⟩

theorem Distinct.get? (h : t.Distinct) (hv : t.get? key = some v) : v.Distinct :=
  h.values _ (mem_of_get? hv)

theorem Distinct.set (h : t.Distinct) (hv : v.Distinct) : (t.set key v).Distinct where
  keys := nodup_keys_set h.keys
  values e he := by
    rcases mem_set he with he | rfl
    · exact h.values e he
    · exact hv

theorem distinct_of_array {vs : List Value} (h : (Value.array vs).Distinct) :
    ∀ v ∈ vs, v.Distinct := by
  cases h with
  | plain h => cases h
  | array h => exact h

/-- A change in some table on the way keeps all keys distinct if it does so in that table. -/
theorem Distinct.update {throughArrays : Bool} {change : Table → Option Table} {path : List Text}
    (hchange : ∀ t u, t.Distinct → change t = some u → u.Distinct) (h : t.Distinct)
    (hu : t.update throughArrays change path = some u) : u.Distinct := by
  induction path generalizing t u with
  | nil => exact hchange t u h hu
  | cons key path ih =>
    unfold Table.update at hu
    split at hu
    · obtain ⟨w, hw, rfl⟩ := Option.map_eq_some_iff.mp hu
      exact h.set (ih distinct_nil hw).value
    · next nest hnest =>
      obtain ⟨w, hw, rfl⟩ := Option.map_eq_some_iff.mp hu
      exact h.set (ih (distinct_of_value (h.get? hnest)) hw).value
    · next vs hvs =>
      -- The way leads on through the last table of the array, and only this one changes.
      have hall := distinct_of_array (h.get? hvs)
      split at hu
      · next nest hlast =>
        obtain ⟨w, hw, rfl⟩ := Option.map_eq_some_iff.mp hu
        have hnest := distinct_of_value (hall _ (List.mem_of_getLast? hlast))
        refine h.set (.array fun v hv => ?_)
        rcases List.mem_append.mp hv with hv | hv
        · exact hall v (List.mem_of_mem_dropLast hv)
        · rw [List.mem_singleton.mp hv]
          exact (ih hnest hw).value
      · cases hu
    · cases hu

end Table

/-! ## What a step reads -/

namespace Toml

namespace Read

variable {α β : Type} {act : Read α} {f : α → Read β} {Q : α → Prop} {R : β → Prop}

/-- Whatever the step gives has the property. -/
def Ensures (act : Read α) (Q : α → Prop) : Prop := ∀ rest a rest', act rest = .ok (a, rest') → Q a

theorem Ensures.pure {a : α} (h : Q a) : Ensures (pure a) Q := by
  intro rest b rest' heq
  cases heq
  exact h

theorem Ensures.fail (p : Problem) : Ensures (fail p) Q := by
  intro rest a rest' heq
  cases heq

theorem Ensures.bind (h : Ensures act Q) (hf : ∀ a, Q a → Ensures (f a) R) :
    Ensures (act >>= f) R := by
  intro rest b rest' heq
  have hrun : (act rest >>= fun p => f p.1 p.2) = .ok (b, rest') := heq
  cases hact : act rest with
  | error e =>
    rw [hact] at hrun
    cases hrun
  | ok p =>
    rw [hact] at hrun
    exact hf p.1 (h rest p.1 p.2 hact) p.2 b rest' hrun

theorem Ensures.fail_bind (p : Problem) : Ensures (Read.fail p >>= f) R :=
  Ensures.bind (Q := fun _ => False) (.fail p) fun _ h => h.elim

/-- A step whose result does not matter. -/
theorem Ensures.skip (act : Read α) (hf : ∀ a, Ensures (f a) R) : Ensures (act >>= f) R :=
  Ensures.bind (Q := fun _ => True) (fun _ _ _ _ => trivial) fun a _ => hf a

theorem Ensures.ite {c : Prop} [Decidable c] {other : Read α} (h : Ensures act Q)
    (h' : Ensures other Q) : Ensures (if c then act else other) Q := by
  by_cases hc : c
  · rw [if_pos hc]
    exact h
  · rw [if_neg hc]
    exact h'

end Read

open Read

/-! ## Values -/

theorem isCompound_of_dateTime? {t rest : Text} {v : Value} (h : dateTime? t = some (.ok v, rest)) :
    isCompound v = false := by
  have hrefuse : ∀ {b : Bool} {w : Value} {r : Text}, isCompound w = false →
      some (if b = true then (.ok w : Except Problem Value) else .error .date, r)
        = some (.ok v, rest) →
      isCompound v = false := by
    intro b w r hw heq
    cases b with
    | true =>
      cases heq
      exact hw
    | false => cases heq
  unfold dateTime? at h
  obtain ⟨⟨date, more⟩, -, h⟩ := Option.bind_eq_some_iff.mp h
  dsimp only at h
  split at h
  · split at h
    · split at h
      · split at h
        · exact hrefuse rfl h
        · exact hrefuse rfl h
      · exact hrefuse rfl h
    · exact hrefuse rfl h
  · exact hrefuse rfl h

theorem isCompound_of_decimal? {t rest : Text} {v : Value} (h : decimal? t = some (.ok v, rest)) :
    isCompound v = false := by
  unfold decimal? at h
  obtain ⟨⟨whole, more⟩, -, h⟩ := Option.bind_eq_some_iff.mp h
  dsimp only at h
  split at h
  · split at h
    · cases h
    · cases h
      rfl
  · cases h
    rfl
  · cases h
    rfl

theorem isCompound_of_special? {t rest : Text} {v : Value} (h : special? t = some (v, rest)) :
    isCompound v = false := by
  unfold special? at h
  dsimp only at h
  split at h
  · cases h
    rfl
  · cases h
    rfl
  · cases h

/-- A date, a time or a number is no array and no table. -/
theorem isCompound_of_scalar? {t rest : Text} {v : Value} (h : scalar? t = some (.ok v, rest)) :
    isCompound v = false := by
  unfold scalar? at h
  split at h
  · next hdate =>
    cases h
    exact isCompound_of_dateTime? hdate
  · split at h
    · cases h
      rfl
    · split at h
      · cases h
        rfl
      · split at h
        · next hdecimal =>
          cases h
          exact isCompound_of_decimal? hdecimal
        · obtain ⟨⟨w, more⟩, hspecial, heq⟩ := Option.map_eq_some_iff.mp h
          cases heq
          exact isCompound_of_special? hspecial

/-- A new entry, where there is none with its key. -/
theorem distinct_setNew {stem : Text} {v : Value} (hv : v.Distinct) (t u : Table) (ht : t.Distinct)
    (h : (if (t.get? stem).isSome then none else some (t.set stem v)) = some u) : u.Distinct := by
  split at h
  · cases h
  · cases h
    exact ht.set hv

theorem distinct_setInline {frozen : List Key} {key : Key} {v : Value} {t u : Table}
    (ht : t.Distinct) (hv : v.Distinct) (h : setInline frozen key v t = .ok u) : u.Distinct := by
  unfold setInline at h
  dsimp only at h
  split at h
  · cases h
  · split at h
    · cases h
    · split at h
      · cases h
      · next hu =>
        cases h
        exact ht.update (distinct_setNew hv) hu

/-- **All values, arrays and tables that are read have distinct keys in all their tables.** -/
theorem ensures_readValues (fuel : Nat) :
    (∀ weight, Ensures (readValue weight fuel) Value.Distinct) ∧
    (∀ weight, Ensures (readElements weight fuel) fun vs => ∀ v ∈ vs, v.Distinct) ∧
    ∀ weight frozen t, Table.Distinct t →
      Ensures (readEntries weight frozen t fuel) Table.Distinct := by
  -- All three at once: what is inside an array or a table is read with less fuel.
  induction fuel with
  | zero =>
    refine ⟨fun weight => ?_, fun weight => ?_, fun weight frozen t ht => ?_⟩
    · exact .fail _
    · exact .fail _
    · exact .fail _
  | succ fuel ih =>
    obtain ⟨ihv, ihe, iht⟩ := ih
    refine ⟨fun weight => ?_, fun weight => ?_, fun weight frozen t ht => ?_⟩
    · unfold readValue
      refine .ite (.fail_bind _) (.skip _ fun rest => ?_)
      split
      · exact .skip _ fun _ => .ite (.skip _ fun _ => .pure (.plain rfl))
          (.skip _ fun _ => .pure (.plain rfl))
      · exact .skip _ fun _ => .ite (.skip _ fun _ => .pure (.plain rfl))
          (.skip _ fun _ => .pure (.plain rfl))
      · exact .skip _ fun _ => .pure (.plain rfl)
      · exact .skip _ fun _ => .pure (.plain rfl)
      · refine .skip _ fun _ => .skip _ fun _ => .skip _ fun _ => .ite ?_ ?_
        · exact .skip _ fun _ => .pure (.array fun _ h => nomatch h)
        · exact (ihe _).bind fun vs hvs => .pure (.array hvs)
      · refine .skip _ fun _ => .skip _ fun _ => .skip _ fun _ => .ite ?_ ?_
        · exact .skip _ fun _ => .pure Table.distinct_nil.value
        · exact (iht _ _ _ Table.distinct_nil).bind fun t ht => .pure ht.value
      · split
        · next hscalar => exact .skip _ fun _ => .pure (.plain (isCompound_of_scalar? hscalar))
        · exact .fail _
        · exact .fail _
    · unfold readElements
      refine (ihv _).bind fun v hv => .skip _ fun _ => .skip _ fun next => ?_
      have hone : ∀ w ∈ [v], w.Distinct := by simpa using hv
      split
      · exact .skip _ fun _ => .pure hone
      · refine .skip _ fun _ => .skip _ fun _ => .skip _ fun _ => .ite ?_ ?_
        · exact .skip _ fun _ => .pure hone
        · exact (ihe _).bind fun vs hvs => .pure (List.forall_mem_cons.mpr ⟨hv, hvs⟩)
      · exact .fail _
    · unfold readEntries
      refine .skip _ fun key => .skip _ fun _ => .ite ?_ (.fail_bind _)
      refine .skip _ fun _ => .skip _ fun _ => (ihv _).bind fun v hv => ?_
      -- The entry may be refused. If it is not, reading goes on with the larger table.
      dsimp only
      cases hset : setInline frozen key v t with
      | error p => exact .fail_bind _
      | ok u =>
        refine (Ensures.pure (distinct_setInline ht hv hset)).bind fun u hu => ?_
        refine .skip _ fun _ => .skip _ fun _ => ?_
        split
        · exact .skip _ fun _ => .pure hu
        · exact .skip _ fun _ => .skip _ fun _ => iht _ _ _ hu
        · exact .fail _

/-! ## Documents -/

namespace Document

variable {d d' : Document} {key : Key}

theorem distinct_openTable (hd : d.root.Distinct) (h : d.openTable key = .ok d') :
    d'.root.Distinct := by
  unfold openTable at h
  split at h
  · cases h
  · split at h
    · cases h
    · next hroot =>
      cases h
      refine hd.update (fun t u ht hu => ?_) hroot
      cases hu
      exact ht

theorem distinct_appendTable {stem : Text} (t u : Table) (ht : t.Distinct)
    (h : appendTable stem t = some u) : u.Distinct := by
  have hnew : (Value.table []).Distinct := Table.distinct_nil.value
  unfold appendTable at h
  split at h
  · cases h
    exact ht.set (.array (by simpa using hnew))
  · next vs hvs =>
    cases h
    refine ht.set (.array fun v hv => ?_)
    rcases List.mem_append.mp hv with hv | hv
    · exact Table.distinct_of_array (ht.get? hvs) v hv
    · rw [List.mem_singleton.mp hv]
      exact hnew
  · cases h

theorem distinct_openArrayTable (hd : d.root.Distinct) (h : d.openArrayTable key = .ok d') :
    d'.root.Distinct := by
  unfold openArrayTable at h
  split at h
  · cases h
  · dsimp only at h
    split at h
    · cases h
    · next hroot =>
      cases h
      exact hd.update distinct_appendTable hroot

theorem distinct_setKey {v : Value} (hd : d.root.Distinct) (hv : v.Distinct)
    (h : d.setKey key v = .ok d') : d'.root.Distinct := by
  unfold setKey at h
  dsimp only at h
  split at h
  · cases h
  · split at h
    · cases h
    · split at h
      · cases h
      · next hroot =>
        cases h
        exact hd.update (distinct_setNew hv) hroot

end Document

theorem ensures_accept {r : Except Problem Document} {Q : Document → Prop}
    (h : ∀ d, r = .ok d → Q d) : Ensures (accept r) Q := by
  unfold accept
  cases r with
  | ok d => exact .pure (h d rfl)
  | error p => exact .fail p

variable {d : Document}

theorem ensures_readPair (hd : d.root.Distinct) (bound : Nat) :
    Ensures (readPair d bound) fun d => d.root.Distinct := by
  unfold readPair
  refine .skip _ fun key => .skip _ fun _ => .ite ?_ (.fail_bind _)
  refine .skip _ fun _ => .skip _ fun _ => ((ensures_readValues _).1 _).bind fun v hv => ?_
  exact ensures_accept fun _ => Document.distinct_setKey hd hv

theorem ensures_readTableHeader (hd : d.root.Distinct) (bound : Nat) :
    Ensures (readTableHeader d bound) fun d => d.root.Distinct := by
  unfold readTableHeader
  refine .skip _ fun _ => .skip _ fun _ => .skip _ fun key => ?_
  refine (ensures_accept fun _ => Document.distinct_openTable hd).bind fun d hd => ?_
  exact .skip _ fun _ => .ite (.skip _ fun _ => .pure hd) (.fail_bind _)

theorem ensures_readArrayHeader (hd : d.root.Distinct) (bound : Nat) :
    Ensures (readArrayHeader d bound) fun d => d.root.Distinct := by
  unfold readArrayHeader
  refine .skip _ fun _ => .skip _ fun _ => .skip _ fun key => ?_
  refine (ensures_accept fun _ => Document.distinct_openArrayTable hd).bind fun d hd => ?_
  exact .skip _ fun _ => .ite (.skip _ fun _ => .pure hd) (.fail_bind _)

/-- A statement keeps the keys of the document distinct. -/
theorem ensures_readStatement (hd : d.root.Distinct) (c : Char) (bound : Nat) :
    Ensures (readStatement d c bound) fun d => d.root.Distinct := by
  unfold readStatement
  refine .ite (ensures_readPair hd bound) (.ite ?_ (.ite (.pure hd) (.fail _)))
  refine .skip _ fun _ => .ite ?_ ?_
  · exact ensures_readArrayHeader (d := d.endSection) hd bound
  · exact ensures_readTableHeader (d := d.endSection) hd bound

theorem ensures_readStatements (hd : d.root.Distinct) (fuel : Nat) :
    Ensures (readStatements d fuel) fun d => d.root.Distinct := by
  induction fuel generalizing d with
  | zero => exact .pure hd
  | succ fuel ih =>
    unfold readStatements
    refine .skip _ fun _ => .skip _ fun _ => ?_
    split
    · exact .pure hd
    · exact .skip _ fun _ => ih hd
    · refine (ensures_readStatement hd _ _).bind fun d hd => ?_
      refine .skip _ fun _ => .skip _ fun _ => .skip _ fun _ => ?_
      split
      · exact .pure hd
      · exact .skip _ fun _ => ih hd
      · exact .fail _

/-- **The tables of a document have distinct keys.** -/
theorem distinct_of_read {document : Text} {root : Table} (h : read document = .ok root) :
    root.Distinct := by
  unfold read at h
  split at h
  · next d rest hrun =>
    cases h
    exact ensures_readStatements Table.distinct_nil _ document d rest hrun
  · cases h

end Toml
end Pyramid
