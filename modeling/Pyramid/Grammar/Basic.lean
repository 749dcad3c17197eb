import Pyramid.Production
import Pyramid.SortedSet
import Std.Data.TreeMap

/-!
# Grammars

A grammar is a list of productions, in the order in which they were given and with repetitions,
together with a table that leads from the canonical text of a body to the productions with that
body. The table is a function of the list (`Grammar.table_eq`), and a look-up in it finds exactly
the listed productions of that key (`Grammar.mem_lookup`).

Specification §3 and §4.1: this is the grammar index. `Grammar.withBody` is its look-up by body, and
a `BodyName` is what may be given there: one text, or the symbols apart.
-/

namespace Pyramid

open Text

/-- Productions by the key of their body. -/
abbrev BodyTable := Std.TreeMap Text (SortedSet Production)

namespace BodyTable

/-- The productions with a given key. -/
def find (t : BodyTable) (key : Text) : SortedSet Production := t.getD key ∅

/-- The table with one more production. -/
def add (t : BodyTable) (p : Production) : BodyTable := t.insert p.key ((t.find p.key).insert p)

/-- The table of a list of productions. -/
def ofProductions (ps : List Production) : BodyTable := ps.foldl add ∅

theorem mem_find_add {t : BodyTable} {p q : Production} {key : Text} :
    q ∈ (t.add p).find key ↔ (q = p ∧ p.key = key) ∨ q ∈ t.find key := by
  simp only [find, add, Std.TreeMap.getD_insert, Std.LawfulEqOrd.compare_eq_iff_eq]
  split
  · rename_i h
    subst h
    simp
  · rename_i h
    simp [h]

theorem mem_find_foldl {ps : List Production} {t : BodyTable} {q : Production} {key : Text} :
    q ∈ (ps.foldl add t).find key ↔ (q ∈ ps ∧ q.key = key) ∨ q ∈ t.find key := by
  induction ps generalizing t with
  | nil => simp
  | cons p ps ih =>
    simp only [List.foldl_cons, ih, mem_find_add, List.mem_cons]
    grind

theorem mem_find_ofProductions {ps : List Production} {q : Production} {key : Text} :
    q ∈ (ofProductions ps).find key ↔ q ∈ ps ∧ q.key = key := by
  have : q ∉ (∅ : BodyTable).find key := by simp [find]
  simp [ofProductions, mem_find_foldl, this]

end BodyTable

/-- A grammar in Chomsky normal form. -/
structure Grammar where
  /-- The productions as given: in order, with repetitions. -/
  productions : List Production
  /-- The productions by body. -/
  table : BodyTable := BodyTable.ofProductions productions
  table_eq : table = BodyTable.ofProductions productions := by rfl

namespace Grammar

/-- The grammar of a list of productions. -/
def ofProductions (ps : List Production) : Grammar := { productions := ps }

@[simp] theorem productions_ofProductions (ps : List Production) :
    (ofProductions ps).productions = ps := rfl

/-- Grammars are the same when their productions are. -/
theorem ext_productions {g h : Grammar} (e : g.productions = h.productions) : g = h := by
  obtain ⟨ps, t, ht⟩ := g
  obtain ⟨qs, u, hu⟩ := h
  subst e ht hu
  rfl

/-! ## Look-up -/

/-- The productions whose body has the given key. -/
def lookup (g : Grammar) (key : Text) : SortedSet Production := g.table.find key

/-- **A look-up finds the listed productions of that key, and no others.** -/
@[simp] theorem mem_lookup {g : Grammar} {p : Production} {key : Text} :
    p ∈ g.lookup key ↔ p ∈ g.productions ∧ p.key = key := by
  rw [lookup, g.table_eq, BodyTable.mem_find_ofProductions]

/-- The two ways of naming a body in a look-up. -/
inductive BodyName where
  /-- By one text. If it holds a space it is cut into fields at blanks of any kind, otherwise it is
  one symbol, blanks and all. -/
  | text (t : Text)
  /-- By its symbols. -/
  | symbols (ss : List Text)
deriving DecidableEq, Repr

/-- The key that a body name stands for. -/
def BodyName.key : BodyName → Text
  | .text t => if ' ' ∈ t then join " " (fields t) else t
  | .symbols ss => join " " ss

/-- The productions with the named body. -/
def withBody (g : Grammar) (b : BodyName) : SortedSet Production := g.lookup b.key

/-! ## Symbols and size -/

/-- The number of productions, repetitions counted. -/
def size (g : Grammar) : Nat := g.productions.length

/-- The heads of all productions. -/
def heads (g : Grammar) : SortedSet Text := .ofList (g.productions.map (·.head))

/-- The terminals of all one-symbol bodies. -/
def terminals (g : Grammar) : SortedSet Text :=
  .ofList (g.productions.filterMap fun p => match p.body with
    | .terminal a => some a
    | .pair _ _ => none)

/-- The grammar as text, one production on a line. -/
def text (g : Grammar) : Text := join "\n" (g.productions.map (·.text))

/-- Makes a grammar from pairs of a head and a body; the first pair that makes no production is the
defect. -/
def ofPairs (pairs : List (Text × Text)) : Except Production.Defect Grammar :=
  ofProductions <$> pairs.mapM fun (head, body) => Production.ofTexts head body

end Grammar
end Pyramid
