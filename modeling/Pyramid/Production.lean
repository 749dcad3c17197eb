import Pyramid.Fault
import Pyramid.Text.Blank
import Pyramid.Text.Quoted

/-!
# Productions in Chomsky normal form

A production has a head, which is one variable, and a body of one terminal or of two variables. A
production is made from two texts by `Production.ofTexts`, which strips blanks around the head and
around each symbol of the body; the body is cut at spaces only, so another blank may stand inside a
symbol of it. Heads hold no blank at all.

Two productions are equal exactly when their heads and their keys are (`Production.ext_key`), so a
production's written form `head->key` identifies it.

Specification §3: the productions of the data model. The number of symbols is checked as §4.1 asks.
-/

namespace Pyramid

open Text

/-! ## Symbols -/

/-- A variable's name: not empty and without blanks. -/
def IsName (t : Text) : Prop := t ≠ [] ∧ ∀ c ∈ t, isBlank c = false

/-- A symbol of a body: not empty, without spaces, and with no blank at either end. -/
def IsSymbol (t : Text) : Prop := t ≠ [] ∧ ' ' ∉ t ∧ IsTrimmed t

instance (t : Text) : Decidable (IsName t) :=
  decidable_of_iff (t ≠ [] ∧ (t.all fun c => !isBlank c) = true) (by simp [IsName])

instance (t : Text) : Decidable (IsSymbol t) := inferInstanceAs (Decidable (_ ∧ _))

/-- Every variable can be a symbol of a body. -/
theorem IsName.isSymbol {t : Text} (h : IsName t) : IsSymbol t := by
  refine ⟨h.1, fun hs => ?_, fun c hc => ?_, fun c hc => ?_⟩
  · have := h.2 ' ' hs
    simp [isBlank_space] at this
  · exact h.2 c (List.mem_of_head? hc)
  · exact h.2 c (List.mem_of_getLast? hc)

/-! ## Bodies -/

/-- What a variable is replaced by. -/
inductive Body where
  /-- One terminal. -/
  | terminal (a : Text)
  /-- Two variables, one after the other. -/
  | pair (b c : Text)
deriving DecidableEq, Repr

namespace Body

/-- The symbols of a body, in order. -/
def symbols : Body → List Text
  | .terminal a => [a]
  | .pair b c => [b, c]

/-- The canonical text of a body: its symbols with one space between them. -/
def key (b : Body) : Text := join " " b.symbols

@[simp] theorem key_terminal (a : Text) : (terminal a).key = a := by simp [key, symbols]

@[simp] theorem key_pair (b c : Text) : (pair b c).key = b ++ ' ' :: c := by
  simp [key, symbols]

/-- Is the body a single terminal? -/
def isTerminal : Body → Bool
  | .terminal _ => true
  | .pair _ _ => false

theorem symbols_injective {x y : Body} (h : x.symbols = y.symbols) : x = y := by
  cases x <;> cases y <;> simp_all [symbols]

end Body

/-! ## Productions -/

/-- A production `head → body`. -/
structure Production where
  head : Text
  body : Body
  head_name : IsName head
  body_symbols : ∀ s ∈ body.symbols, IsSymbol s
deriving DecidableEq

namespace Production

@[ext] theorem ext {p q : Production} (hh : p.head = q.head) (hb : p.body = q.body) : p = q := by
  cases p; cases q; simp_all

/-- The canonical text of the body. -/
def key (p : Production) : Text := p.body.key

/-- What stands between head and body. -/
def arrow : Text := "->"

/-- The written form, `head->key`. -/
def text (p : Production) : Text := p.head ++ arrow ++ p.key

/-- The form in which the parts are told apart whatever they hold. -/
def quotedText (p : Production) : Text :=
  "Production(" ++ quoted p.head ++ ", " ++ quoted p.key ++ ")"

/-! ### Order -/

/-- Productions are ordered by head, then by the symbols of the body. -/
instance : Ord Production := ⟨compareLex (compareOn head) (compareOn (·.body.symbols))⟩

instance : Std.TransOrd Production :=
  inferInstanceAs (Std.TransCmp (compareLex (compareOn head) (compareOn (·.body.symbols))))

instance : Std.LawfulEqOrd Production where
  eq_of_compare {p q} h := by
    have h' : compareLex (compareOn head) (compareOn (·.body.symbols)) p q = .eq := h
    simp only [compareLex, Ordering.then_eq_eq, compareOn, Std.LawfulEqOrd.compare_eq_iff_eq] at h'
    exact ext h'.1 (Body.symbols_injective h'.2)

/-! ### Keys determine bodies -/

/-- Two bodies of symbols with the same key are the same body. -/
theorem body_eq_of_key {x y : Body} (hx : ∀ s ∈ x.symbols, IsSymbol s)
    (hy : ∀ s ∈ y.symbols, IsSymbol s) (h : x.key = y.key) : x = y := by
  have space : ∀ {a b c : Text}, ' ' ∉ a → a ≠ b ++ ' ' :: c := by
    intro a b c ha hab
    exact ha (by simp [hab])
  cases x with
  | terminal a =>
    cases y with
    | terminal b => simpa using h
    | pair b c => exact absurd (by simpa using h) (space (hx a (by simp [Body.symbols])).2.1)
  | pair b c =>
    cases y with
    | terminal a =>
      exact absurd (by simpa using h.symm) (space (hy a (by simp [Body.symbols])).2.1)
    | pair b' c' =>
      have hb : ' ' ∉ b := (hx b (by simp [Body.symbols])).2.1
      have hb' : ' ' ∉ b' := (hy b' (by simp [Body.symbols])).2.1
      have h' : b ++ ' ' :: c = b' ++ ' ' :: c' := by simpa using h
      have hcut : b = b' ∧ c = c' := by
        rcases List.append_eq_append_iff.mp h' with ⟨m, rfl, hm⟩ | ⟨m, rfl, hm⟩
        · cases m with
          | nil => simp_all
          | cons d m => simp_all
        · cases m with
          | nil => simp_all
          | cons d m => simp_all
      simp [hcut]

/-- **A production is determined by its head and its key.** -/
theorem ext_key {p q : Production} (hh : p.head = q.head) (hk : p.key = q.key) : p = q :=
  ext hh (body_eq_of_key p.body_symbols q.body_symbols hk)

/-! ### Making a production -/

/-- Why two texts do not make a production. -/
inductive Defect where
  /-- The head is not one variable. -/
  | notVariable (given : Text)
  /-- The body given for a variable does not have one or two symbols. -/
  | bodySize (body name : Text) (count : Nat)
deriving DecidableEq, Repr

/-- A defect in words. -/
def Defect.message : Defect → Text
  | .notVariable given => "'" ++ given ++ "' is not a single variable symbol"
  | .bodySize body name count =>
    "body '" ++ body ++ "' of '" ++ name ++ "' has " ++ Text.ofNat count
      ++ " symbols, expected 1 or 2"

/-- A defect as a fault, on a numbered line or on none. -/
def Defect.fault (d : Defect) (line : Option Int) : Fault :=
  ⟨.malformedGrammar, d.message, line⟩

/-- The symbols in the text of a body: it is cut at spaces, and what is left of each piece without
blanks at its ends is a symbol unless nothing is left. -/
def symbolsIn (body : Text) : List Text := ((body.splitOn ' ').map strip).filter (· ≠ [])

theorem not_mem_of_mem_splitOnP {p : Char → Bool} {t piece : Text} {c : Char}
    (h : piece ∈ t.splitOnP p) (hc : c ∈ piece) : p c = false := by
  induction t generalizing piece with
  | nil => simp_all
  | cons d t ih =>
    rw [List.splitOnP_cons_eq_if_modifyHead] at h
    split at h
    · rcases List.mem_cons.mp h with rfl | h
      · simp at hc
      · exact ih h hc
    · rename_i hd
      cases hs : t.splitOnP p with
      | nil => simp [hs] at h
      | cons q qs =>
        simp only [hs, List.modifyHead_cons, List.mem_cons] at h ih
        rcases h with rfl | h
        · rcases List.mem_cons.mp hc with rfl | hc
          · simpa using hd
          · exact ih (Or.inl rfl) hc
        · exact ih (Or.inr h) hc

theorem isSymbol_of_mem_symbolsIn {s : Text} (body : Text) (h : s ∈ symbolsIn body) :
    IsSymbol s := by
  simp only [symbolsIn, List.mem_filter, List.mem_map, decide_eq_true_eq] at h
  obtain ⟨⟨piece, hp, rfl⟩, hne⟩ := h
  refine ⟨hne, fun hs => ?_, isTrimmed_strip piece⟩
  have := not_mem_of_mem_splitOnP hp (mem_of_mem_strip hs)
  simp at this

/-- Makes a production from the texts of its head and its body. The head is looked at first. -/
def ofTexts (head body : Text) : Except Defect Production :=
  let name := strip head
  if hn : IsName name then
    match hs : symbolsIn body with
    | [a] =>
      .ok ⟨name, .terminal a, hn, fun _ h => isSymbol_of_mem_symbolsIn body (hs ▸ h)⟩
    | [b, c] =>
      .ok ⟨name, .pair b c, hn, fun _ h => isSymbol_of_mem_symbolsIn body (hs ▸ h)⟩
    | symbols => .error (.bodySize body name symbols.length)
  else .error (.notVariable name)

/-! ### Productions do not change -/

/-- A request to change a part of a production. -/
inductive Change where
  | assign (part : Text)
  | remove (part : Text)
deriving DecidableEq, Repr

/-- Every such request is turned down. -/
def Change.refusal : Change → Text
  | .assign part => "Production is read-only, cannot set '" ++ part ++ "'"
  | .remove part => "Production is read-only, cannot delete '" ++ part ++ "'"

end Production
end Pyramid
