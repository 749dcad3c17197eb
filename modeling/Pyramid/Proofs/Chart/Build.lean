import Mathlib
import Pyramid.Proofs.Chart.Content
import Pyramid.Proofs.Chart.Run

/-!
# Builds in progress

A build is what is left to do of the growing of a chart, cut at every place where it turns to
something outside: it asks for the node of a text and goes on with the node it is given, or it
enters a line in the journal. Between two such places it works on its own rows alone, so nobody can
tell how these are stored.

`Grammar.chart` is the whole build of a word. Carried out by a solver without a pause it is
`Solver.chart` (`run_chart`); what it is good for is to be carried out with pauses.

`Build.Safe` says that a build comes to a good end if it is only ever given sound nodes, from
wherever they come, and that it can make for itself every node that it asks for. The build of a word
is safe (`safe_chart`).
-/

namespace Pyramid

open Text

/-- What is left to do, with a result of type `α` at the end. -/
inductive Build (α : Type) where
  | done (a : α)
  | fail (f : Failure)
  /-- Asks for the node of a text. If there is none it is to be made as told. -/
  | request (text : Text) (make : Stamp → Except Failure Node) (next : Node → Build α)
  /-- Enters a message in the journal. -/
  | note (severity : Severity) (message : Text) (next : Build α)

namespace Build

variable {α β : Type}

def bind (p : Build α) (f : α → Build β) : Build β :=
  match p with
  | .done a => f a
  | .fail e => .fail e
  | .request text make next => .request text make fun n => (next n).bind f
  | .note severity message next => .note severity message (next.bind f)

instance : Monad Build where
  pure := .done
  bind := bind

/-- Asks for a node and has it for the result. -/
def ask (text : Text) (make : Stamp → Except Failure Node) : Build Node := .request text make .done

/-- Enters a message and has no result. -/
def enter (severity : Severity) (message : Text) : Build Unit := .note severity message (.done ())

/-- Carries out a build without a pause. -/
def run (s : Solver) : Build α → Act Bench α
  | .done a => return a
  | .fail f => throw f
  | .request text make next => do
    let n ← s.obtain text make
    (next n).run s
  | .note severity message next => do
    s.note severity message
    next.run s

theorem run_bind (s : Solver) (p : Build α) (f : α → Build β) :
    (p >>= f).run s = p.run s >>= fun a => (f a).run s := by
  show (p.bind f).run s = _
  induction p with
  | done a => rw [bind, run, pure_bind]
  | fail e => rfl
  | request text make next ih =>
    rw [bind, run, run, bind_assoc]
    congr 1
    funext n
    exact ih n
  | note severity message next ih =>
    rw [bind, run, run, bind_assoc, ih]

theorem run_pure (s : Solver) (a : α) : (pure a : Build α).run s = pure a := rfl

theorem run_ask (s : Solver) (text : Text) (make : Stamp → Except Failure Node) :
    (ask text make).run s = s.obtain text make := by
  rw [ask, run]
  exact bind_pure _

theorem run_enter (s : Solver) (severity : Severity) (message : Text) :
    (enter severity message).run s = s.note severity message := by
  rw [enter, run]
  exact bind_pure _

end Build

/-! ## The build of a word -/

namespace Grammar

def seedRow (g : Grammar) : (word : Text) → Build Row
  | [] => return []
  | c :: word => do
    let n ← .ask [c] fun stamp => .ok (g.seed c stamp)
    return n :: (← g.seedRow word)

def growRow (g : Grammar) (span : Nat) (word : Text) : Row → Build Row
  | left :: right :: row => do
    let text := word.take span
    let n ← .ask text (g.combine left right text)
    return n :: (← g.growRow span word.tail (right :: row))
  | _ => return []

/-- The next `count` rows above a row that stands at `height`. -/
def growRows (g : Grammar) (word : Text) (height : Nat) (row : Row) : (count : Nat) →
    Build (List Row)
  | 0 => return []
  | count + 1 => do
    let above ← g.growRow (height + 2) word row
    .enter .debug (Solver.rowMessage word (height + 1) above)
    return above :: (← g.growRows word (height + 1) above count)

def chart (g : Grammar) (word : Text) : Build (List Row) :=
  if word = [] then .fail (.fault Solver.emptyWord)
  else do
    let row ← g.seedRow word
    return row :: (← g.growRows word 0 row (word.length - 1))

end Grammar

namespace Solver

variable (s : Solver)

theorem run_seedRow (word : Text) : (s.grammar.seedRow word).run s = s.seedRow word := by
  induction word with
  | nil => rfl
  | cons c word ih =>
    unfold Grammar.seedRow Solver.seedRow
    simp only [Build.run_bind, Build.run_ask, Build.run_pure, ih]

theorem run_growRow (span : Nat) (word : Text) (row : Row) :
    (s.grammar.growRow span word row).run s = s.growRow span word row := by
  induction row generalizing word with
  | nil => rfl
  | cons left row ih =>
    cases row with
    | nil => rfl
    | cons right row =>
      unfold Grammar.growRow Solver.growRow
      simp only [Build.run_bind, Build.run_ask, Build.run_pure, ih]
      rfl

theorem run_growRows (word : Text) (height : Nat) (row : Row) (count : Nat) :
    (s.grammar.growRows word height row count).run s = s.growRows word height row count := by
  induction count generalizing height row with
  | zero => rfl
  | succ count ih =>
    unfold Grammar.growRows Solver.growRows
    simp only [Build.run_bind, Build.run_enter, Build.run_pure, run_growRow, ih]

/-- **Without a pause, the build of a word is the solver's chart of it.** -/
theorem run_chart (word : Text) : (s.grammar.chart word).run s = s.chart word := by
  unfold Grammar.chart Solver.chart
  by_cases hw : word = []
  · rw [if_pos hw, if_pos hw]
    rfl
  · rw [if_neg hw, if_neg hw]
    simp only [Build.run_bind, Build.run_pure, run_seedRow, run_growRows]

end Solver

/-! ## Safe builds -/

namespace Build

variable {α β : Type} {g : Grammar} {E : Failure → Prop} {Q : α → Prop} {R : β → Prop}

/-- However sound nodes are handed to the build, it ends with a result of which `Q` holds or with a
failure of which `E` does; and if it is handed none, it can make a sound one. -/
def Safe (g : Grammar) (E : Failure → Prop) (Q : α → Prop) : Build α → Prop
  | .done a => Q a
  | .fail f => E f
  | .request text make next =>
    (∀ stamp, ∃ n, make stamp = .ok n ∧ g.Sound text n) ∧
      ∀ n, g.Sound text n → (next n).Safe g E Q
  | .note _ _ next => next.Safe g E Q

theorem Safe.bind {p : Build α} {f : α → Build β} (h : p.Safe g E Q)
    (hf : ∀ a, Q a → (f a).Safe g E R) : (p >>= f).Safe g E R := by
  show (p.bind f).Safe g E R
  induction p with
  | done a => exact hf a h
  | fail e => exact h
  | request text make next ih => exact ⟨h.1, fun n hn => ih n (h.2 n hn)⟩
  | note severity message next ih => exact ih h

theorem Safe.pure {a : α} (h : Q a) : (pure a : Build α).Safe g E Q := h

theorem safe_ask {text : Text} {make : Stamp → Except Failure Node}
    (h : ∀ stamp, ∃ n, make stamp = .ok n ∧ g.Sound text n) :
    (ask text make).Safe g E (g.Sound text) := ⟨h, fun _ hn => hn⟩

theorem safe_enter (severity : Severity) (message : Text) :
    (enter severity message).Safe g E fun _ => True := trivial

end Build

namespace Grammar

variable {g h : Grammar} {E : Failure → Prop} {word : Text}

/-- The rows are, one by one, sound nodes for the windows of the word at the given heights. -/
def SoundRows (g : Grammar) (word : Text) (heights : List Nat) (rows : List Row) : Prop :=
  List.Forall₂ (fun k row => List.Forall₂ g.Sound (windows (k + 1) word) row) heights rows

theorem safe_seedRow (hsame : h.SameProductions g) (word : Text) :
    (h.seedRow word).Safe g E fun row => List.Forall₂ g.Sound (windows 1 word) row := by
  induction word with
  | nil => exact .pure .nil
  | cons c word ih =>
    refine (Build.safe_ask fun stamp => ⟨_, rfl, sound_seed hsame c stamp⟩).bind ?_
    intro n hn
    refine ih.bind ?_
    intro row hrow
    rw [windows_cons c (by omega)]
    exact .pure (.cons hn hrow)

theorem safe_growRow (hsame : h.SameProductions g) {k : Nat} {row : Row}
    (hrow : List.Forall₂ g.Sound (windows (k + 1) word) row) :
    (h.growRow (k + 2) word row).Safe g E fun above =>
      List.Forall₂ g.Sound (windows (k + 2) word) above := by
  have hlen : row.length = word.length - k := by
    rw [← hrow.length_eq, length_windows]
    omega
  induction row generalizing word with
  | nil =>
    rw [windows_eq_nil (by rw [List.length_nil] at hlen; omega)]
    exact .pure .nil
  | cons left row ih =>
    cases row with
    | nil =>
      rw [windows_eq_nil (by rw [List.length_singleton] at hlen; omega)]
      exact .pure .nil
    | cons right row =>
      rw [List.length_cons, List.length_cons] at hlen
      obtain ⟨c, word, rfl⟩ : ∃ c cs, word = c :: cs :=
        List.exists_cons_of_ne_nil (by rintro rfl; simp at hlen)
      rw [List.length_cons] at hlen
      obtain ⟨hfirst, us, hsecond⟩ := windows_neighbours (k := k) (t := word) c (by omega)
      rw [hfirst] at hrow
      obtain ⟨hleft, hrest⟩ := List.forall₂_cons.mp hrow
      have hright := (List.forall₂_cons.mp (hsecond ▸ hrest)).1
      have htwo : 2 ≤ ((c :: word).take (k + 2)).length := by
        rw [List.length_take, List.length_cons]
        omega
      refine (Build.safe_ask (exists_sound_combine hsame htwo hleft hright)).bind ?_
      intro n hn
      refine (ih hrest (by rw [List.length_cons]; omega)).bind ?_
      intro above habove
      rw [windows_cons c (by omega)]
      exact .pure (.cons hn habove)

theorem safe_growRows (hsame : h.SameProductions g) {k : Nat} {row : Row}
    (hrow : List.Forall₂ g.Sound (windows (k + 1) word) row) (count : Nat) :
    (h.growRows word k row count).Safe g E fun rows =>
      g.SoundRows word (List.range' (k + 1) count) rows := by
  induction count generalizing k row with
  | zero => exact .pure .nil
  | succ count ih =>
    refine (safe_growRow hsame hrow).bind ?_
    intro above habove
    refine (Build.safe_enter _ _).bind ?_
    intro _ _
    refine (ih habove).bind ?_
    intro rows hrows
    rw [List.range'_succ]
    exact .pure (.cons habove hrows)

/-- The rows are those of a chart of the word, all their nodes sound. -/
structure IsChart (g : Grammar) (word : Text) (rows : List Row) : Prop where
  ne_nil : word ≠ []
  sound : g.SoundRows word (List.range word.length) rows

/-- **The build of a word is safe**, and its result is a chart of the word. It fails only for the
empty word. -/
theorem safe_chart (hsame : h.SameProductions g) (hE : word = [] → E (.fault Solver.emptyWord)) :
    (h.chart word).Safe g E (g.IsChart word) := by
  unfold Grammar.chart
  by_cases hw : word = []
  · rw [if_pos hw]
    exact hE hw
  · rw [if_neg hw]
    obtain ⟨m, hm⟩ : ∃ m, word.length = m + 1 :=
      Nat.exists_eq_succ_of_ne_zero (by simpa using hw)
    rw [hm, Nat.add_sub_cancel]
    refine (safe_seedRow hsame word).bind ?_
    intro row hrow
    refine (safe_growRows hsame hrow m).bind ?_
    intro rows hrows
    refine .pure ⟨hw, ?_⟩
    rw [hm, List.range_eq_range', List.range'_succ]
    exact .cons hrow hrows

end Grammar
end Pyramid
