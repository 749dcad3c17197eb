import Mathlib
import Pyramid.Proofs.Chart.Workshop

/-!
# One caller at a store

A caller asks a store for nodes, one after another, and brings a computation along for each of them:
an `Errand`. The computation may fail, may make a node for another text, and may do whatever it
likes to a world of its own; it does not know of the store. Whether it was run shows in that world.

`Shared.serve` is a call as the store carries it out, with the lock of the text if the store is
guarded and without locks if it is not. A caller that is alone finds every lock free, and then both
ways come to the same as `Store.obtain` at one stroke (`serve_eq`): a call never waits.

So what a call can do is said once, for the store (`Store.serve_cases`), and runs of calls and
clearings follow step by step. `Shared.run_sequential` puts it together.
-/

namespace Pyramid

open Text

variable {ω : Type}

/-! ## Errands -/

/-- What a caller wants: the node of a text, and how it is made in a world of states `ω`. -/
structure Errand (ω : Type) where
  text : Text
  make : ω → Except Failure Node × ω

namespace Errand

/-- The errand in one state of the world, as an order to the store. -/
def order (e : Errand ω) (w : ω) : Order := ⟨e.text, fun _ => (e.make w).1⟩

variable {e : Errand ω} {w : ω}

/-- The computation makes the node that is wanted. -/
def Makes (e : Errand ω) (w : ω) (n : Node) : Prop := (e.make w).1 = .ok n ∧ n.text = e.text

/-- The computation leaves the caller without a node: it fails, or its node is for another text. -/
def Fails (e : Errand ω) (w : ω) (f : Failure) : Prop :=
  (e.make w).1 = .error f ∨
    ∃ n, (e.make w).1 = .ok n ∧ n.text ≠ e.text ∧ f = .foreignNode n.text e.text

theorem makes_or_fails (e : Errand ω) (w : ω) : (∃ n, e.Makes w n) ∨ ∃ f, e.Fails w f := by
  cases hmake : (e.make w).1 with
  | error f => exact .inr ⟨f, .inl hmake⟩
  | ok n =>
    by_cases htext : n.text = e.text
    · exact .inl ⟨n, hmake, htext⟩
    · exact .inr ⟨_, .inr ⟨n, hmake, htext, rfl⟩⟩

theorem Makes.outcome {n : Node} (h : e.Makes w n) (stamp : Stamp) :
    (e.order w).outcome stamp = .ok n := by
  simp only [Order.outcome, order, h.1, if_pos h.2]

theorem Fails.outcome {f : Failure} (h : e.Fails w f) (stamp : Stamp) :
    (e.order w).outcome stamp = .error f := by
  rcases h with hmake | ⟨n, hmake, htext, rfl⟩
  · simp only [Order.outcome, order, hmake]
  · simp only [Order.outcome, order, hmake, if_neg htext]

end Errand

variable {e : Errand ω} {w : ω}

/-! ## Calls at one stroke -/

namespace Store

variable {st st' : Store}

/-- A call at one stroke: the answer, the store, and the world. The computation is run only if the
store has no node. -/
def serve (st : Store) (e : Errand ω) (w : ω) : Except Failure Node × Store × ω :=
  let served := st.obtain (e.order w).text (e.order w).make
  (served.1, served.2, if (st.get? e.text).isSome then w else (e.make w).2)

theorem serve_of_some {n : Node} (h : st.get? e.text = some n) :
    st.serve e w = (.ok n, st.countHit, w) := by
  have hget : st.get? (e.order w).text = some n := h
  simp [serve, obtain_eq, hget, h]

theorem serve_of_makes {n : Node} (h : st.get? e.text = none) (hmakes : e.Makes w n) :
    st.serve e w = (.ok n, st.take n, (e.make w).2) := by
  have hget : st.get? (e.order w).text = none := h
  simp [serve, obtain_eq, hget, h, hmakes.outcome]

theorem serve_of_fails {f : Failure} (h : st.get? e.text = none) (hfails : e.Fails w f) :
    st.serve e w = (.error f, st, (e.make w).2) := by
  have hget : st.get? (e.order w).text = none := h
  simp [serve, obtain_eq, hget, h, hfails.outcome]

/-- **What a call can do.** The store has the node, or the computation makes it, or the caller gets
none and the store is as it was. -/
theorem serve_cases (st : Store) (e : Errand ω) (w : ω) :
    (∃ n, st.get? e.text = some n ∧ st.serve e w = (.ok n, st.countHit, w)) ∨
    (∃ n, st.get? e.text = none ∧ e.Makes w n ∧
      st.serve e w = (.ok n, st.take n, (e.make w).2)) ∨
    ∃ f, st.get? e.text = none ∧ e.Fails w f ∧ st.serve e w = (.error f, st, (e.make w).2) := by
  cases hget : st.get? e.text with
  | some n => exact .inl ⟨n, rfl, serve_of_some hget⟩
  | none =>
    rcases e.makes_or_fails w with ⟨n, hmakes⟩ | ⟨f, hfails⟩
    · exact .inr (.inl ⟨n, rfl, hmakes, serve_of_makes hget hmakes⟩)
    · exact .inr (.inr ⟨f, rfl, hfails, serve_of_fails hget hfails⟩)

end Store

/-! ## Calls with locks and without -/

namespace Shared

variable {sh : Shared}

/-- A new store, and no locks. -/
def new (number : Nat) (guarded : Bool) : Shared := { store := { number, guarded } }

/-- The text has no lock any more. -/
def forget (sh : Shared) (t : Text) : Shared := { sh with locks := sh.locks.erase t }

def countHit (sh : Shared) : Shared := { sh with store := sh.store.countHit }

/-- The store without its nodes, its counters at zero, and no text with a lock. -/
def clear (sh : Shared) : Shared := { sh with store := sh.store.clear, locks := ∅ }

/-- Runs the computation, and takes in its node if that is for the right text. -/
def compute (sh : Shared) (e : Errand ω) (w : ω) : Except Failure Node × Shared × ω :=
  match (e.make w).1 with
  | .error f => (.error f, sh, (e.make w).2)
  | .ok n =>
    if n.text = e.text then
      (.ok n, { sh with store := sh.store.issue.countMade.publish n }, (e.make w).2)
    else (.error (.foreignNode n.text e.text), sh, (e.make w).2)

/-- Under the lock of the text the store is looked at again before the node is computed. The lock is
forgotten when there is a new node. -/
def serveUnder (sh : Shared) (lock : Lock) (e : Errand ω) (w : ω) :
    Except Failure Node × Shared × ω :=
  match sh.store.get? e.text with
  | some n => (.ok n, sh.countHit.release lock, w)
  | none =>
    match sh.compute e w with
    | (.ok n, sh, w) => (.ok n, (sh.release lock).forget e.text, w)
    | (.error f, sh, w) => (.error f, sh.release lock, w)

/-- A call. Where the lock of the text is held already, nobody is there to release it: the call
waits for ever, and gives nothing. -/
def serve (sh : Shared) (e : Errand ω) (w : ω) : Option (Except Failure Node × Shared × ω) :=
  match sh.store.get? e.text with
  | some n => some (.ok n, sh.countHit, w)
  | none =>
    if sh.store.guarded then
      if (sh.lockFor e.text).1 ∈ (sh.lockFor e.text).2.held then none
      else some ((sh.enter e.text).serveUnder (sh.lockFor e.text).1 e w)
    else some (sh.compute e w)

theorem compute_of_makes {n : Node} (h : e.Makes w n) :
    sh.compute e w = (.ok n, { sh with store := sh.store.take n }, (e.make w).2) := by
  simp only [compute, h.1, if_pos h.2, Store.take_eq]

theorem compute_of_fails {f : Failure} (h : e.Fails w f) :
    sh.compute e w = (.error f, sh, (e.make w).2) := by
  rcases h with hmake | ⟨n, hmake, htext, rfl⟩
  · simp only [compute, hmake]
  · simp only [compute, hmake, if_neg htext]

theorem serve_of_some {n : Node} (h : sh.store.get? e.text = some n) :
    sh.serve e w = some (.ok n, sh.countHit, w) := by
  simp only [serve, h]

theorem serve_of_not_guarded (h : sh.store.get? e.text = none)
    (hguarded : ¬ sh.store.guarded = true) : sh.serve e w = some (sh.compute e w) := by
  simp only [serve, h, if_neg hguarded]

/-- Where all locks are free, that of the text is had at once, and there still is no node. -/
theorem serve_of_guarded (h : sh.store.get? e.text = none) (hguarded : sh.store.guarded = true)
    (hfree : sh.held = ∅) :
    sh.serve e w = some (match (sh.enter e.text).compute e w with
      | (.ok n, sh', w) => (.ok n, (sh'.release (sh.lockFor e.text).1).forget e.text, w)
      | (.error f, sh', w) => (.error f, sh'.release (sh.lockFor e.text).1, w)) := by
  have hlock : (sh.lockFor e.text).1 ∉ (sh.lockFor e.text).2.held := by simp [hfree]
  have hget : (sh.enter e.text).store.get? e.text = none := by simp [h]
  simp only [serve, h, if_pos hguarded, if_neg hlock, serveUnder, hget]

theorem held_release_enter (hfree : sh.held = ∅) (t : Text) :
    ((sh.enter t).release (sh.lockFor t).1).held = ∅ := by
  show (sh.enter t).held.erase _ = ∅
  simp [hfree]

/-- **A caller that is alone never waits.** Guarded or not, the store does what it does at one
stroke, and all locks are free again. -/
theorem serve_eq (hfree : sh.held = ∅) (e : Errand ω) (w : ω) :
    ∃ sh', sh.serve e w = some ((sh.store.serve e w).1, sh', (sh.store.serve e w).2.2) ∧
      sh'.store = (sh.store.serve e w).2.1 ∧ sh'.held = ∅ := by
  rcases sh.store.serve_cases e w with ⟨n, hget, hserve⟩ | ⟨n, hget, hmakes, hserve⟩ |
    ⟨f, hget, hfails, hserve⟩ <;> rw [hserve]
  · exact ⟨sh.countHit, serve_of_some hget, rfl, hfree⟩
  · by_cases hguarded : sh.store.guarded = true
    · rw [serve_of_guarded hget hguarded hfree, compute_of_makes hmakes]
      refine ⟨_, rfl, ?_, held_release_enter hfree e.text⟩
      show (sh.enter e.text).store.take n = _
      rw [store_enter]
    · rw [serve_of_not_guarded hget hguarded, compute_of_makes hmakes]
      exact ⟨_, rfl, rfl, hfree⟩
  · by_cases hguarded : sh.store.guarded = true
    · rw [serve_of_guarded hget hguarded hfree, compute_of_fails hfails]
      exact ⟨_, rfl, store_enter sh e.text, held_release_enter hfree e.text⟩
    · rw [serve_of_not_guarded hget hguarded, compute_of_fails hfails]
      exact ⟨_, rfl, rfl, hfree⟩

/-- On a guarded store the call goes through the phases of a call that nobody disturbs, and a node
is begun exactly if there was none. -/
theorem serve_alone (hfree : sh.held = ∅) (hguarded : sh.store.guarded = true) (e : Errand ω)
    (w : ω) :
    ∃ r sh' w' events, sh.serve e w = some (r, sh', w') ∧
      Alone (e.order w) sh .asked sh' (events ++ [.ended e.text r]) ∧
      (.begun e.text ∈ events ↔ sh.store.get? e.text = none) := by
  let lock := (sh.lockFor e.text).1
  rcases sh.store.serve_cases e w with ⟨n, hget, -⟩ | ⟨n, hget, hmakes, -⟩ | ⟨f, hget, hfails, -⟩
  · have hasked : Phase.step (e.order w) sh .asked = ⟨sh, some (.found n), []⟩ := by
      simp only [Phase.step, Errand.order, hget]
    exact ⟨_, _, _, [], serve_of_some hget, .next hasked (.last rfl), by simp [hget]⟩
  · have hmaking : Phase.step (e.order w) (sh.enter e.text) (.making lock)
        = ⟨{ sh.enter e.text with store := (sh.enter e.text).store.issue }, some (.made lock n),
          [.succeeded e.text]⟩ := by
      simp only [Phase.step, hmakes.outcome]
      rfl
    have hends : Alone (e.order w) (sh.enter e.text) (.making lock)
        (({ sh.enter e.text with store := (sh.enter e.text).store.take n }.release lock).forget
          e.text)
        ([.succeeded e.text] ++ ([] ++ ([.published e.text] ++ ([] ++ [.returned e.text n])))) :=
      .next hmaking (.next rfl (.next rfl (.next rfl (.last rfl))))
    rw [serve_of_guarded hget hguarded hfree, compute_of_makes hmakes]
    exact ⟨_, _, _, [.begun e.text, .succeeded e.text, .published e.text], rfl,
      .of_making hget hfree hends, by simp [hget]⟩
  · have hmaking : Phase.step (e.order w) (sh.enter e.text) (.making lock)
        = ⟨sh.enter e.text, some (.leaving lock (.error f)), []⟩ := by
      simp only [Phase.step, hfails.outcome]
    rw [serve_of_guarded hget hguarded hfree, compute_of_fails hfails]
    exact ⟨_, _, _, [.begun e.text], rfl, .of_making hget hfree (.next hmaking (.last rfl)),
      by simp [hget]⟩

end Shared

/-! ## Runs -/

/-- What a caller does next: it makes a call, or clears the store. -/
inductive Task (ω : Type) where
  | obtain (e : Errand ω)
  | clear

/-- What comes of it. -/
inductive Reply where
  | answered (r : Except Failure Node)
  | cleared

namespace Reply

/-- One reply more: a call that returns a node counts, a call that fails does not, and clearing
begins anew. -/
def tally (count : Nat) : Reply → Nat
  | .answered (.ok _) => count + 1
  | .answered (.error _) => count
  | .cleared => 0

/-- How many calls have returned a node since the last clearing, or since the beginning. -/
def returned (replies : List Reply) : Nat := replies.foldl tally 0

end Reply

namespace Store

/-- A task at one stroke. -/
def perform (st : Store) (w : ω) : Task ω → Reply × Store × ω
  | .obtain e => (.answered (st.serve e w).1, (st.serve e w).2)
  | .clear => (.cleared, st.clear, w)

/-- Tasks, one after another. -/
def run (st : Store) (w : ω) : List (Task ω) → List Reply × Store × ω
  | [] => ([], st, w)
  | task :: tasks =>
    let first := st.perform w task
    let rest := first.2.1.run first.2.2 tasks
    (first.1 :: rest.1, rest.2)

variable {st st' : Store} {count : Nat}

/-! ### The books -/

/-- Nodes are kept under their own texts, as many of them as were computed, and a hit or a
computation was counted for each of so many calls. -/
structure InOrder (st : Store) (count : Nat) : Prop where
  text_eq : ∀ t n, st.get? t = some n → n.text = t
  computations_eq : st.computations = st.size
  count_eq : st.hits + st.computations = count

theorem inOrder_new (number : Nat) (guarded : Bool) : InOrder { number, guarded } 0 where
  text_eq := by simp [get?]
  computations_eq := rfl
  count_eq := rfl

theorem inOrder_clear (st : Store) : st.clear.InOrder 0 where
  text_eq := by simp
  computations_eq := rfl
  count_eq := rfl

theorem InOrder.countHit (h : st.InOrder count) : st.countHit.InOrder (count + 1) where
  text_eq := h.text_eq
  computations_eq := h.computations_eq
  count_eq := by
    show st.hits + 1 + st.computations = count + 1
    have := h.count_eq
    omega

theorem InOrder.take (h : st.InOrder count) {n : Node} (absent : st.get? n.text = none) :
    (st.take n).InOrder (count + 1) where
  text_eq := by
    intro t m hm
    rw [get?_take] at hm
    by_cases htext : n.text = t
    · rw [if_pos htext] at hm
      cases hm
      exact htext
    · rw [if_neg htext] at hm
      exact h.text_eq t m hm
  computations_eq := by
    rw [size_take absent, ← h.computations_eq]
    rfl
  count_eq := by
    show st.hits + (st.computations + 1) = count + 1
    have := h.count_eq
    omega

theorem InOrder.perform (h : st.InOrder count) (w : ω) (task : Task ω) :
    (st.perform w task).2.1.InOrder (Reply.tally count (st.perform w task).1) := by
  cases task with
  | clear => exact inOrder_clear st
  | obtain e =>
    simp only [Store.perform]
    rcases st.serve_cases e w with
      ⟨n, -, hserve⟩ | ⟨n, hget, hmakes, hserve⟩ | ⟨f, -, -, hserve⟩ <;> rw [hserve]
    · exact h.countHit
    · exact h.take (hmakes.2 ▸ hget)
    · exact h

theorem InOrder.run (h : st.InOrder count) (w : ω) (tasks : List (Task ω)) :
    (st.run w tasks).2.1.InOrder ((st.run w tasks).1.foldl Reply.tally count) := by
  induction tasks generalizing st w count with
  | nil => exact h
  | cons task tasks ih => exact ih (h.perform w task) _

/-! ### What stays -/

theorem guarded_perform (st : Store) (w : ω) (task : Task ω) :
    (st.perform w task).2.1.guarded = st.guarded := by
  cases task with
  | clear => rfl
  | obtain e =>
    simp only [perform]
    rcases st.serve_cases e w with ⟨n, -, hserve⟩ | ⟨n, -, -, hserve⟩ | ⟨f, -, -, hserve⟩ <;>
      rw [hserve] <;> rfl

theorem guarded_run (st : Store) (w : ω) (tasks : List (Task ω)) :
    (st.run w tasks).2.1.guarded = st.guarded := by
  induction tasks generalizing st w with
  | nil => rfl
  | cons task tasks ih => exact (ih _ _).trans (guarded_perform st w task)

theorem keptIn_serve (st : Store) (e : Errand ω) (w : ω) : st.KeptIn (st.serve e w).2.1 := by
  rcases st.serve_cases e w with ⟨n, -, hserve⟩ | ⟨n, hget, hmakes, hserve⟩ | ⟨f, -, -, hserve⟩ <;>
    rw [hserve]
  · exact fun _ _ hn => hn
  · exact keptIn_take (hmakes.2 ▸ hget)
  · exact .refl st

theorem keptIn_run (st : Store) (w : ω) (es : List (Errand ω)) :
    st.KeptIn (st.run w (es.map .obtain)).2.1 := by
  induction es generalizing st w with
  | nil => exact .refl st
  | cons e es ih => exact (keptIn_serve st e w).trans (ih _ _)

/-! ### Stores that cannot be told apart -/

/-- The stores have the same nodes and the same counters. -/
structure Alike (st st' : Store) : Prop where
  nodes_eq : st.nodes = st'.nodes
  computations_eq : st.computations = st'.computations
  hits_eq : st.hits = st'.hits

theorem Alike.get?_eq (h : st.Alike st') (t : Text) : st.get? t = st'.get? t := by
  simp [get?, h.nodes_eq]

theorem alike_clear_new (st : Store) (number : Nat) (guarded : Bool) :
    st.clear.Alike { number, guarded } := ⟨rfl, rfl, rfl⟩

theorem Alike.serve (h : st.Alike st') (e : Errand ω) (w : ω) :
    (st.serve e w).1 = (st'.serve e w).1 ∧ (st.serve e w).2.1.Alike (st'.serve e w).2.1 ∧
      (st.serve e w).2.2 = (st'.serve e w).2.2 := by
  rcases st.serve_cases e w with ⟨n, hget, hserve⟩ | ⟨n, hget, hmakes, hserve⟩ |
    ⟨f, hget, hfails, hserve⟩ <;> rw [hserve] <;> rw [h.get?_eq] at hget
  · rw [serve_of_some hget]
    exact ⟨rfl, { h with hits_eq := congrArg (· + 1) h.hits_eq }, rfl⟩
  · rw [serve_of_makes hget hmakes]
    refine ⟨rfl, ⟨?_, congrArg (· + 1) h.computations_eq, h.hits_eq⟩, rfl⟩
    show st.nodes.insert n.text n = st'.nodes.insert n.text n
    rw [h.nodes_eq]
  · rw [serve_of_fails hget hfails]
    exact ⟨rfl, h, rfl⟩

theorem Alike.perform (h : st.Alike st') (w : ω) (task : Task ω) :
    (st.perform w task).1 = (st'.perform w task).1 ∧
      (st.perform w task).2.1.Alike (st'.perform w task).2.1 ∧
      (st.perform w task).2.2 = (st'.perform w task).2.2 := by
  cases task with
  | clear => exact ⟨rfl, ⟨rfl, rfl, rfl⟩, rfl⟩
  | obtain e =>
    obtain ⟨hanswer, hstore, hworld⟩ := h.serve e w
    exact ⟨congrArg Reply.answered hanswer, hstore, hworld⟩

theorem Alike.run (h : st.Alike st') (w : ω) (tasks : List (Task ω)) :
    (st.run w tasks).1 = (st'.run w tasks).1 ∧ (st.run w tasks).2.1.Alike (st'.run w tasks).2.1 ∧
      (st.run w tasks).2.2 = (st'.run w tasks).2.2 := by
  induction tasks generalizing st st' w with
  | nil => exact ⟨rfl, h, rfl⟩
  | cons task tasks ih =>
    obtain ⟨hreply, hstore, hworld⟩ := h.perform w task
    have hrest := ih hstore (st.perform w task).2.2
    rw [run, run]
    dsimp only
    rw [← hreply, ← hworld]
    exact ⟨congrArg _ hrest.1, hrest.2⟩

end Store

namespace Shared

variable {sh : Shared}

/-- A task as the store carries it out. -/
def perform (sh : Shared) (w : ω) : Task ω → Option (Reply × Shared × ω)
  | .obtain e => (sh.serve e w).map fun (r, sh, w) => (.answered r, sh, w)
  | .clear => some (.cleared, sh.clear, w)

/-- Tasks, one after another, unless one of them waits for ever. -/
def run (sh : Shared) (w : ω) : List (Task ω) → Option (List Reply × Shared × ω)
  | [] => some ([], sh, w)
  | task :: tasks => do
    let (reply, sh, w) ← sh.perform w task
    let (replies, sh, w) ← sh.run w tasks
    return (reply :: replies, sh, w)

theorem perform_eq (hfree : sh.held = ∅) (w : ω) (task : Task ω) :
    ∃ sh', sh.perform w task
        = some ((sh.store.perform w task).1, sh', (sh.store.perform w task).2.2) ∧
      sh'.store = (sh.store.perform w task).2.1 ∧ sh'.held = ∅ := by
  cases task with
  | clear => exact ⟨sh.clear, rfl, rfl, hfree⟩
  | obtain e =>
    obtain ⟨sh', hserve, hstore, hheld⟩ := serve_eq hfree e w
    refine ⟨sh', ?_, hstore, hheld⟩
    simp only [perform, hserve]
    rfl

theorem held_new (number : Nat) (guarded : Bool) : (new number guarded).held = ∅ := rfl

theorem run_eq (hfree : sh.held = ∅) (w : ω) (tasks : List (Task ω)) :
    ∃ sh', sh.run w tasks = some ((sh.store.run w tasks).1, sh', (sh.store.run w tasks).2.2) ∧
      sh'.store = (sh.store.run w tasks).2.1 ∧ sh'.held = ∅ := by
  induction tasks generalizing sh w with
  | nil => exact ⟨sh, rfl, rfl, hfree⟩
  | cons task tasks ih =>
    obtain ⟨sh₁, hperform, hstore, hheld⟩ := perform_eq hfree w task
    obtain ⟨sh', hrun, hstore', hheld'⟩ := ih hheld (sh.store.perform w task).2.2
    rw [hstore] at hrun hstore'
    refine ⟨sh', ?_, hstore', hheld'⟩
    simp only [run, hperform, Option.bind_eq_bind, Option.bind_some, hrun]
    rfl

/-- **A store in the hands of one caller.** Take a new store, guarded or not, and any calls and
clearings on it, with computations that do as they like. None of the calls waits for ever, and then:

* A further call is `Store.obtain`; on a guarded store it goes through the phases of a call that
  nobody disturbs, and a node is begun exactly if the text has none.
* On a text that has a node it returns that node and counts a hit, and the computation is not run.
* On a text that has none the computation is run once. If it makes a node for the text, the node is
  kept and returned and a computation is counted; otherwise the call fails, with the computation's
  own failure or because the node is for another text, and nodes and counters are as before.
* Every node is kept under its own text, there are as many as were computed, and a hit or a
  computation was counted for each call that has returned since the store was new or last cleared.
* Whatever is called for next, no node is replaced.
* After a clearing the store cannot be told from a new one, whatever is done next. -/
theorem run_sequential (number : Nat) (guarded : Bool) (w₀ : ω) (tasks : List (Task ω)) :
    ∃ replies sh w, (new number guarded).run w₀ tasks = some (replies, sh, w) ∧
      (∀ e, ∃ sh' w', sh.serve e w
          = some ((sh.store.obtain e.text fun _ => (e.make w).1).1, sh', w') ∧
        sh'.store = (sh.store.obtain e.text fun _ => (e.make w).1).2) ∧
      (guarded = true → ∀ e, ∃ r sh' w' events, sh.serve e w = some (r, sh', w') ∧
        Alone (e.order w) sh .asked sh' (events ++ [.ended e.text r]) ∧
        (.begun e.text ∈ events ↔ sh.store.get? e.text = none)) ∧
      (∀ e n, sh.store.get? e.text = some n → ∃ sh', sh.serve e w = some (.ok n, sh', w) ∧
        sh'.store = { sh.store with hits := sh.store.hits + 1 }) ∧
      (∀ e, sh.store.get? e.text = none →
        (∃ n sh', (e.make w).1 = .ok n ∧ n.text = e.text ∧
          sh.serve e w = some (.ok n, sh', (e.make w).2) ∧
          (∀ t, sh'.store.get? t = if t = e.text then some n else sh.store.get? t) ∧
          sh'.store.computations = sh.store.computations + 1 ∧ sh'.store.hits = sh.store.hits) ∨
        ∃ f sh', ((e.make w).1 = .error f ∨
            ∃ n, (e.make w).1 = .ok n ∧ n.text ≠ e.text ∧ f = .foreignNode n.text e.text) ∧
          sh.serve e w = some (.error f, sh', (e.make w).2) ∧ sh'.store = sh.store) ∧
      (∀ t n, sh.store.get? t = some n → n.text = t) ∧
      sh.store.computations = sh.store.size ∧
      sh.store.hits + sh.store.computations = Reply.returned replies ∧
      (∀ es : List (Errand ω), ∃ replies' sh' w',
        sh.run w (es.map .obtain) = some (replies', sh', w') ∧
        ∀ t n, sh.store.get? t = some n → sh'.store.get? t = some n) ∧
      ∀ (more : List (Task ω)) (number' : Nat), ∃ replies' sh₁ sh₂ w',
        sh.clear.run w more = some (replies', sh₁, w') ∧
        (new number' guarded).run w more = some (replies', sh₂, w') ∧
        sh₁.store.nodes = sh₂.store.nodes ∧ sh₁.store.computations = sh₂.store.computations ∧
        sh₁.store.hits = sh₂.store.hits := by
  obtain ⟨sh, hrun, hstore, hfree⟩ := run_eq (held_new number guarded) w₀ tasks
  have hbooks := (Store.inOrder_new number guarded).run w₀ tasks
  have hguarded : sh.store.guarded = guarded := by
    rw [hstore]
    exact Store.guarded_run _ w₀ tasks
  rw [show ({ number, guarded } : Store) = (new number guarded).store from rfl, ← hstore] at hbooks
  refine ⟨_, sh, _, hrun, ?_, ?_, ?_, ?_, hbooks.text_eq, hbooks.computations_eq, hbooks.count_eq,
    ?_, ?_⟩ <;> generalize ((new number guarded).store.run w₀ tasks).2.2 = w
  · intro e
    obtain ⟨sh', hserve, hstore', -⟩ := serve_eq hfree e w
    exact ⟨sh', _, hserve, hstore'⟩
  · intro hyes e
    exact serve_alone hfree (hguarded.trans hyes) e w
  · intro e n hget
    exact ⟨_, serve_of_some hget, rfl⟩
  · intro e hget
    obtain ⟨sh', hserve, hstore', -⟩ := serve_eq hfree e w
    rcases e.makes_or_fails w with ⟨n, hmakes⟩ | ⟨f, hfails⟩
    · rw [Store.serve_of_makes hget hmakes] at hserve hstore'
      refine .inl ⟨n, sh', hmakes.1, hmakes.2, hserve, fun t => ?_, ?_, ?_⟩
      · rw [hstore', Store.get?_take, hmakes.2]
        simp only [eq_comm]
      · rw [hstore']
        rfl
      · rw [hstore']
        rfl
    · rw [Store.serve_of_fails hget hfails] at hserve hstore'
      exact .inr ⟨f, sh', hfails, hserve, hstore'⟩
  · intro es
    obtain ⟨sh', hrun', hstore', -⟩ := run_eq hfree w (es.map .obtain)
    refine ⟨_, sh', _, hrun', fun t n hn => ?_⟩
    rw [hstore']
    exact Store.keptIn_run sh.store w es hn
  · intro more number'
    have hclear : sh.clear.held = ∅ := hfree
    obtain ⟨sh₁, hrun₁, hstore₁, -⟩ := run_eq hclear w more
    obtain ⟨sh₂, hrun₂, hstore₂, -⟩ := run_eq (held_new number' guarded) w more
    obtain ⟨hreplies, halike, hworld⟩ :=
      (Store.alike_clear_new sh.store number' guarded).run w more
    refine ⟨_, sh₁, sh₂, _, hrun₁, ?_, ?_⟩
    · rw [hrun₂]
      simp only [clear, new, hreplies, hworld]
    · rw [hstore₁, hstore₂]
      exact ⟨halike.nodes_eq, halike.computations_eq, halike.hits_eq⟩

/-- Computations that count in a world of numbers how often one of them is run: one that fails, one
whose node is for another text, and one that does what is asked. -/
def sampleErrands : List (Errand Nat) :=
  let made (w : Nat) : Node := .make ⟨0, w⟩ "a" .empty none none
  [⟨"a", fun w => (.error (.outside .runtime "broken"), w + 1)⟩,
    ⟨"b", fun w => (.ok (made w), w + 1)⟩, ⟨"a", fun w => (.ok (made w), w + 1)⟩]

/-- On a guarded store that was used and cleared, all three are run, and none of them a second time
by a call for the text that has a node. -/
theorem run_sequential_sample :
    let tasks := sampleErrands.map .obtain ++ [.clear] ++ sampleErrands.map .obtain
    ∃ replies sh n, (new 1 true).run 0 tasks = some (replies, sh, 6) ∧
      sh.store.get? "a" = some n ∧ n.text = "a" ∧
      (∀ e ∈ sampleErrands, e.text = "a" → ∃ sh', sh.serve e 6 = some (.ok n, sh', 6)) ∧
      sh.store.hits + sh.store.computations = 1 := by
  intro tasks
  obtain ⟨replies, sh, w, hrun, -, -, hhit, -, htext, -, hcount, -⟩ := run_sequential 1 true 0 tasks
  have hseen : ((new 1 true).run 0 tasks).map (fun r => (Reply.returned r.1, r.2.2,
      (r.2.1.store.get? "a").isSome)) = some (1, 6, true) := by decide +kernel
  rw [hrun] at hseen
  simp only [Option.map_some, Option.some.injEq, Prod.mk.injEq] at hseen
  obtain ⟨hreturned, rfl, hsome⟩ := hseen
  obtain ⟨n, hn⟩ := Option.isSome_iff_exists.mp hsome
  refine ⟨replies, sh, n, hrun, hn, htext _ n hn, fun e _ he => ?_, hcount.trans hreturned⟩
  obtain ⟨sh', hserve, -⟩ := hhit e n (he ▸ hn)
  exact ⟨sh', hserve⟩

end Shared
end Pyramid
