import Mathlib
import Pyramid.Proofs.Chart.Guard

/-!
# Threads at a guarded store

`Workshop.run` lets any number of threads make any calls on one guarded store, and take their steps
in any order. Three invariants hold between any two steps: the calls do not get in each other's way
(`Disciplined`), what was seen of them agrees with the store (`Truthful`), and the books are right
but for what is still under way (`Balanced`).

So every node is made once and stays (`Workshop.makes_once`), which the specification promises of
its thread-safe cache (§4.2, §5, §8).
-/

namespace Pyramid

open Text

/-! ## Many threads -/

/-- A thread stands at a phase of a call. -/
def At (threads : List Thread) (i : Nat) (o : Order) (phase : Phase) : Prop :=
  threads[i]? = some (some (o, phase))

theorem at_set {threads : List Thread} {i j : Nat} {thread : Thread} {o : Order} {phase : Phase}
    (h : At (threads.set i thread) j o phase) :
    (j = i ∧ thread = some (o, phase)) ∨ (j ≠ i ∧ At threads j o phase) := by
  unfold At at h ⊢
  by_cases hji : j = i
  · subst hji
    obtain ⟨hj, hget⟩ := List.getElem?_eq_some_iff.mp h
    rw [List.getElem_set_self] at hget
    exact .inl ⟨rfl, hget⟩
  · rw [List.getElem?_set_ne (Ne.symm hji)] at h
    exact .inr ⟨hji, h⟩

theorem at_set_self {threads : List Thread} {i : Nat} {thread : Thread} {o : Order} {phase : Phase}
    (h : threads[i]? = some thread) : At (threads.set i (some (o, phase))) i o phase := by
  have hi : i < threads.length := (List.getElem?_eq_some_iff.mp h).1
  exact List.getElem?_set_self hi

theorem At.set_of_ne {threads : List Thread} {i j : Nat} {thread : Thread} {o : Order}
    {phase : Phase} (h : At threads j o phase) (hne : j ≠ i) :
    At (threads.set i thread) j o phase := by
  unfold At
  rw [List.getElem?_set_ne (Ne.symm hne)]
  exact h

/-- Every call fits, no lock is held twice, and every lock that is held is held by some thread. -/
structure Disciplined (sh : Shared) (threads : List Thread) : Prop where
  fits : ∀ ⦃i o phase⦄, At threads i o phase → phase.Fits sh o
  apart : ∀ ⦃i j o phase o₂ phase₂⦄, i ≠ j → At threads i o phase → At threads j o₂ phase₂ →
    phase.Apart phase₂
  owned : ∀ lock ∈ sh.held, ∃ i o phase, At threads i o phase ∧ phase.holds? = some lock

namespace Disciplined

variable {sh : Shared} {threads : List Thread} {i : Nat} {o : Order} {phase : Phase}

/-- A thread that begins a call relies on nothing yet. -/
theorem call (h : Disciplined sh threads) (hi : threads[i]? = some none) (o : Order) :
    Disciplined sh (threads.set i (some (o, .asked))) where
  fits := by
    intro j o' phase' hj
    rcases at_set hj with ⟨-, heq⟩ | ⟨-, hj⟩
    · cases heq
      constructor <;> simp
    · exact h.fits hj
  apart := by
    intro j k o₁ phase₁ o₂ phase₂ hjk hj hk lock hlock
    rcases at_set hj with ⟨-, heq⟩ | ⟨-, hj⟩
    · cases heq
      cases hlock
    · rcases at_set hk with ⟨-, heq⟩ | ⟨-, hk⟩
      · cases heq
        simp
      · exact h.apart hjk hj hk lock hlock
  owned := by
    intro lock hlock
    obtain ⟨j, o', phase', hj, hholds⟩ := h.owned lock hlock
    have hne : j ≠ i := by
      rintro rfl
      rw [At, hi] at hj
      cases hj
    exact ⟨j, o', phase', hj.set_of_ne hne, hholds⟩

/-- The thread that takes a step, and the others, are disciplined after it. -/
theorem step (h : Disciplined sh threads) (hi : At threads i o phase) :
    Disciplined (phase.step o sh).shared
      (threads.set i ((phase.step o sh).phase?.map (o, ·))) where
  fits := by
    intro j o' phase' hj
    rcases at_set hj with ⟨-, heq⟩ | ⟨hne, hj⟩
    · obtain ⟨next, hnext, heq⟩ := Option.map_eq_some_iff.mp heq
      cases heq
      exact (h.fits hi).step hnext
    · exact (h.fits hi).step_of_other (h.fits hj) (h.apart (Ne.symm hne) hi hj)
  apart := by
    -- It is enough to look at the thread that took the step beside another one.
    have hstep : ∀ {k o₂ phase₂ next}, i ≠ k → At threads k o₂ phase₂ →
        (phase.step o sh).phase? = some next → next.Apart phase₂ := fun hik hk hnext =>
      (h.fits hk).apart_step (h.apart hik hi hk) hnext
    intro j k o₁ phase₁ o₂ phase₂ hjk hj hk
    rcases at_set hj with ⟨rfl, heq⟩ | ⟨hji, hj'⟩
    · rcases at_set hk with ⟨rfl, -⟩ | ⟨-, hk'⟩
      · exact absurd rfl hjk
      · obtain ⟨next, hnext, heq⟩ := Option.map_eq_some_iff.mp heq
        cases heq
        exact hstep hjk hk' hnext
    · rcases at_set hk with ⟨rfl, heq⟩ | ⟨-, hk'⟩
      · obtain ⟨next, hnext, heq⟩ := Option.map_eq_some_iff.mp heq
        cases heq
        exact (hstep (Ne.symm hjk) hj' hnext).symm
      · exact h.apart hjk hj' hk'
  owned := by
    intro lock hlock
    have hself : ∀ next, (phase.step o sh).phase? = some next → next.holds? = some lock →
        ∃ j o' phase', At (threads.set i ((phase.step o sh).phase?.map (o, ·))) j o' phase' ∧
          phase'.holds? = some lock := by
      intro next hnext hholds
      refine ⟨i, o, next, ?_, hholds⟩
      rw [hnext]
      exact at_set_self hi
    rcases Phase.mem_held_of_step hlock with hbefore | ⟨next, hnext, hholds⟩
    · obtain ⟨j, o', phase', hj, hholds⟩ := h.owned lock hbefore
      by_cases hji : j = i
      · subst hji
        rw [At] at hi hj
        rw [hi] at hj
        cases hj
        rcases Phase.holds?_step o sh hholds with hreleased | ⟨next, hnext, hholds⟩
        · exact absurd hlock hreleased
        · exact hself next hnext hholds
      · exact ⟨j, o', phase', hj.set_of_ne hji, hholds⟩
    · exact hself next hnext hholds

end Disciplined

/-! ## History -/

/-- The history agrees with the store and with the calls under way. -/
structure Truthful (sh : Shared) (threads : List Thread) (history : List Event) : Prop where
  returned : ∀ t n, .returned t n ∈ history → sh.store.get? t = some n
  published : ∀ t, .published t ∈ history → sh.store.get? t ≠ none
  /-- A node that was made is in the store, or a thread is about to put it there. -/
  succeeded : ∀ t, 0 < history.countP (·.isSuccess t) → sh.store.get? t ≠ none ∨
    ∃ i o phase, At threads i o phase ∧ o.text = t ∧ phase.made?.isSome = true
  once : ∀ t, history.countP (·.isSuccess t) ≤ 1
  in_order : history.Pairwise fun e e' => ∀ t, e = .published t → e' ≠ .begun t

namespace Truthful

variable {sh : Shared} {threads : List Thread} {history : List Event} {i : Nat} {o : Order}
  {phase : Phase}

theorem call (h : Truthful sh threads history) (hi : threads[i]? = some none) (o : Order) :
    Truthful sh (threads.set i (some (o, .asked))) history where
  returned := h.returned
  published := h.published
  succeeded := by
    intro t ht
    refine (h.succeeded t ht).imp_right ?_
    rintro ⟨j, o', phase', hj, htext, hmade⟩
    have hne : j ≠ i := by
      rintro rfl
      rw [At, hi] at hj
      cases hj
    exact ⟨j, o', phase', hj.set_of_ne hne, htext, hmade⟩
  once := h.once
  in_order := h.in_order

/-- Before a node is made, none was. -/
theorem countP_eq_zero (h : Truthful sh threads history) (hd : Disciplined sh threads) {lock : Lock}
    (hi : At threads i o (.making lock)) : history.countP (·.isSuccess o.text) = 0 := by
  by_contra hpos
  rcases h.succeeded o.text (Nat.pos_of_ne_zero hpos) with hsome | ⟨j, o', phase', hj, htext, hmade⟩
  · exact hsome ((hd.fits hi).absent rfl)
  · have hne : i ≠ j := by
      rintro rfl
      rw [At] at hi hj
      rw [hi] at hj
      cases hj
      cases hmade
    exact (hd.fits hi).text_ne (hd.fits hj) (hd.apart hne hi hj) rfl
      (Phase.isMaking_of_made hmade) htext.symm

/-- A text has its node for good. -/
theorem ne_none_step (hd : Disciplined sh threads) (hi : At threads i o phase) {t : Text}
    (ht : sh.store.get? t ≠ none) : (phase.step o sh).shared.store.get? t ≠ none := by
  obtain ⟨n, hn⟩ := Option.ne_none_iff_exists'.mp ht
  rw [(hd.fits hi).keptIn hn]
  simp

theorem step (h : Truthful sh threads history) (hd : Disciplined sh threads)
    (hi : At threads i o phase) :
    Truthful (phase.step o sh).shared (threads.set i ((phase.step o sh).phase?.map (o, ·)))
      (history ++ (phase.step o sh).events) where
  returned := by
    intro t n hmem
    rcases List.mem_append.mp hmem with hold | hnew
    · exact (hd.fits hi).keptIn (h.returned t n hold)
    · obtain ⟨rfl, hanswer⟩ := Phase.of_returned_mem_events hnew
      exact (hd.fits hi).keptIn ((hd.fits hi).present n hanswer)
  published := by
    intro t hmem
    rcases List.mem_append.mp hmem with hold | hnew
    · exact ne_none_step hd hi (h.published t hold)
    · obtain ⟨rfl, lock, n, rfl⟩ := Phase.of_published_mem_events hnew
      rw [Phase.get?_step]
      simp [(hd.fits hi).text_eq n rfl]
  succeeded := by
    intro t hpos
    rw [List.countP_append] at hpos
    rcases Phase.countP_isSuccess_events o sh phase t with hnone | ⟨-, rfl, lock, n, -, hnext⟩
    · rw [hnone, Nat.add_zero] at hpos
      rcases h.succeeded t hpos with hsome | ⟨j, o', phase', hj, htext, hmade⟩
      · exact .inl (ne_none_step hd hi hsome)
      · by_cases hji : j = i
        · subst hji
          rw [At] at hi hj
          rw [hi] at hj
          cases hj
          rcases (hd.fits hi).made_step hmade with hsome | ⟨next, hnext, hmade⟩
          · exact .inl (htext ▸ hsome)
          · refine .inr ⟨j, o, next, ?_, htext, hmade⟩
            rw [hnext]
            exact at_set_self hi
        · exact .inr ⟨j, o', phase', hj.set_of_ne hji, htext, hmade⟩
    · refine .inr ⟨i, o, .made lock n, ?_, rfl, rfl⟩
      rw [hnext]
      exact at_set_self hi
  once := by
    intro t
    rw [List.countP_append]
    rcases Phase.countP_isSuccess_events o sh phase t with hnone | ⟨hone, rfl, lock, n, rfl, -⟩
    · rw [hnone]
      exact h.once t
    · rw [hone, h.countP_eq_zero hd hi]
  in_order := by
    rw [List.pairwise_append]
    refine ⟨h.in_order, ?_, ?_⟩
    · exact List.pairwise_of_forall_mem_list fun e he e' he' t hpub hbeg => by
        subst hpub hbeg
        obtain ⟨-, lock, n, rfl⟩ := Phase.of_published_mem_events he
        simp [Phase.step] at he'
    · rintro e he e' he' t rfl rfl
      obtain ⟨rfl, hmaking⟩ := Phase.of_begun_mem_events he'
      exact h.published _ he ((hd.fits hi).absent hmaking)

end Truthful

/-! ## Accounts -/

/-- What is still open for a thread. -/
def Thread.load (f : Phase → Nat) (thread : Thread) : Nat := thread.elim 0 (f ·.2)

/-- What is still open for all threads. -/
def load (f : Phase → Nat) (threads : List Thread) : Nat := (threads.map (Thread.load f)).sum

theorem load_set (f : Phase → Nat) {threads : List Thread} {i : Nat} {old : Thread} (new : Thread)
    (h : threads[i]? = some old) :
    load f (threads.set i new) + old.load f = load f threads + new.load f := by
  induction threads generalizing i with
  | nil => cases h
  | cons thread rest ih =>
    cases i with
    | zero =>
      cases h
      simp only [load, List.set_cons_zero, List.map_cons, List.sum_cons]
      omega
    | succ i =>
      have := ih h
      simp only [load, List.set_cons_succ, List.map_cons, List.sum_cons] at this ⊢
      omega

theorem load_eq_zero {f : Phase → Nat} {threads : List Thread}
    (h : ∀ thread ∈ threads, thread = none) : load f threads = 0 := by
  refine List.sum_eq_zero ?_
  intro k hk
  obtain ⟨thread, hmem, rfl⟩ := List.mem_map.mp hk
  rw [h thread hmem]
  rfl

namespace Phase

variable {sh : Shared} {o : Order} {phase : Phase}

/-- A node that is counted is put into the store later. -/
theorem Fits.computations_step (h : phase.Fits sh o) :
    (phase.step o sh).shared.store.computations + sh.store.size + phase.unpublished
      = sh.store.computations + (phase.step o sh).shared.store.size
        + Thread.load unpublished ((phase.step o sh).phase?.map (o, ·)) := by
  cases phase with
  | made lock n =>
    show sh.store.computations + 1 + sh.store.size + 0 = sh.store.computations + sh.store.size + 1
    omega
  | counted lock n =>
    have hsize : (sh.store.publish n).size = sh.store.size + 1 :=
      Store.size_take (by rw [h.text_eq n rfl, h.absent rfl])
    show sh.store.computations + sh.store.size + 1
      = sh.store.computations + (sh.store.publish n).size + 0
    omega
  | missed => simp [Phase.step, Thread.load]
  | asked | queued | entered | making =>
    simp only [Phase.step]
    split <;> rfl
  | _ => rfl

/-- A hit or a computation is counted once for each call that returns. -/
theorem counts_step (o : Order) (sh : Shared) (phase : Phase) :
    (phase.step o sh).shared.store.hits + (phase.step o sh).shared.store.computations
        + phase.unreturned
      = sh.store.hits + sh.store.computations
        + Thread.load unreturned ((phase.step o sh).phase?.map (o, ·))
        + (phase.step o sh).events.countP (·.isReturn) := by
  cases phase with
  | found n | late lock n =>
    show sh.store.hits + 1 + sh.store.computations + 0 = sh.store.hits + sh.store.computations + 1
    omega
  | missed => simp [Phase.step, Thread.load]
  | asked | queued | entered | making =>
    simp only [Phase.step]
    split <;> rfl
  | leaving lock r => cases r <;> rfl
  | _ => rfl

end Phase

/-- The books are right but for what the calls under way have yet to do. -/
structure Balanced (sh : Shared) (threads : List Thread) (history : List Event) : Prop where
  size_eq : sh.store.computations = sh.store.size + load Phase.unpublished threads
  count_eq : sh.store.hits + sh.store.computations
    = load Phase.unreturned threads + history.countP (·.isReturn)

namespace Balanced

variable {sh : Shared} {threads : List Thread} {history : List Event} {i : Nat} {o : Order}
  {phase : Phase}

theorem call (h : Balanced sh threads history) (hi : threads[i]? = some none) (o : Order) :
    Balanced sh (threads.set i (some (o, .asked))) history where
  size_eq := by
    have hset : load Phase.unpublished (threads.set i (some (o, .asked)))
        = load Phase.unpublished threads := load_set Phase.unpublished (some (o, .asked)) hi
    rw [hset, h.size_eq]
  count_eq := by
    have hset : load Phase.unreturned (threads.set i (some (o, .asked)))
        = load Phase.unreturned threads := load_set Phase.unreturned (some (o, .asked)) hi
    rw [hset, h.count_eq]

theorem step (h : Balanced sh threads history) (hd : Disciplined sh threads)
    (hi : At threads i o phase) :
    Balanced (phase.step o sh).shared (threads.set i ((phase.step o sh).phase?.map (o, ·)))
      (history ++ (phase.step o sh).events) where
  size_eq := by
    have hset := load_set Phase.unpublished ((phase.step o sh).phase?.map (o, ·)) hi
    have hstep := (hd.fits hi).computations_step
    have hold : Thread.load Phase.unpublished (some (o, phase)) = phase.unpublished := rfl
    have := h.size_eq
    omega
  count_eq := by
    have hset := load_set Phase.unreturned ((phase.step o sh).phase?.map (o, ·)) hi
    have hstep := Phase.counts_step o sh phase
    have hold : Thread.load Phase.unreturned (some (o, phase)) = phase.unreturned := rfl
    have := h.count_eq
    rw [List.countP_append]
    omega

end Balanced

/-! ## Runs -/

/-- The threads, what they share, and what they have done. -/
structure Workshop where
  shared : Shared
  threads : List Thread
  history : List Event := []

/-- What can happen next: an idle thread begins a call, or a busy one takes its next step. -/
inductive Turn where
  | call (i : Nat) (o : Order)
  | step (i : Nat)

namespace Workshop

/-- A new guarded store, and idle threads. -/
def new (number count : Nat) : Workshop where
  shared := { store := { number, guarded := true } }
  threads := List.replicate count none

/-- A thread begins a call. -/
def call (w : Workshop) (i : Nat) (o : Order) : Workshop :=
  { w with threads := w.threads.set i (some (o, .asked)) }

/-- A thread goes on with its call. -/
def step (w : Workshop) (i : Nat) (o : Order) (phase : Phase) : Workshop where
  shared := (phase.step o w.shared).shared
  threads := w.threads.set i ((phase.step o w.shared).phase?.map (o, ·))
  history := w.history ++ (phase.step o w.shared).events

/-- A turn of a thread that is not there, or that cannot take it, changes nothing. -/
def turn (w : Workshop) : Turn → Workshop
  | .call i o =>
    match w.threads[i]? with
    | some none => w.call i o
    | _ => w
  | .step i =>
    match w.threads[i]? with
    | some (some (o, phase)) => w.step i o phase
    | _ => w

def run (w : Workshop) (turns : List Turn) : Workshop := turns.foldl turn w

/-- No call is under way. -/
def IsQuiet (w : Workshop) : Prop := ∀ thread ∈ w.threads, thread = none

instance (w : Workshop) : Decidable w.IsQuiet :=
  inferInstanceAs (Decidable (∀ thread ∈ w.threads, thread = none))

variable {w : Workshop}

/-- What is true between any two turns. -/
structure Sound (w : Workshop) : Prop where
  disciplined : Disciplined w.shared w.threads
  truthful : Truthful w.shared w.threads w.history
  balanced : Balanced w.shared w.threads w.history

theorem isQuiet_new (number count : Nat) : (new number count).IsQuiet :=
  fun _ h => List.eq_of_mem_replicate h

theorem IsQuiet.not_at (h : w.IsQuiet) {i : Nat} {o : Order} {phase : Phase} :
    ¬At w.threads i o phase :=
  fun hi => Option.some_ne_none _ (h _ (List.mem_of_getElem? hi))

theorem sound_new (number count : Nat) : (new number count).Sound where
  disciplined :=
    { fits := fun _ _ _ h => absurd h (isQuiet_new number count).not_at
      apart := fun _ _ _ _ _ _ _ h => absurd h (isQuiet_new number count).not_at
      owned := fun _ h => absurd h (Finset.notMem_empty _) }
  truthful := by constructor <;> simp [new]
  balanced :=
    { size_eq := by
        rw [load_eq_zero (isQuiet_new number count)]
        rfl
      count_eq := by
        rw [load_eq_zero (isQuiet_new number count)]
        rfl }

theorem turn_cases (w : Workshop) (next : Turn) :
    w.turn next = w ∨
    (∃ i o, w.threads[i]? = some none ∧ w.turn next = w.call i o) ∨
    ∃ i o phase, At w.threads i o phase ∧ w.turn next = w.step i o phase := by
  cases next with
  | call i o =>
    simp only [turn]
    split
    · next hi => exact .inr (.inl ⟨i, o, hi, rfl⟩)
    · exact .inl rfl
  | step i =>
    simp only [turn]
    split
    · next o phase hi => exact .inr (.inr ⟨i, o, phase, hi, rfl⟩)
    · exact .inl rfl

theorem Sound.turn (h : w.Sound) (next : Turn) : (w.turn next).Sound := by
  obtain ⟨hd, ht, hb⟩ := h
  rcases w.turn_cases next with heq | ⟨i, o, hi, heq⟩ | ⟨i, o, phase, hi, heq⟩ <;> rw [heq]
  · exact ⟨hd, ht, hb⟩
  · exact ⟨hd.call hi o, ht.call hi o, hb.call hi o⟩
  · exact ⟨hd.step hi, ht.step hd hi, hb.step hd hi⟩

theorem Sound.run (h : w.Sound) (turns : List Turn) : (w.run turns).Sound := by
  induction turns generalizing w with
  | nil => exact h
  | cons next rest ih => exact ih (h.turn next)

theorem Sound.keptIn_turn (h : w.Sound) (next : Turn) :
    w.shared.store.KeptIn (w.turn next).shared.store := by
  rcases w.turn_cases next with heq | ⟨i, o, hi, heq⟩ | ⟨i, o, phase, hi, heq⟩ <;> rw [heq]
  · exact .refl _
  · exact .refl _
  · exact (h.disciplined.fits hi).keptIn

theorem Sound.keptIn_run (h : w.Sound) (turns : List Turn) :
    w.shared.store.KeptIn (w.run turns).shared.store := by
  induction turns generalizing w with
  | nil => exact .refl _
  | cons next rest ih => exact (h.keptIn_turn next).trans (ih (h.turn next))

@[simp] theorem length_turn (w : Workshop) (next : Turn) :
    (w.turn next).threads.length = w.threads.length := by
  rcases w.turn_cases next with heq | ⟨i, o, -, heq⟩ | ⟨i, o, phase, -, heq⟩ <;> rw [heq]
  · exact List.length_set
  · exact List.length_set

theorem length_run (w : Workshop) (turns : List Turn) :
    (w.run turns).threads.length = w.threads.length := by
  induction turns generalizing w with
  | nil => rfl
  | cons next rest ih => exact (ih (w.turn next)).trans (w.length_turn next)

end Workshop

/-! ## A call that nobody disturbs -/

/-- From a phase the call comes to its end, with nobody else taking a step. -/
inductive Alone (o : Order) : Shared → Phase → Shared → List Event → Prop where
  | last {sh sh' : Shared} {phase : Phase} {events : List Event}
    (h : phase.step o sh = ⟨sh', none, events⟩) : Alone o sh phase sh' events
  | next {sh sh₁ sh' : Shared} {phase phase₁ : Phase} {events rest : List Event}
    (h : phase.step o sh = ⟨sh₁, some phase₁, events⟩) (halone : Alone o sh₁ phase₁ sh' rest) :
    Alone o sh phase sh' (events ++ rest)

theorem Store.obtain_eq (st : Store) (o : Order) :
    st.obtain o.text o.make = match st.get? o.text with
      | some n => (.ok n, st.countHit)
      | none =>
        match o.outcome st.nextStamp with
        | .error f => (.error f, st)
        | .ok n => (.ok n, st.take n) := by
  unfold obtain Order.outcome
  cases st.get? o.text with
  | some n => rfl
  | none =>
    cases o.make st.nextStamp with
    | error f => rfl
    | ok n => by_cases h : n.text = o.text <;> simp [h]

namespace Alone

variable {o : Order} {sh : Shared}

/-- A call that finds no node and all locks free comes to make the node, under the lock of the
text. -/
theorem of_making (hget : sh.store.get? o.text = none) (hfree : sh.held = ∅) {sh' : Shared}
    {rest : List Event} (h : Alone o (sh.enter o.text) (.making (sh.lockFor o.text).1) sh' rest) :
    Alone o sh .asked sh' (.begun o.text :: rest) := by
  let lock := (sh.lockFor o.text).1
  let sh₀ := (sh.lockFor o.text).2
  have hheld : sh₀.held = ∅ := (Shared.held_lockFor sh o.text).trans hfree
  have hasked : Phase.step o sh .asked = ⟨sh, some .missed, []⟩ := by
    simp only [Phase.step, hget]
  have hmissed : Phase.step o sh .missed = ⟨sh₀, some (.queued lock), []⟩ := rfl
  have hqueued : Phase.step o sh₀ (.queued lock) = ⟨sh.enter o.text, some (.entered lock), []⟩ := by
    rw [Phase.step, if_neg (by simp [hheld])]
    rfl
  have hentered : Phase.step o (sh.enter o.text) (.entered lock)
      = ⟨sh.enter o.text, some (.vacant lock), []⟩ := by
    simp only [Phase.step, Shared.store_enter, hget]
  have hvacant : Phase.step o (sh.enter o.text) (.vacant lock)
      = ⟨sh.enter o.text, some (.making lock), [.begun o.text]⟩ := rfl
  exact .next hasked (.next hmissed (.next hqueued (.next hentered (.next hvacant h))))

/-- A call that finds all locks free does what the store does at one stroke. -/
theorem of_obtain (o : Order) (hfree : sh.held = ∅) :
    ∃ sh' events,
      Alone o sh .asked sh' (events ++ [.ended o.text (sh.store.obtain o.text o.make).1]) ∧
      sh'.store = (sh.store.obtain o.text o.make).2 := by
  rw [Store.obtain_eq]
  cases hget : sh.store.get? o.text with
  | some n =>
    have hasked : Phase.step o sh .asked = ⟨sh, some (.found n), []⟩ := by
      simp only [Phase.step, hget]
    exact ⟨_, [], .next hasked (.last rfl), rfl⟩
  | none =>
    let lock := (sh.lockFor o.text).1
    let sh₁ := sh.enter o.text
    have hstore : sh₁.store = sh.store := Shared.store_enter sh o.text
    cases hmade : o.outcome sh.store.nextStamp with
    | error f =>
      have hfails :
          Phase.step o sh₁ (.making lock) = ⟨sh₁, some (.leaving lock (.error f)), []⟩ := by
        simp only [Phase.step, hstore, hmade]
      exact ⟨_, [.begun o.text], of_making hget hfree (.next hfails (.last rfl)), hstore⟩
    | ok n =>
      have hmakes : Phase.step o sh₁ (.making lock) = ⟨{ sh₁ with store := sh₁.store.issue },
          some (.made lock n), [.succeeded o.text]⟩ := by
        simp only [Phase.step, hstore, hmade]
      have hends : ∃ sh', sh'.store = sh₁.store.issue.countMade.publish n ∧
          Alone o sh₁ (.making lock) sh'
            ([.succeeded o.text]
              ++ ([] ++ ([.published o.text] ++ ([] ++ [.returned o.text n])))) :=
        ⟨_, rfl, .next hmakes (.next rfl (.next rfl (.next rfl (.last rfl))))⟩
      obtain ⟨sh', htaken, hends⟩ := hends
      exact ⟨sh', [.begun o.text, .succeeded o.text, .published o.text], of_making hget hfree hends,
        htaken.trans (by rw [← Store.take_eq, hstore])⟩

end Alone

namespace Workshop

variable {w : Workshop} {i : Nat} {o : Order} {phase : Phase}

theorem turn_step (hi : At w.threads i o phase) : w.turn (.step i) = w.step i o phase := by
  rw [At] at hi
  simp only [turn, hi]

theorem run_alone {sh' : Shared} {events : List Event} (hi : At w.threads i o phase)
    (h : Alone o w.shared phase sh' events) :
    ∃ k, w.run (List.replicate k (.step i)) = ⟨sh', w.threads.set i none, w.history ++ events⟩ := by
  generalize hsh : w.shared = sh at h
  induction h generalizing w with
  | last hlast =>
    subst hsh
    refine ⟨1, ?_⟩
    show w.turn (.step i) = _
    rw [turn_step hi, step, hlast]
    rfl
  | @next _ sh₁ _ phase phase₁ events _ hnext _ ih =>
    subst hsh
    have hstep : w.step i o phase
        = ⟨sh₁, w.threads.set i (some (o, phase₁)), w.history ++ events⟩ := by
      rw [step, hnext]
      rfl
    obtain ⟨k, hk⟩ := ih (w := w.step i o phase) (by rw [hstep]; exact at_set_self hi)
      (by rw [hstep])
    refine ⟨k + 1, ?_⟩
    show (w.turn (.step i)).run (List.replicate k (.step i)) = _
    rw [turn_step hi, hk, hstep, List.set_set, List.append_assoc]

/-- When no call is under way, no lock is held. -/
theorem Sound.held_eq (h : w.Sound) (hquiet : w.IsQuiet) : w.shared.held = ∅ := by
  refine Finset.eq_empty_of_forall_notMem ?_
  intro lock hlock
  obtain ⟨i, o, phase, hi, -⟩ := h.disciplined.owned lock hlock
  exact hquiet.not_at hi

/-- A call that nobody disturbs is `Store.obtain`. -/
theorem Sound.obtain_of_isQuiet (h : w.Sound) (hquiet : w.IsQuiet) (hi : i < w.threads.length)
    (o : Order) :
    ∃ k, (w.run (.call i o :: List.replicate k (.step i))).IsQuiet ∧
      (w.run (.call i o :: List.replicate k (.step i))).shared.store
        = (w.shared.store.obtain o.text o.make).2 ∧
      (w.run (.call i o :: List.replicate k (.step i))).history.getLast?
        = some (.ended o.text (w.shared.store.obtain o.text o.make).1) := by
  have hidle : w.threads[i]? = some none := by
    rw [List.getElem?_eq_getElem hi, hquiet _ (List.getElem_mem hi)]
  have hcall : w.turn (.call i o) = w.call i o := by
    simp only [Workshop.turn, hidle]
  obtain ⟨sh', events, halone, hstore⟩ := Alone.of_obtain o (h.held_eq hquiet)
  obtain ⟨k, hk⟩ := run_alone (w := w.call i o) (at_set_self hidle) halone
  refine ⟨k, ?_⟩
  have hrun : w.run (.call i o :: List.replicate k (.step i))
      = (w.call i o).run (List.replicate k (.step i)) := by
    rw [← hcall]
    rfl
  rw [hrun, hk]
  refine ⟨?_, hstore, by simp⟩
  intro thread hthread
  rw [call, List.set_set] at hthread
  rcases List.mem_or_eq_of_mem_set hthread with hthread | rfl
  · exact hquiet thread hthread
  · rfl

/-- **A guarded store makes every node once.** Whatever the threads ask for and in whatever order
they take their steps: at most one attempt to make the node of a text succeeds, none is begun once
the node is in the store, all calls for a text return the same node, and no node of the store is
ever replaced. Whenever no call is under way, the store has counted one computation for each of its
nodes, and one hit or computation for each call that has returned; and a call that is then made, and
that nobody disturbs, is `Store.obtain`. -/
theorem makes_once (number count : Nat) (turns : List Turn) :
    let w := (new number count).run turns
    (∀ t, w.history.countP (·.isSuccess t) ≤ 1) ∧
    (w.history.Pairwise fun e e' => ∀ t, e = .published t → e' ≠ .begun t) ∧
    (∀ t m n, .returned t m ∈ w.history → .returned t n ∈ w.history → m = n) ∧
    (∀ more t n, w.shared.store.get? t = some n → (w.run more).shared.store.get? t = some n) ∧
    (w.IsQuiet → w.shared.store.computations = w.shared.store.size ∧
      w.shared.store.hits + w.shared.store.computations = w.history.countP (·.isReturn)) ∧
    (w.IsQuiet → ∀ i o, i < count → ∃ k,
      let w' := w.run (.call i o :: List.replicate k (.step i))
      w'.IsQuiet ∧ w'.shared.store = (w.shared.store.obtain o.text o.make).2 ∧
        w'.history.getLast? = some (.ended o.text (w.shared.store.obtain o.text o.make).1)) := by
  intro w
  have h : w.Sound := (sound_new number count).run turns
  have hlength : w.threads.length = count := (length_run _ turns).trans List.length_replicate
  clear_value w
  refine ⟨h.truthful.once, h.truthful.in_order, ?_, fun more t n hn => h.keptIn_run more hn, ?_, ?_⟩
  · intro t m n hm hn
    have heq := h.truthful.returned t m hm
    rw [h.truthful.returned t n hn] at heq
    exact (Option.some.inj heq).symm
  · intro hquiet
    have hsize := h.balanced.size_eq
    have hcount := h.balanced.count_eq
    rw [load_eq_zero hquiet] at hsize hcount
    exact ⟨hsize, hcount.trans (Nat.zero_add _)⟩
  · intro hquiet i o hi
    exact h.obtain_of_isQuiet hquiet (hlength ▸ hi) o

/-- Three threads ask for one text at once. All find no node, and the first one makes it. The second
one waits for the same lock; the third one is handed a new one, for the first was dropped by
then. -/
def race : List Turn :=
  let o : Order := ⟨"a", fun stamp => .ok (.make stamp "a" .empty none none)⟩
  let steps (is : List Nat) : List Turn := is.map .step
  [.call 0 o, .call 1 o, .call 2 o] ++
    steps [0, 1, 2, 0, 0, 0, 0, 0, 0, 0, 1, 0, 0, 2, 2, 1, 2, 1, 2, 1, 2, 1]

theorem makes_once_race : ((new 0 3).run race).shared.next = 2 ∧ ((new 0 3).run race).IsQuiet ∧
    ((new 0 3).run race).shared.store.computations = ((new 0 3).run race).shared.store.size ∧
    ((new 0 3).run race).shared.store.hits + ((new 0 3).run race).shared.store.computations
      = ((new 0 3).run race).history.countP (·.isReturn) := by
  have hquiet : ((new 0 3).run race).IsQuiet := by decide +kernel
  obtain ⟨-, -, -, -, hbooks, -⟩ := makes_once 0 3 race
  exact ⟨by decide +kernel, hquiet, hbooks hquiet⟩

end Workshop

end Pyramid
