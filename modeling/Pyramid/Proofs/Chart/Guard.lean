import Mathlib
import Pyramid.Proofs.Chart.Accounts

/-!
# Guarded stores

A guarded store may be asked for nodes by several threads at once. Every text has a lock while its
node is being made: a thread that finds no node fetches the lock of the text, waits until it holds
it, and looks again before it makes the node. When the node is in the store the lock is given up,
and a thread that comes late may well be handed another lock for the same text.

`Phase.step` cuts such a call into the steps that no other thread can get in between. What keeps two
threads from making one node is not one lock but three facts together: as long as a text has no node
its lock is the same for everybody, a lock is held by one thread only, and whoever is making a node
holds the lock of a text without node. `Phase.Fits` is what a single call relies on. A step keeps
it, for the call that takes the step (`Fits.step`) and for all others (`Fits.step_of_other`).
-/

namespace Pyramid

open Text

/-! ## Steps on the store -/

namespace Store

/-- The store with one more hit. -/
def countHit (st : Store) : Store := { st with hits := st.hits + 1 }

/-- The store after a stamp was used. -/
def issue (st : Store) : Store := { st with issued := st.issued + 1 }

/-- The store with one more computation. -/
def countMade (st : Store) : Store := { st with computations := st.computations + 1 }

/-- The store with a node put in its place. -/
def publish (st : Store) (n : Node) : Store := { st with nodes := st.nodes.insert n.text n }

/-- Taking in a node is these steps at once. -/
theorem take_eq (st : Store) (n : Node) : st.take n = st.issue.countMade.publish n := rfl

@[simp] theorem get?_countHit (st : Store) (t : Text) : st.countHit.get? t = st.get? t := rfl

@[simp] theorem get?_issue (st : Store) (t : Text) : st.issue.get? t = st.get? t := rfl

@[simp] theorem get?_countMade (st : Store) (t : Text) : st.countMade.get? t = st.get? t := rfl

theorem get?_publish (st : Store) (n : Node) (t : Text) :
    (st.publish n).get? t = if n.text = t then some n else st.get? t := get?_take st n t

end Store

/-! ## One call -/

/-- Locks are told apart by their numbers. -/
abbrev Lock := Nat

/-- What a thread asks for: the node of a text, and how it is made if there is none. -/
structure Order where
  text : Text
  make : Stamp → Except Failure Node

/-- What comes of making the node: a node for another text is refused. -/
def Order.outcome (o : Order) (stamp : Stamp) : Except Failure Node :=
  match o.make stamp with
  | .error f => .error f
  | .ok n => if n.text = o.text then .ok n else .error (.foreignNode n.text o.text)

theorem Order.text_of_outcome {o : Order} {stamp : Stamp} {n : Node} (h : o.outcome stamp = .ok n) :
    n.text = o.text := by
  unfold outcome at h
  split at h
  · cases h
  · split at h
    · next htext =>
      cases h
      exact htext
    · cases h

/-- Where a call stands between two steps. -/
inductive Phase where
  /-- The text is to be looked up, without a lock. -/
  | asked
  /-- There was a node; the hit is to be counted. -/
  | found (n : Node)
  /-- There was none; the lock of the text is to be fetched. -/
  | missed
  /-- The lock is to be acquired. -/
  | queued (lock : Lock)
  /-- The lock is held; the text is to be looked up again. -/
  | entered (lock : Lock)
  /-- Now there was a node; the hit is to be counted. -/
  | late (lock : Lock) (n : Node)
  /-- There still was none; it is to be made. -/
  | vacant (lock : Lock)
  /-- The node is being made. -/
  | making (lock : Lock)
  /-- The node is made and is to be counted. -/
  | made (lock : Lock) (n : Node)
  /-- The node is counted and is to be put into the store. -/
  | counted (lock : Lock) (n : Node)
  /-- The node is in the store; the lock is to be released. -/
  | published (lock : Lock) (n : Node)
  /-- The lock is released, and is to be forgotten. -/
  | dropping (n : Node)
  /-- The lock is to be released, and the call ends. -/
  | leaving (lock : Lock) (result : Except Failure Node)

namespace Phase

/-- The lock that was fetched. -/
@[simp] def lock? : Phase → Option Lock
  | .queued lock | .entered lock | .late lock _ | .vacant lock | .making lock | .made lock _
  | .counted lock _ | .published lock _ | .leaving lock _ => some lock
  | .asked | .found _ | .missed | .dropping _ => none

/-- The lock that is held. -/
@[simp] def holds? : Phase → Option Lock
  | .queued _ => none
  | phase => phase.lock?

/-- Is a node on its way into the store? -/
@[simp] def isMaking : Phase → Bool
  | .vacant _ | .making _ | .made _ _ | .counted _ _ => true
  | _ => false

/-- The node that was made and is not yet in the store. -/
@[simp] def made? : Phase → Option Node
  | .made _ n | .counted _ n => some n
  | _ => none

/-- The node that the call is going to return. -/
@[simp] def answer? : Phase → Option Node
  | .found n | .late _ n | .published _ n | .dropping n | .leaving _ (.ok n) => some n
  | _ => none

/-- How many nodes are counted and not yet in the store. -/
@[simp] def unpublished : Phase → Nat
  | .counted _ _ => 1
  | _ => 0

/-- How many hits and computations are counted for a call that has not returned. -/
@[simp] def unreturned : Phase → Nat
  | .counted _ _ | .published _ _ | .dropping _ | .leaving _ (.ok _) => 1
  | _ => 0

end Phase

/-- What is remembered of the calls. -/
inductive Event where
  /-- The making of a node has begun. -/
  | begun (text : Text)
  /-- A node was made. -/
  | succeeded (text : Text)
  /-- The node of the text was put into the store. -/
  | published (text : Text)
  | returned (text : Text) (n : Node)
  | raised (text : Text) (f : Failure)

namespace Event

/-- The end of a call. -/
def ended (text : Text) : Except Failure Node → Event
  | .ok n => .returned text n
  | .error f => .raised text f

def isSuccess (t : Text) : Event → Bool
  | .succeeded u => u = t
  | _ => false

def isReturn : Event → Bool
  | .returned _ _ => true
  | _ => false

end Event

/-- What the threads share. -/
structure Shared where
  store : Store
  /-- The lock of each text that has one. -/
  locks : Std.TreeMap Text Lock := ∅
  /-- The number of the next lock. -/
  next : Lock := 0
  /-- The locks that are held by some thread. -/
  held : Finset Lock := ∅

namespace Shared

/-- The lock of a text, which is made if there is none. -/
def lockFor (sh : Shared) (t : Text) : Lock × Shared :=
  match sh.locks[t]? with
  | some lock => (lock, sh)
  | none => (sh.next, { sh with locks := sh.locks.insert t sh.next, next := sh.next + 1 })

def acquire (sh : Shared) (lock : Lock) : Shared := { sh with held := insert lock sh.held }

def release (sh : Shared) (lock : Lock) : Shared := { sh with held := sh.held.erase lock }

@[simp] theorem store_lockFor (sh : Shared) (t : Text) : (sh.lockFor t).2.store = sh.store := by
  unfold lockFor
  split <;> rfl

@[simp] theorem held_lockFor (sh : Shared) (t : Text) : (sh.lockFor t).2.held = sh.held := by
  unfold lockFor
  split <;> rfl

/-- The lock of a text is fetched and acquired. -/
def enter (sh : Shared) (t : Text) : Shared := (sh.lockFor t).2.acquire (sh.lockFor t).1

@[simp] theorem store_enter (sh : Shared) (t : Text) : (sh.enter t).store = sh.store :=
  store_lockFor sh t

@[simp] theorem held_enter (sh : Shared) (t : Text) :
    (sh.enter t).held = insert (sh.lockFor t).1 sh.held := by
  show insert _ (sh.lockFor t).2.held = _
  rw [held_lockFor]

/-- The lock that is fetched is the lock of the text. -/
@[simp] theorem locks_lockFor (sh : Shared) (t : Text) :
    (sh.lockFor t).2.locks[t]? = some (sh.lockFor t).1 := by
  unfold lockFor
  split
  · next h => exact h
  · simp

/-- A text that has a lock keeps it when another one is fetched. -/
theorem locks_lockFor_of_some {sh : Shared} {t u : Text} {lock : Lock}
    (h : sh.locks[u]? = some lock) : (sh.lockFor t).2.locks[u]? = some lock := by
  unfold lockFor
  split
  · exact h
  · next hnone =>
    have hne : t ≠ u := by
      rintro rfl
      rw [hnone] at h
      cases h
    simp [Std.TreeMap.getElem?_insert, hne, h]

end Shared

/-- A thread is idle, or it stands somewhere in a call. -/
abbrev Thread := Option (Order × Phase)

/-- What a step leaves behind: the call at its next phase, unless it has ended. -/
structure After where
  shared : Shared
  phase? : Option Phase
  events : List Event

/-- The next step of a call. A thread that waits for a lock stays where it is. -/
def Phase.step (o : Order) (sh : Shared) : Phase → After
  | .asked =>
    match sh.store.get? o.text with
    | some n => ⟨sh, some (.found n), []⟩
    | none => ⟨sh, some .missed, []⟩
  | .found n => ⟨{ sh with store := sh.store.countHit }, none, [.returned o.text n]⟩
  | .missed => ⟨(sh.lockFor o.text).2, some (.queued (sh.lockFor o.text).1), []⟩
  | .queued lock =>
    if lock ∈ sh.held then ⟨sh, some (.queued lock), []⟩
    else ⟨{ sh with held := insert lock sh.held }, some (.entered lock), []⟩
  | .entered lock =>
    match sh.store.get? o.text with
    | some n => ⟨sh, some (.late lock n), []⟩
    | none => ⟨sh, some (.vacant lock), []⟩
  | .late lock n =>
    ⟨{ sh with store := sh.store.countHit }, some (.leaving lock (.ok n)), []⟩
  | .vacant lock => ⟨sh, some (.making lock), [.begun o.text]⟩
  | .making lock =>
    match o.outcome sh.store.nextStamp with
    | .error f => ⟨sh, some (.leaving lock (.error f)), []⟩
    | .ok n => ⟨{ sh with store := sh.store.issue }, some (.made lock n), [.succeeded o.text]⟩
  | .made lock n => ⟨{ sh with store := sh.store.countMade }, some (.counted lock n), []⟩
  | .counted lock n =>
    ⟨{ sh with store := sh.store.publish n }, some (.published lock n), [.published o.text]⟩
  | .published lock n => ⟨sh.release lock, some (.dropping n), []⟩
  | .dropping n => ⟨{ sh with locks := sh.locks.erase o.text }, none, [.returned o.text n]⟩
  | .leaving lock r => ⟨sh.release lock, none, [.ended o.text r]⟩

/-! ## What a step does -/

namespace Phase

variable {sh : Shared} {o : Order} {phase phase' : Phase} {lock : Lock} {t : Text}

/-- The node that a step puts into the store. -/
@[simp] def publishes? : Phase → Option Node
  | .counted _ n => some n
  | _ => none

theorem get?_step (o : Order) (sh : Shared) (phase : Phase) (t : Text) :
    (phase.step o sh).shared.store.get? t
      = match phase.publishes? with
        | some n => if n.text = t then some n else sh.store.get? t
        | none => sh.store.get? t := by
  cases phase with
  | counted lock n => exact Store.get?_publish sh.store n t
  | missed => simp [Phase.step]
  | asked | queued | entered | making =>
    simp only [Phase.step]
    split <;> rfl
  | _ => rfl

/-- Only the last step of a call that made a node takes a lock from a text. -/
theorem locks_step (o : Order) (phase : Phase) (h : sh.locks[t]? = some lock) :
    (phase.step o sh).shared.locks[t]? = some lock ∨ ∃ n, phase = .dropping n ∧ o.text = t := by
  cases phase with
  | missed => exact .inl (Shared.locks_lockFor_of_some h)
  | dropping n =>
    by_cases ht : o.text = t
    · exact .inr ⟨n, rfl, ht⟩
    · exact .inl (by simp [Phase.step, Std.TreeMap.getElem?_erase, ht, h])
  | asked | queued | entered | making =>
    simp only [Phase.step]
    split <;> exact .inl h
  | _ => exact .inl h

/-- A step releases no lock but the one that the call holds. -/
theorem mem_held_step (h : lock ∈ sh.held) (hother : phase.holds? ≠ some lock) :
    lock ∈ (phase.step o sh).shared.held := by
  cases phase with
  | published own | leaving own =>
    have hne : lock ≠ own := by
      rintro rfl
      exact hother rfl
    exact Finset.mem_erase.mpr ⟨hne, h⟩
  | queued own =>
    simp only [Phase.step]
    split
    · exact h
    · exact Finset.mem_insert_of_mem h
  | missed => simpa [Phase.step] using h
  | asked | entered | making =>
    simp only [Phase.step]
    split <;> exact h
  | _ => exact h

/-- A call keeps the lock that it holds, or releases it. -/
theorem holds?_step (o : Order) (sh : Shared) (h : phase.holds? = some lock) :
    lock ∉ (phase.step o sh).shared.held ∨
      ∃ phase', (phase.step o sh).phase? = some phase' ∧ phase'.holds? = some lock := by
  cases phase with
  | entered own | making own =>
    cases h
    simp only [Phase.step]
    split <;> exact .inr ⟨_, rfl, rfl⟩
  | late own | vacant own | made own | counted own =>
    cases h
    exact .inr ⟨_, rfl, rfl⟩
  | published own | leaving own =>
    cases h
    exact .inl (Finset.notMem_erase _ _)
  | asked | found | missed | queued | dropping => cases h

/-- A lock that is held after a step was held before, unless the call has just acquired it. -/
theorem mem_held_of_step (h : lock ∈ (phase.step o sh).shared.held) :
    lock ∈ sh.held ∨
      ∃ phase', (phase.step o sh).phase? = some phase' ∧ phase'.holds? = some lock := by
  cases phase with
  | queued own =>
    simp only [Phase.step] at h ⊢
    split at h
    · exact .inl h
    · next hfree =>
      rw [if_neg hfree]
      rcases Finset.mem_insert.mp h with rfl | h
      · exact .inr ⟨_, rfl, rfl⟩
      · exact .inl h
  | published | leaving => exact .inl (Finset.mem_of_mem_erase h)
  | missed => exact .inl (by simpa [Phase.step] using h)
  | asked | entered | making =>
    simp only [Phase.step] at h
    split at h <;> exact .inl h
  | _ => exact .inl h

/-- A call that holds a lock after a step held it before, or nobody did. -/
theorem holds?_of_step (hnext : (phase.step o sh).phase? = some phase')
    (h : phase'.holds? = some lock) : phase.holds? = some lock ∨ lock ∉ sh.held := by
  cases phase with
  | queued own =>
    simp only [Phase.step] at hnext
    split at hnext
    · cases hnext
      cases h
    · next hfree =>
      cases hnext
      cases h
      exact .inr hfree
  | asked | entered | making =>
    simp only [Phase.step] at hnext
    split at hnext <;> cases hnext <;> exact .inl h
  | found | dropping | leaving => cases hnext
  | missed | published =>
    cases hnext
    cases h
  | _ =>
    cases hnext
    exact .inl h

end Phase

/-! ## What one thread relies on -/

namespace Phase

/-- A call that stands at a phase fits what the threads share. -/
structure Fits (phase : Phase) (sh : Shared) (o : Order) : Prop where
  /-- As long as the text has no node, the lock that was fetched is the lock of the text. -/
  lock_eq : ∀ lock, phase.lock? = some lock → sh.store.get? o.text = none →
    sh.locks[o.text]? = some lock
  held : ∀ lock, phase.holds? = some lock → lock ∈ sh.held
  /-- While the node is on its way, the store has none. -/
  absent : phase.isMaking = true → sh.store.get? o.text = none
  text_eq : ∀ n, phase.made? = some n → n.text = o.text
  /-- What the call is going to return is what the store has. -/
  present : ∀ n, phase.answer? = some n → sh.store.get? o.text = some n

variable {sh : Shared} {o o₂ : Order} {phase phase' phase₂ : Phase} {lock : Lock}

theorem lock?_of_holds? (h : phase.holds? = some lock) : phase.lock? = some lock := by
  cases phase <;> simp_all

theorem exists_holds?_of_isMaking (h : phase.isMaking = true) :
    ∃ lock, phase.holds? = some lock := by
  cases phase <;> simp_all

theorem Fits.step (h : phase.Fits sh o) (hnext : (phase.step o sh).phase? = some phase') :
    phase'.Fits (phase.step o sh).shared o := by
  obtain ⟨hlock, hheld, habsent, htext, hpresent⟩ := h
  cases phase with
  | asked =>
    simp only [Phase.step] at hnext ⊢
    split at hnext <;> cases hnext <;> constructor <;> simp_all
  | found n => cases hnext
  | missed =>
    cases hnext
    constructor <;> simp [Phase.step]
  | queued lock =>
    simp only [Phase.step] at hnext ⊢
    split at hnext <;> cases hnext <;> constructor <;> simp_all
  | entered lock =>
    simp only [Phase.step] at hnext ⊢
    split at hnext <;> cases hnext <;> constructor <;> simp_all
  | late lock n =>
    cases hnext
    constructor <;> simp_all [Phase.step]
  | vacant lock =>
    cases hnext
    constructor <;> simp_all [Phase.step]
  | making lock =>
    simp only [Phase.step] at hnext ⊢
    split at hnext
    · cases hnext
      constructor <;> simp_all
    · next n hn =>
      cases hnext
      have := Order.text_of_outcome hn
      constructor <;> simp_all
  | made lock n =>
    cases hnext
    constructor <;> simp_all [Phase.step]
  | counted lock n =>
    cases hnext
    constructor <;> simp_all [Phase.step, Store.get?_publish]
  | published lock n =>
    cases hnext
    constructor <;> simp_all [Phase.step, Shared.release]
  | dropping n => cases hnext
  | leaving lock r => cases hnext

/-- Two calls that are under way at once hold different locks. -/
def Apart (phase phase₂ : Phase) : Prop :=
  ∀ lock, phase.holds? = some lock → phase₂.holds? ≠ some lock

theorem Apart.symm (h : phase.Apart phase₂) : phase₂.Apart phase :=
  fun lock h₂ h₁ => h lock h₁ h₂

/-- **Two threads never make the node of one text.** -/
theorem Fits.text_ne (h : phase.Fits sh o) (h₂ : phase₂.Fits sh o₂) (hapart : phase.Apart phase₂)
    (hmaking : phase.isMaking = true) (hmaking₂ : phase₂.isMaking = true) : o.text ≠ o₂.text := by
  intro htext
  obtain ⟨lock, hlock⟩ := exists_holds?_of_isMaking hmaking
  obtain ⟨lock₂, hlock₂⟩ := exists_holds?_of_isMaking hmaking₂
  -- The text has no node yet, so both hold the lock of the text.
  have heq := h.lock_eq lock (lock?_of_holds? hlock) (h.absent hmaking)
  have heq₂ := h₂.lock_eq lock₂ (lock?_of_holds? hlock₂) (h₂.absent hmaking₂)
  rw [htext, heq₂] at heq
  cases heq
  exact hapart lock hlock hlock₂

/-- A step loses no node of the store. -/
theorem Fits.keptIn (h : phase.Fits sh o) : sh.store.KeptIn (phase.step o sh).shared.store := by
  intro t n hn
  rw [get?_step]
  cases phase with
  | counted lock m =>
    -- The node that is put into the store is for a text that had none.
    have hne : m.text ≠ t := by
      intro heq
      rw [← heq, h.text_eq m rfl, h.absent rfl] at hn
      cases hn
    exact (if_neg hne).trans hn
  | _ => exact hn

/-- **A step of one thread is no concern of the others.** -/
theorem Fits.step_of_other (h : phase.Fits sh o) (h₂ : phase₂.Fits sh o₂)
    (hapart : phase.Apart phase₂) : phase₂.Fits (phase.step o sh).shared o₂ where
  lock_eq := by
    intro lock hlock hnone
    have hbefore : sh.store.get? o₂.text = none := by
      cases hget : sh.store.get? o₂.text with
      | none => rfl
      | some n =>
        rw [h.keptIn hget] at hnone
        cases hnone
    rcases locks_step o phase (h₂.lock_eq lock hlock hbefore)
      with hsame | ⟨n, rfl, htext⟩
    · exact hsame
    · -- A lock is taken from a text only when it has its node.
      have hpresent := h.present n rfl
      rw [htext, hbefore] at hpresent
      cases hpresent
  held := fun lock hlock => mem_held_step (h₂.held lock hlock) fun hown => hapart lock hown hlock
  absent := by
    intro hmaking₂
    rw [get?_step]
    cases phase with
    | counted lock n =>
      have hne : n.text ≠ o₂.text := by
        rw [h.text_eq n rfl]
        exact h.text_ne h₂ hapart rfl hmaking₂
      exact (if_neg hne).trans (h₂.absent hmaking₂)
    | _ => exact h₂.absent hmaking₂
  text_eq := h₂.text_eq
  present := fun n hn => h.keptIn (h₂.present n hn)

theorem Fits.apart_step (h₂ : phase₂.Fits sh o₂) (hapart : phase.Apart phase₂)
    (hnext : (phase.step o sh).phase? = some phase') : phase'.Apart phase₂ := by
  intro lock hlock hlock₂
  rcases holds?_of_step hnext hlock with hown | hfree
  · exact hapart lock hown hlock₂
  · exact hfree (h₂.held lock hlock₂)

end Phase

/-! ## What a step enters in the history -/

namespace Phase

variable {sh : Shared} {o : Order} {phase : Phase}

/-- What a step enters in the history. -/
theorem events_step (o : Order) (sh : Shared) (phase : Phase) :
    (phase.step o sh).events = [] ∨
    (∃ lock, phase = .vacant lock ∧ (phase.step o sh).events = [.begun o.text]) ∨
    (∃ lock n, phase = .making lock ∧ (phase.step o sh).phase? = some (.made lock n) ∧
      (phase.step o sh).events = [.succeeded o.text]) ∨
    (∃ lock n, phase = .counted lock n ∧ (phase.step o sh).events = [.published o.text]) ∨
    (∃ n, phase.answer? = some n ∧ (phase.step o sh).events = [.returned o.text n]) ∨
    ∃ f, (phase.step o sh).events = [.raised o.text f] := by
  cases phase with
  | asked | queued | entered =>
    simp only [Phase.step]
    split <;> exact .inl rfl
  | missed | late | made | published => exact .inl rfl
  | vacant lock => exact .inr (.inl ⟨lock, rfl, rfl⟩)
  | making lock =>
    cases hmade : o.outcome sh.store.nextStamp with
    | error f => exact .inl (by simp only [Phase.step, hmade])
    | ok n =>
      exact .inr (.inr (.inl ⟨lock, n, rfl, by simp only [Phase.step, hmade],
        by simp only [Phase.step, hmade]⟩))
  | counted lock n => exact .inr (.inr (.inr (.inl ⟨lock, n, rfl, rfl⟩)))
  | found n | dropping n => exact .inr (.inr (.inr (.inr (.inl ⟨n, rfl, rfl⟩))))
  | leaving lock r =>
    cases r with
    | ok n => exact .inr (.inr (.inr (.inr (.inl ⟨n, rfl, rfl⟩))))
    | error f => exact .inr (.inr (.inr (.inr (.inr ⟨f, rfl⟩))))

theorem of_begun_mem_events {t : Text} (h : .begun t ∈ (phase.step o sh).events) :
    t = o.text ∧ phase.isMaking = true := by
  rcases events_step o sh phase with
    he | ⟨_, rfl, he⟩ | ⟨_, _, -, -, he⟩ | ⟨_, _, -, he⟩ | ⟨_, -, he⟩ | ⟨_, he⟩ <;>
    rw [he] at h <;> simp_all

theorem of_published_mem_events {t : Text} (h : .published t ∈ (phase.step o sh).events) :
    t = o.text ∧ ∃ lock n, phase = .counted lock n := by
  rcases events_step o sh phase with
    he | ⟨_, -, he⟩ | ⟨_, _, -, -, he⟩ | ⟨_, _, rfl, he⟩ | ⟨_, -, he⟩ | ⟨_, he⟩ <;>
    rw [he] at h <;> simp_all

theorem of_returned_mem_events {t : Text} {n : Node}
    (h : .returned t n ∈ (phase.step o sh).events) : t = o.text ∧ phase.answer? = some n := by
  rcases events_step o sh phase with
    he | ⟨_, -, he⟩ | ⟨_, _, -, -, he⟩ | ⟨_, _, -, he⟩ | ⟨_, ha, he⟩ | ⟨_, he⟩ <;>
    rw [he] at h <;> simp_all

theorem countP_isSuccess_events (o : Order) (sh : Shared) (phase : Phase) (t : Text) :
    (phase.step o sh).events.countP (·.isSuccess t) = 0 ∨
    (phase.step o sh).events.countP (·.isSuccess t) = 1 ∧ t = o.text ∧
      ∃ lock n, phase = .making lock ∧ (phase.step o sh).phase? = some (.made lock n) := by
  rcases events_step o sh phase with
    he | ⟨_, -, he⟩ | ⟨lock, n, hphase, hnext, he⟩ | ⟨_, _, -, he⟩ | ⟨_, -, he⟩ | ⟨_, he⟩ <;>
    rw [he]
  case inr.inr.inl =>
    by_cases ht : o.text = t
    · exact .inr ⟨by simp [Event.isSuccess, ht], ht.symm, lock, n, hphase, hnext⟩
    · exact .inl (by simp [Event.isSuccess, ht])
  all_goals exact .inl (by simp [Event.isSuccess])

/-- A node that was made stays with the call until it is in the store. -/
theorem Fits.made_step (h : phase.Fits sh o) (hmade : phase.made?.isSome = true) :
    (phase.step o sh).shared.store.get? o.text ≠ none ∨
      ∃ next, (phase.step o sh).phase? = some next ∧ next.made?.isSome = true := by
  cases phase with
  | made lock n => exact .inr ⟨_, rfl, rfl⟩
  | counted lock n =>
    refine .inl ?_
    rw [get?_step]
    simp [h.text_eq n rfl]
  | _ => cases hmade

theorem isMaking_of_made (h : phase.made?.isSome = true) : phase.isMaking = true := by
  cases phase <;> simp_all

end Phase

end Pyramid
