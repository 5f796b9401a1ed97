import DirectoryWatch.EventQueue
import DirectoryWatch.Proofs.Trace
import Mathlib.Logic.Function.Basic

/-!
# The hand-off from producers to consumers

Threads share a queue, in any number and any order; each step is what one of them does under the
lock. A thread that waits for events lets go of the lock while there are none, looks again when it
is woken, and makes do with what there is when its time is up. Whoever takes events takes whole
batches, and all batches are taken in the order in which they were pushed.
-/

namespace DirectoryWatch.EventQueue

/-- What a waiting thread wants of the events: to hear that there are some, or to take them. -/
inductive Wish where
  | tell
  | take

inductive Step where
  | push (batch : List Event)
  | pop
  | size
  | isEmpty
  /-- A wait begins. -/
  | await (wish : Wish)
  /-- A waiting thread looks again, for a push or for no reason. -/
  | wake
  /-- The time of a waiting thread is up. -/
  | expire

inductive Answer where
  | done
  | events (events : List Event)
  | size (size : Nat)
  | empty (empty : Bool)
  | available (available : Bool)
  deriving DecidableEq

/-- What a wait ends with. -/
def Wish.grant (q : EventQueue) : Wish → EventQueue × Answer
  | .tell => (q, .available !q.isEmpty)
  | .take => (q.pop.2, .events q.pop.1)

/-- A queue, and the threads that wait for it. -/
structure Shared (Thread : Type) where
  queue : EventQueue
  waiting : Thread → Option Wish

namespace Shared

variable {Thread : Type}

def start : Shared Thread := ⟨.empty, fun _ => none⟩

/-! ## Blocks of batches -/

/-- What was taken are the first of the pushed batches, in blocks of whole batches, and the others
are still in the queue. -/
def Handed (s : Shared Thread) (pushed taken : List (List Event)) : Prop :=
  ∃ (blocks : List (List (List Event))) (left : List (List Event)),
    pushed = blocks.flatten ++ left ∧ taken = blocks.map List.flatten ∧
    s.queue.buffered = left.flatten

variable {s : Shared Thread} {pushed taken : List (List Event)}

theorem handed_start : Handed (start : Shared Thread) [] [] := ⟨[], [], rfl, rfl, rfl⟩

theorem Handed.push (h : s.Handed pushed taken) (batch : List Event) :
    Handed { s with queue := s.queue.push batch } (pushed ++ [batch]) taken := by
  obtain ⟨blocks, left, rfl, taken, buffered⟩ := h
  refine ⟨blocks, left ++ [batch], ?_, taken, ?_⟩
  · rw [List.append_assoc]
  · rw [buffered_push, buffered, List.flatten_append, List.flatten_singleton]

theorem Handed.take (h : s.Handed pushed taken) (waiting : Thread → Option Wish) :
    Handed ⟨s.queue.pop.2, waiting⟩ pushed (taken ++ [s.queue.pop.1]) := by
  obtain ⟨blocks, left, rfl, rfl, buffered⟩ := h
  refine ⟨blocks ++ [left], [], ?_, ?_, rfl⟩
  · rw [List.flatten_append, List.flatten_singleton, List.append_nil]
  · rw [List.map_append, List.map_singleton, ← buffered]
    rfl

theorem Handed.still (h : s.Handed pushed taken) (waiting : Thread → Option Wish) :
    Handed ⟨s.queue, waiting⟩ (pushed ++ []) (taken ++ []) := by
  rw [List.append_nil, List.append_nil]
  exact h

/-! ## Steps -/

variable [DecidableEq Thread]

/-- A thread has what it wished for. -/
def settle (s : Shared Thread) (t : Thread) (wish : Wish) : Shared Thread × Option Answer :=
  (⟨(wish.grant s.queue).1, Function.update s.waiting t none⟩, some (wish.grant s.queue).2)

/-- A step of a thread, and the answer if a call of the thread ends with it. Who waits does nothing
else, and who does not wait is not woken. -/
def act (s : Shared Thread) (t : Thread) (step : Step) : Shared Thread × Option Answer :=
  match s.waiting t, step with
  | none, .push batch => ({ s with queue := s.queue.push batch }, some .done)
  | none, .pop => ({ s with queue := s.queue.pop.2 }, some (.events s.queue.pop.1))
  | none, .size => (s, some (.size s.queue.size))
  | none, .isEmpty => (s, some (.empty s.queue.isEmpty))
  | none, .await wish =>
    if s.queue.isEmpty then
      ({ s with waiting := Function.update s.waiting t (some wish) }, none)
    else s.settle t wish
  | some wish, .wake => if s.queue.isEmpty then (s, none) else s.settle t wish
  | some wish, .expire => s.settle t wish
  | none, .wake | none, .expire | some _, _ => (s, none)

def next (s : Shared Thread) (a : Thread × Step) : Shared Thread := (s.act a.1 a.2).1

def run (s : Shared Thread) (acts : List (Thread × Step)) : Shared Thread := acts.foldl next s

/-- The batch that an act pushes. -/
def pushedBy (s : Shared Thread) (a : Thread × Step) : List (List Event) :=
  match s.waiting a.1, a.2 with
  | none, .push batch => [batch]
  | _, _ => []

/-- What an act takes out of the queue. -/
def takenBy (s : Shared Thread) (a : Thread × Step) : List (List Event) :=
  match (s.act a.1 a.2).2 with
  | some (.events events) => [events]
  | _ => []

/-! ## First in, first out -/

theorem Handed.settle (h : s.Handed pushed taken) (t : Thread) (wish : Wish) :
    Handed (s.settle t wish).1 (pushed ++ [])
      (taken ++ match (s.settle t wish).2 with
        | some (.events events) => [events]
        | _ => []) := by
  cases wish with
  | tell => exact h.still _
  | take =>
    rw [List.append_nil]
    exact h.take _

theorem Handed.act (h : s.Handed pushed taken) (a : Thread × Step) :
    Handed (s.next a) (pushed ++ s.pushedBy a) (taken ++ s.takenBy a) := by
  obtain ⟨t, step⟩ := a
  unfold next pushedBy takenBy Shared.act
  cases hw : s.waiting t with
  | none =>
    cases step with
    | push batch =>
      simp only [List.append_nil]
      exact h.push batch
    | pop =>
      simp only [List.append_nil]
      exact h.take s.waiting
    | size | isEmpty | wake | expire => exact h.still s.waiting
    | await wish =>
      simp only
      split
      · exact h.still _
      · exact h.settle t wish
  | some wish =>
    cases step with
    | wake =>
      simp only
      split
      · exact h.still s.waiting
      · exact h.settle t wish
    | expire => exact h.settle t wish
    | push | pop | size | isEmpty | await => exact h.still s.waiting

theorem Handed.run (h : s.Handed pushed taken) (acts : List (Thread × Step)) :
    Handed (s.run acts) (pushed ++ noted next pushedBy s acts) (taken ++ noted next takenBy s acts) := by
  induction acts generalizing s pushed taken with
  | nil => exact h.still s.waiting
  | cons a rest ih =>
    unfold noted
    rw [← List.append_assoc, ← List.append_assoc]
    exact ih (h.act a)

/-! ## One consumer -/

/-- The act takes nothing out of the queue when only the consumer ever waits for events. -/
def Sparing (consumer : Thread) (a : Thread × Step) : Prop :=
  match a.2 with
  | .push _ | .size | .isEmpty => True
  | .pop | .await .take => False
  | .await .tell | .wake | .expire => a.1 = consumer

/-- The consumer is free, and there is something for it. -/
def Supplied (s : Shared Thread) (consumer : Thread) : Prop :=
  s.waiting consumer = none ∧ s.queue.buffered ≠ []

variable {consumer : Thread}

theorem isEmpty_eq_false_iff (q : EventQueue) : q.isEmpty = false ↔ q.buffered ≠ [] := by
  simp [EventQueue.isEmpty]

theorem supplied_settle {t : Thread} {wish : Wish}
    (told : (s.settle t wish).2 = some (.available true)) : Supplied (s.settle t wish).1 t := by
  cases wish with
  | take => simp [settle, Wish.grant] at told
  | tell =>
    have free : Function.update s.waiting t none t = none := Function.update_self t none s.waiting
    refine ⟨free, ?_⟩
    simpa [settle, Wish.grant, EventQueue.isEmpty] using told

theorem supplied_of_told {step : Step} (told : (s.act consumer step).2 = some (.available true)) :
    Supplied (s.act consumer step).1 consumer := by
  unfold Shared.act at told ⊢
  cases hw : s.waiting consumer with
  | none =>
    rw [hw] at told
    cases step with
    | await wish =>
      simp only at told ⊢
      split at told
      · cases told
      · rename_i some
        rw [if_neg some]
        exact supplied_settle told
    | push | pop | size | isEmpty | wake | expire => simp at told
  | some wish =>
    rw [hw] at told
    cases step with
    | wake =>
      simp only at told ⊢
      split at told
      · cases told
      · rename_i some
        rw [if_neg some]
        exact supplied_settle told
    | expire => exact supplied_settle told
    | push | pop | size | isEmpty | await => simp at told

theorem Supplied.act (h : s.Supplied consumer) {a : Thread × Step} (sparing : Sparing consumer a) :
    (s.next a).Supplied consumer := by
  obtain ⟨free, some⟩ := h
  have full : s.queue.isEmpty = false := (isEmpty_eq_false_iff s.queue).mpr some
  obtain ⟨t, step⟩ := a
  unfold next Shared.act
  cases step with
  | push batch =>
    cases s.waiting t with
    | some => exact ⟨free, some⟩
    | none => exact ⟨free, by simp [some]⟩
  | size | isEmpty => cases s.waiting t <;> exact ⟨free, some⟩
  | pop => cases sparing
  | await wish =>
    cases wish with
    | take => cases sparing
    | tell =>
      obtain rfl : t = consumer := sparing
      simp only [free, full, Bool.false_eq_true, if_false]
      have free : Function.update s.waiting t none t = none := Function.update_self t none s.waiting
      exact ⟨free, some⟩
  | wake | expire =>
    obtain rfl : t = consumer := sparing
    simp only [free]
    exact ⟨free, some⟩

theorem Supplied.run (h : s.Supplied consumer) {acts : List (Thread × Step)}
    (sparing : ∀ a ∈ acts, Sparing consumer a) : (s.run acts).Supplied consumer := by
  induction acts generalizing s with
  | nil => exact h
  | cons a rest ih =>
    exact ih (h.act (sparing a List.mem_cons_self)) fun b hb => sparing b (List.mem_cons_of_mem _ hb)

theorem Supplied.pop (h : s.Supplied consumer) :
    ∃ e rest, (s.act consumer .pop).2 = some (.events (e :: rest)) := by
  obtain ⟨free, some⟩ := h
  obtain ⟨e, rest, hb⟩ := List.exists_cons_of_ne_nil some
  refine ⟨e, rest, ?_⟩
  unfold Shared.act
  simp [free, EventQueue.pop, hb]

/-- **The hand-off.** Whatever threads do with a queue, what they took out of it and what is left are
the pushed batches, in order, once each, and none cut in two. A consumer who is told that there are
events, and is the only one, finds some when it next takes them. -/
theorem handoff (acts : List (Thread × Step)) :
    let s := (start : Shared Thread).run acts
    let pushed := noted next pushedBy start acts
    let taken := noted next takenBy start acts
    taken.flatten ++ s.queue.buffered = pushed.flatten ∧
    (∃ (blocks : List (List (List Event))) (left : List (List Event)),
      pushed = blocks.flatten ++ left ∧ taken = blocks.map List.flatten ∧
      s.queue.buffered = left.flatten) ∧
    ∀ consumer step between, (s.act consumer step).2 = some (.available true) →
      (∀ a ∈ between, Sparing consumer a) →
      ∃ e rest, (((s.act consumer step).1.run between).act consumer .pop).2 =
        some (.events (e :: rest)) := by
  intro s pushed taken
  have handed : s.Handed pushed taken := handed_start.run acts
  refine ⟨?_, handed, ?_⟩
  · obtain ⟨blocks, left, hp, ht, hb⟩ := handed
    rw [hp, ht, hb, List.flatten_append, List.flatten_flatten]
  · intro consumer step between told sparing
    exact ((supplied_of_told told).run sparing).pop

/-- Two producers hand over three events; the first push races with the end of the consumer's wait. -/
theorem handoff_raced :
    let e (byte : UInt8) : Event := ⟨⟨[0x2F, byte]⟩, .created, .origin⟩
    let acts : List (Nat × Step) := [(0, .await .tell), (1, .push [e 1])]
    let between : List (Nat × Step) := [(2, .push [e 2, e 3]), (0, .size)]
    let s := (start : Shared Nat).run acts
    (s.act 0 .expire).2 = some (.available true) ∧
    (∀ a ∈ between, Sparing 0 a) ∧
    ((start.run (acts ++ (0, .expire) :: between)).act 0 .pop).2 =
      some (.events [e 1, e 2, e 3]) ∧
    ∃ first rest, (((s.act 0 .expire).1.run between).act 0 .pop).2 =
      some (.events (first :: rest)) := by
  intro e acts between s
  have told : (s.act 0 .expire).2 = some (.available true) := by decide +kernel
  have sparing : ∀ a ∈ between, Sparing 0 a := by simp [between, Sparing]
  exact ⟨told, sparing, by decide +kernel, (handoff acts).2.2 0 .expire between told sparing⟩

/-! ## Waits on a timeline -/

/-- The batches of a producer that come in while the consumer waits. -/
def pushes (producer : Thread) (batches : List (List Event)) : List (Thread × Step) :=
  batches.map fun batch => (producer, .push batch)

variable {wish : Wish}

theorem awaitWithin_course (producer : Thread) {t : Timeline} (limit steps : Nat)
    (same : s.queue = t.queue) (waits : s.waiting consumer = some wish) (free : s.waiting producer = none) :
    ∃ batches last, (s.run (pushes producer batches)).act consumer last =
      settle ⟨(t.awaitWithin limit steps).queue, s.waiting⟩ consumer wish := by
  have expired {s : Shared Thread} (waits : s.waiting consumer = some wish) :
      s.act consumer .expire = s.settle consumer wish := by
    unfold Shared.act
    rw [waits]
  induction steps generalizing s t with
  | zero =>
    refine ⟨[], .expire, ?_⟩
    rw [Timeline.awaitWithin, ← same]
    exact expired waits
  | succ steps ih =>
    unfold Timeline.awaitWithin
    split
    · split
      · refine ⟨[], .expire, ?_⟩
        rw [← same]
        exact expired waits
      · rename_i due batch rest _
        have pushed : s.next (producer, .push batch) = ⟨s.queue.push batch, s.waiting⟩ := by
          unfold next Shared.act
          rw [free]
        obtain ⟨batches, last, course⟩ := ih (s := s.next (producer, .push batch))
          (t := ⟨t.queue.push batch, max t.now due, rest⟩) (by rw [pushed, same])
          (by rw [pushed]; exact waits) (by rw [pushed]; exact free)
        refine ⟨batch :: batches, last, ?_⟩
        rw [pushed] at course
        rw [← course, ← pushed]
        rfl
    · rename_i some
      refine ⟨[], .wake, ?_⟩
      change s.act consumer .wake = _
      unfold Shared.act
      rw [waits, ← same]
      exact if_neg (by rwa [same])

/-- A wait on a timeline is a course of these steps, in which a producer pushes what comes in. -/
theorem await_course (t : Timeline) (ms : Nat) (wish : Wish) {producer : Thread}
    (apart : consumer ≠ producer) (same : s.queue = t.queue) (free : s.waiting consumer = none)
    (others : s.waiting producer = none) :
    let awaited := settle ⟨(t.await ms).queue, s.waiting⟩ consumer wish
    (t.queue.isEmpty = false → s.act consumer (.await wish) = awaited) ∧
    (t.queue.isEmpty = true → ∃ batches last,
      (s.run ((consumer, .await wish) :: pushes producer batches)).act consumer last = awaited) := by
  intro awaited
  have began : s.act consumer (.await wish) =
      if s.queue.isEmpty then
        ({ s with waiting := Function.update s.waiting consumer (some wish) }, none)
      else s.settle consumer wish := by
    unfold Shared.act
    rw [free]
  rw [same] at began
  constructor
  · intro some
    have stays : (t.await ms).queue = s.queue := by
      rw [Timeline.await, Timeline.awaitWithin, some, same]
      rfl
    rw [began, some]
    simp only [awaited, stays]
    rfl
  · intro none
    rw [none, if_pos rfl] at began
    have waiting : s.next (consumer, .await wish) =
        { s with waiting := Function.update s.waiting consumer (some wish) } := by
      rw [next, began, same]
    obtain ⟨batches, last, course⟩ := awaitWithin_course producer
      (s := s.next (consumer, .await wish)) (t.now + ms) (t.later.length + 1)
      (by rw [waiting, same])
      (by rw [waiting]; exact Function.update_self consumer _ s.waiting)
      (by rw [waiting]; exact (Function.update_of_ne apart.symm _ s.waiting).trans others)
    refine ⟨batches, last, course.trans ?_⟩
    -- The thread is free again, and nothing tells that it has waited.
    simp only [awaited, settle, waiting, Function.update_idem]
    rfl

end Shared

end DirectoryWatch.EventQueue
