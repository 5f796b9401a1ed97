import DirectoryWatch.Proofs.Clock.Sum
import DirectoryWatch.Proofs.Session.Reading

/-!
# When a batch is due

The time at which a batch is due is the exact sum of the opening of its window and the latency,
whatever these are. Where the clock has no such moment, no moment is late enough, and the batch stays
until it is taken.
-/

namespace DirectoryWatch.Session

variable {s : Session} {opened : Moment}

theorem flushDeadline_of_opened (hs : s.opened = some opened) :
    s.flushDeadline = opened.add? s.latency := by
  rw [flushDeadline, hs, Option.bind_some]

theorem takeDue_of_opened (hs : s.opened = some opened) (now : Moment) :
    s.takeDue now =
      if opened.nanoseconds + s.latency.nanoseconds ≤ now.nanoseconds then
        (some s.takeBatch.1, s.takeBatch.2)
      else (none, s) := by
  have passed : (∃ d, s.flushDeadline = some d ∧ d ≤ now) ↔
      opened.nanoseconds + s.latency.nanoseconds ≤ now.nanoseconds := by
    rw [flushDeadline_of_opened hs]
    exact Moment.add?_le_iff
  split
  · rename_i due
    obtain ⟨d, hd, before⟩ := passed.mpr due
    exact takeDue_of_due hd before
  · rename_i early
    exact takeDue_of_not_due fun d hd before => early (passed.mp ⟨d, hd, before⟩)

/-- **Due times.** A batch with an open window is given out whole from the moment on that lies the
latency after the opening, and before that it stays. If the clock has no such moment the batch is never
due, and it is given out whole when it is taken. The deadline is that moment, and adding in words
that wrap gives it too. -/
theorem due_exactly {s : Session} {opened : Moment} (hs : s.opened = some opened) :
    let due := opened.nanoseconds + s.latency.nanoseconds
    let left : Session := { s with batch := .empty, opened := none }
    (∀ now, s.takeDue now =
      if due ≤ now.nanoseconds then (some s.batch.events, left) else (none, s)) ∧
    (∀ d, s.flushDeadline = some d ↔ d.nanoseconds = due) ∧
    ((∀ d : Moment, d.nanoseconds ≠ due) →
      s.flushDeadline = none ∧ (∀ now, s.takeDue now = (none, s)) ∧
      s.takeBatch = (s.batch.events, left)) ∧
    s.flushDeadline.map Moment.words = opened.addWords? s.latency := by
  intro due left
  have deadline := flushDeadline_of_opened hs
  refine ⟨takeDue_of_opened hs, ?_, ?_, ?_⟩
  · intro d
    rw [deadline]
    exact Moment.add?_eq_some_iff
  · intro missing
    have never : s.flushDeadline = none := by
      rw [deadline]
      exact Moment.add?_eq_none_iff.mpr missing
    exact ⟨never, fun now => takeDue_of_not_due (by simp [never]), rfl⟩
  · rw [deadline, Moment.addWords?_eq]

/-- Two nanoseconds before the clock ends a window of two is opened, which is over at its last moment,
and one of three, which is never over. -/
theorem due_exactly_at_end :
    let root : Path := ⟨[0x2F]⟩
    let opened : Moment := ⟨Int64.maxValue, ⟨nanosPerSecond - 3, by decide⟩⟩
    let e : Event := ⟨root, .modified, .origin⟩
    let s (latency : Duration) : Session :=
      ⟨root, true, latency, none, .make root 0 true, Coalescer.empty.record e, some opened, []⟩
    let two : Duration := ⟨0, ⟨2, by decide⟩⟩
    let three : Duration := ⟨0, ⟨3, by decide⟩⟩
    ((s two).takeDue .last).1 = some [e] ∧ ((s two).takeDue opened).1 = none ∧
    (∀ now, (s three).takeDue now = (none, s three)) ∧ (s three).takeBatch.1 = [e] ∧
    opened.addWords? two = some (Int64.maxValue, 999999999) ∧ opened.addWords? three = none := by
  intro root opened e s two three
  have open' (latency : Duration) : (s latency).opened = some opened := rfl
  obtain ⟨taken, deadline, _, words⟩ := due_exactly (open' two)
  obtain ⟨_, _, missing, words'⟩ := due_exactly (open' three)
  have at_end : (s two).flushDeadline = some .last := (deadline .last).mpr (by decide)
  have past : ∀ d : Moment, d.nanoseconds ≠ opened.nanoseconds + (s three).latency.nanoseconds := by
    intro d
    have within := (Moment.le_iff d .last).mp (Moment.le_last d)
    have sum : opened.nanoseconds + (s three).latency.nanoseconds = Moment.last.nanoseconds + 1 := by
      decide
    omega
  obtain ⟨none, never, whole⟩ := missing past
  refine ⟨?_, ?_, never, ?_, ?_, ?_⟩
  · rw [taken, if_pos (by decide)]
    rfl
  · rw [taken, if_neg (by decide)]
  · rw [whole]
    rfl
  · rw [← words, at_end]
    rfl
  · rw [← words', none]
    rfl

end DirectoryWatch.Session
