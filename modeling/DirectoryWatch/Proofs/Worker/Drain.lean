import DirectoryWatch.Proofs.Worker.Conservation
import DirectoryWatch.Proofs.Worker.Failure

/-!
# The drain

After a stop the sessions are read once more, one after the other. The first fault ends that: the
sessions behind it are not read any more, and what was pending there never comes out.
-/

namespace DirectoryWatch.Worker

variable {w : Worker} {around : Surroundings} {after : List Occurrence} {k i : Nat} {s t : Session}

/-- The read of a session in the drain. -/
structure Drain where
  position : Nat
  reading : Reading
  result : Except Fault Nat

def Drain.Well (d : Drain) : Prop := ∃ n, d.result = .ok n

def Drain.of (s : Session) (position : Nat) (around : Surroundings) : Drain :=
  ⟨position, s.reading around.disk around.observed,
    (s.ingest around.disk around.now around.observed).1⟩

def drainOf (w : Worker) : Occurrence → List Drain
  | .step around =>
    match w.phase with
    | .draining i => (w.sessions[i]?).toList.map fun s => Drain.of s i around
    | .waiting | .reading _ | .timing | .sweeping _ _ | .delivering _ _ | .exited => []
  | .sent _ _ | .severed _ | .stop | .signalLost => []

theorem drainOf_of_draining (phase : w.phase = .draining i) (there : w.sessions[i]? = some s)
    (around : Surroundings) : drainOf w (.step around) = [Drain.of s i around] := by
  simp [drainOf, phase, there]

theorem undrained_of_closing (closing : w.phase.Closing) (history : List Occurrence) :
    noted next drainOf w history = [] := by
  induction history generalizing w with
  | nil => rfl
  | cons o rest ih =>
    rw [noted, ih (closing_undergo closing o), List.append_nil]
    cases o with
    | sent | severed | stop | signalLost => rfl
    | step around =>
      unfold drainOf
      cases phase : w.phase with
      | draining i => simp [phase, Phase.Closing] at closing
      | _ => rfl

/-! ## One session after the other -/

/-- The first `k` sessions were read, each once, and nothing else was done with any. -/
structure Turns (w : Worker) (after : List Occurrence) (k : Nat) : Prop where
  length : (noted next drainOf w after).length = k
  position : ∀ (i : Nat) (d : Drain), (noted next drainOf w after)[i]? = some d → d.position = i
  deeds : ∀ i, noted next (deedsOf i) w after =
    ((noted next drainOf w after)[i]?).toList.map fun d => .read d.reading

theorem turns_nil (w : Worker) : Turns w [] 0 :=
  ⟨rfl, by simp [noted], by simp [noted]⟩

theorem Turns.idle (h : Turns w after k) {o : Occurrence} (undrained : drainOf (w.run after) o = [])
    (idle : ∀ i, deedsOf i (w.run after) o = []) : Turns w (after ++ [o]) k := by
  constructor
  · rw [noted_snoc, ← run, undrained, List.append_nil, h.length]
  · rw [noted_snoc, ← run, undrained, List.append_nil]
    exact h.position
  · intro i
    rw [noted_snoc, ← run, noted_snoc, ← run, idle, undrained, List.append_nil, List.append_nil, h.deeds]

theorem Turns.drain (h : Turns w after k) (phase : (w.run after).phase = .draining k)
    (there : (w.run after).sessions[k]? = some t) (around : Surroundings) :
    Turns w (after ++ [.step around]) (k + 1) := by
  have drained := drainOf_of_draining phase there around
  have subject : (w.run after).phase.subject? = some k := by rw [phase]; rfl
  have grown (i : Nat) : (noted next drainOf w after ++ [Drain.of t k around])[i]? =
      if i = k then some (Drain.of t k around) else (noted next drainOf w after)[i]? := by
    rw [List.getElem?_append, h.length]
    by_cases earlier : i < k
    · rw [if_pos earlier, if_neg (by omega)]
    · by_cases now : i = k
      · simp [now]
      · have beyond : (noted next drainOf w after)[i]? = none := by
          rw [List.getElem?_eq_none_iff, h.length]
          omega
        rw [if_neg earlier, if_neg now, beyond, List.getElem?_eq_none_iff]
        simp
        omega
  constructor
  · rw [noted_snoc, ← run, drained, List.length_append, h.length, List.length_singleton]
  · intro i d hd
    rw [noted_snoc, ← run, drained, grown] at hd
    split at hd
    · rename_i mine
      cases hd
      exact mine.symm
    · exact h.position i d hd
  · intro i
    rw [noted_snoc, ← run, noted_snoc, ← run, h.deeds, drained, grown]
    by_cases mine : i = k
    · subst mine
      have fresh : (noted next drainOf w after)[i]? = none :=
        List.getElem?_eq_none_iff.mpr (Nat.le_of_eq h.length)
      rw [deedsOf_of_subject subject there, phase, fresh, if_pos rfl]
      rfl
    · rw [if_neg mine, deedsOf_of_other (by rw [subject]; simpa using Ne.symm mine), List.append_nil]

theorem turns_of_open (stopped : w.phase = .draining 0) (open_ : ¬ (w.run after).phase.Closing) :
    ∃ k ≤ w.sessions.length, (w.run after).phase = .draining k ∧ Turns w after k ∧
      ∀ d ∈ noted next drainOf w after, d.Well := by
  induction after using List.reverseRecOn with
  | nil => exact ⟨0, Nat.zero_le _, stopped, turns_nil w, by simp [noted]⟩
  | append_singleton after o ih =>
    rw [run_snoc] at open_ ⊢
    obtain ⟨k, le, phase, turns, well⟩ := ih fun closing => open_ (closing_undergo closing o)
    cases o with
    | sent | severed | stop | signalLost =>
      refine ⟨k, le, phase, turns.idle rfl fun _ => rfl, ?_⟩
      rw [noted_snoc, ← run, drainOf, List.append_nil]
      exact well
    | step around =>
      have move := step_move (w.run after) around
      rw [undergo] at open_ ⊢
      generalize hn : ((w.run after).step around).1.phase = next,
        ((w.run after).step around).2.ended = ended at move open_
      rw [phase] at move
      cases move with
      | drainFailed | drainedAll => exact absurd trivial open_
      | @drained _ t n there good =>
        refine ⟨k + 1, within_of_run there, rfl, turns.drain phase there around, ?_⟩
        rw [noted_snoc, ← run, drainOf_of_draining phase there]
        intro d hd
        rcases List.mem_append.mp hd with earlier | now
        · exact well d earlier
        · rw [List.mem_singleton.mp now]
          exact ⟨n, good⟩

/-! ## The whole drain -/

/-- The reads of a drain that is over: session by session, and fewer than there are sessions only
because the last one failed. -/
structure InTurn (w : Worker) (drains : List Drain) : Prop where
  within : drains.length ≤ w.sessions.length
  position : ∀ (i : Nat) (d : Drain), drains[i]? = some d → d.position = i
  well : ∀ (i : Nat) (d : Drain), drains[i]? = some d → i + 1 < drains.length → d.Well
  short : drains.length < w.sessions.length → ∃ front d, drains = front ++ [d] ∧ ¬ d.Well

theorem InTurn.reached_iff {drains : List Drain} (h : InTurn w drains) (there : i < w.sessions.length) :
    (∃ d, drains[i]? = some d) ↔ ∀ j < i, ∃ d, drains[j]? = some d ∧ d.Well := by
  constructor
  · rintro ⟨d, hd⟩ j earlier
    have within := (List.getElem?_eq_some_iff.mp hd).1
    have hj : drains[j]? = some drains[j] := List.getElem?_eq_getElem (by omega)
    exact ⟨drains[j], hj, h.well j _ hj (by omega)⟩
  · intro all
    by_contra unread
    have beyond : drains.length ≤ i := by
      by_contra within
      exact unread ⟨_, List.getElem?_eq_getElem (by omega)⟩
    obtain ⟨front, d, rfl, ill⟩ := h.short (by omega)
    rw [List.length_append, List.length_singleton] at beyond
    obtain ⟨found, hf, well⟩ := all front.length (by omega)
    rw [List.getElem?_concat_length] at hf
    cases hf
    exact ill well

theorem drained_at_turn (stopped : w.phase = .draining 0) (closing : (w.run after).phase.Closing) :
    ∃ mid around post ending, after = mid ++ .step around :: post ∧
      (w.run (mid ++ [.step around])).phase = .delivering ending 0 ∧
      InTurn w (noted next drainOf w after) ∧
      ∀ i, noted next (deedsOf i) w (mid ++ [.step around]) =
        ((noted next drainOf w after)[i]?).toList.map fun d => .read d.reading := by
  obtain ⟨mid, around, post, ending, rfl, open_, turn, phase⟩ :=
    turned w after (by rw [stopped]; exact id) closing
  refine ⟨mid, around, post, ending, rfl, phase, ?_⟩
  obtain ⟨k, le, draining, turns, well⟩ := turns_of_open stopped open_
  have rest : noted next drainOf (w.run (mid ++ [.step around])) post = [] :=
    undrained_of_closing (by rw [phase]; trivial) post
  rw [List.append_cons, noted_append, ← run, rest, List.append_nil]
  cases turn with
  | astray reading =>
    rw [draining] at reading
    cases reading
  | drained here absent =>
    rw [draining] at here
    cases here
    have all : w.sessions.length ≤ k := (absent_run_iff w mid k).mp absent
    have undrained : drainOf (w.run mid) (.step around) = [] := by simp [drainOf, draining, absent]
    have turns : Turns w (mid ++ [.step around]) k :=
      turns.idle undrained fun i => deedsOf_of_absent (by rw [draining]; rfl) absent i around
    refine ⟨⟨by rw [turns.length]; exact le, turns.position, ?_, ?_⟩, turns.deeds⟩
    · intro i d hd _
      rw [noted_snoc, ← run, undrained, List.append_nil] at hd
      exact well d (List.mem_of_getElem? hd)
    · intro short
      rw [turns.length] at short
      omega
  | @failed j t fault failing =>
    obtain rfl : k = j := by
      rcases failing.phase with reading | here
      · rw [draining] at reading
        cases reading
      · rw [draining] at here
        exact Phase.draining.inj here
    have drained := drainOf_of_draining draining failing.there around
    have length := turns.length
    have turns := turns.drain draining failing.there around
    refine ⟨⟨?_, turns.position, ?_, ?_⟩, turns.deeds⟩
    · rw [turns.length]
      exact within_of_run failing.there
    · intro i d hd before
      rw [turns.length] at before
      rw [noted_snoc, ← run, List.getElem?_append_left (by omega)] at hd
      exact well d (List.mem_of_getElem? hd)
    · intro _
      refine ⟨_, _, by rw [noted_snoc, ← run, drained], ?_⟩
      rintro ⟨n, good⟩
      rw [Drain.of, failing.ill] at good
      cases good

/-! ## What becomes of a session -/

theorem coalesced_congr (same : s.setup = t.setup) : coalesced s = coalesced t := by
  funext readings
  unfold coalesced Reading.changes
  rw [Session.changes_congr same]

theorem mem_drainOf {d : Drain} {o : Occurrence} (h : d ∈ drainOf w o) :
    ∃ around s, o = .step around ∧ w.phase = .draining d.position ∧
      w.sessions[d.position]? = some s ∧ d = Drain.of s d.position around := by
  cases o with
  | sent | severed | stop | signalLost => cases h
  | step around =>
    unfold drainOf at h
    cases phase : w.phase with
    | draining i =>
      cases there : w.sessions[i]? with
      | none => simp [phase, there] at h
      | some s =>
        obtain rfl : d = Drain.of s i around := by simpa [phase, there] using h
        exact ⟨around, s, rfl, rfl, there, rfl⟩
    | _ => simp [phase] at h

section Accounts

variable {s₀ : Session} {arrived : List Native.Message} {ledger : List Deed}

theorem pending_of_unread {more : List Native.Message} {deeds : List Deed}
    (h : Accounted s₀ s arrived ledger) (later : Accounted s₀ t (arrived ++ more) (ledger ++ deeds))
    (unread : deeds.filterMap Deed.reading? = []) :
    t.handle.pending = s.handle.pending ++ more := by
  have all := later.messages
  rw [List.filterMap_append, unread, List.append_nil, ← List.append_assoc, h.messages,
    List.append_assoc] at all
  exact (List.append_cancel_left all).symm

theorem pushed_of_drain (h : Accounted s₀ s arrived ledger) (there : w.sessions[i]? = some s)
    (stopped : w.phase = .draining 0) (exited : (w.run after).phase = .exited) :
    noted next (pushedOf i) w after =
      coalesced s₀ (recent ledger ++ ((noted next drainOf w after)[i]?).toList.map Drain.reading) := by
  obtain ⟨mid, around, post, ending, rfl, phase, _, deeds⟩ :=
    drained_at_turn stopped (by rw [exited]; trivial)
  obtain ⟨t, ht, accounted⟩ := h.run there (mid ++ [.step around])
  have read := deeds i
  generalize (noted next drainOf w (mid ++ .step around :: post))[i]? = drain at read ⊢
  rw [List.append_cons, run_append] at exited
  obtain ⟨given, _⟩ := delivered phase exited
  have taken := given.deeds i t ht
  rw [if_pos (List.getElem?_eq_some_iff.mp ht).1, accounted.events, read] at taken
  rw [noted_pushedOf, List.append_cons, noted_append, ← run, read, taken]
  cases drain with
  | none => simp [Deed.batch]
  | some d => simp [Deed.batch, recent_snoc, Deed.extend]

theorem whole_of_drain (h : Accounted s₀ s arrived ledger) (there : w.sessions[i]? = some s)
    (stopped : w.phase = .draining 0) {d : Drain} (drained : d ∈ noted next drainOf w after)
    (mine : d.position = i) (well : d.Well) :
    d.reading.Whole s ∧ ∃ later, later <+: noted next (arrivalOf i) w after ∧
      s.handle.pending ++ later = d.reading.records.map .record := by
  obtain ⟨pre, o, post, rfl, found⟩ := mem_noted.mp drained
  rw [← run] at found
  obtain ⟨around, t, rfl, phase, ht, same⟩ := mem_drainOf found
  rw [mine] at phase ht same
  obtain ⟨k, _, draining, turns, _⟩ := turns_of_open stopped (by rw [phase]; exact id)
  obtain rfl : k = i := Phase.draining.inj (draining.symm.trans phase)
  -- Since the stop only the sessions before this one were read, so all messages are still pending.
  have unread : noted next (deedsOf k) w pre = [] := by
    rw [turns.deeds, List.getElem?_eq_none_iff.mpr (Nat.le_of_eq turns.length)]
    rfl
  obtain ⟨u, hu, accounted⟩ := h.run there pre
  obtain rfl : u = t := Option.some.inj (hu.symm.trans ht)
  obtain ⟨n, good⟩ := well
  rw [same, Drain.of] at good ⊢
  obtain ⟨whole, empty⟩ := Session.whole_of_ingest_ok _ _ _ accounted.unabsorbed good
  have all := Session.messages_reading u around.disk around.observed
  rw [Session.ingest_pending] at empty
  rw [empty, List.append_nil, whole.messages, pending_of_unread h accounted (by simp [unread])] at all
  refine ⟨?_, noted next (arrivalOf k) w pre, ?_, all⟩
  · rw [Reading.Whole, Session.changes_congr (h.setup.trans accounted.setup.symm)]
    exact whole
  · rw [noted_append, ← run]
    exact List.prefix_append _ _

theorem left_of_drain (h : Accounted s₀ s arrived ledger) (there : w.sessions[i]? = some s)
    (stopped : w.phase = .draining 0) (exited : (w.run after).phase = .exited)
    (unread : (noted next drainOf w after)[i]? = none) :
    ∃ t, (w.run after).sessions[i]? = some t ∧
      t.handle.pending = s.handle.pending ++ noted next (arrivalOf i) w after := by
  obtain ⟨t, ht, accounted⟩ := h.run there after
  refine ⟨t, ht, pending_of_unread h accounted ?_⟩
  obtain ⟨mid, around, post, ending, rfl, phase, _, deeds⟩ :=
    drained_at_turn stopped (by rw [exited]; trivial)
  have read := deeds i
  rw [unread] at read
  rw [List.append_cons, run_append] at exited
  obtain ⟨given, _⟩ := delivered phase exited
  obtain ⟨u, hu, _⟩ := h.run there (mid ++ [.step around])
  rw [List.append_cons, noted_append, ← run, read, given.deeds i u hu,
    if_pos (List.getElem?_eq_some_iff.mp hu).1]
  rfl

end Accounts

/-- What the drain does for a session, with the deeds done with it before. -/
structure PickedUp (w : Worker) (ledger : List Deed) (after : List Occurrence) (i : Nat) (s : Session) :
    Prop where
  reached : (∃ d, (noted next drainOf w after)[i]? = some d) ↔
    ∀ j < i, ∃ d, (noted next drainOf w after)[j]? = some d ∧ d.Well
  batch : noted next (pushedOf i) w after =
    coalesced s (recent ledger ++ ((noted next drainOf w after)[i]?).toList.map Drain.reading)
  whole : ∀ d : Drain, (noted next drainOf w after)[i]? = some d → d.Well →
    d.position = i ∧ d.reading.Whole s ∧ ∃ later, later <+: noted next (arrivalOf i) w after ∧
      s.handle.pending ++ later = d.reading.records.map .record
  left : (noted next drainOf w after)[i]? = none →
    ∃ t, (w.run after).sessions[i]? = some t ∧
      t.handle.pending = s.handle.pending ++ noted next (arrivalOf i) w after

/-- **The drain.** After a stop a session is read once more, with everything that was pending, if the
reads of all sessions before it went well; otherwise what was pending with it is lost. -/
theorem drain_picks_up {sessions : List Session} {before after : List Occurrence}
    (fresh : ∀ s ∈ sessions, s.Fresh) (stopped : ((start sessions).run before).phase = .draining 0)
    (exited : ((start sessions).run (before ++ after)).phase = .exited)
    (there : ((start sessions).run before).sessions[i]? = some s) :
    PickedUp ((start sessions).run before) (noted next (deedsOf i) (start sessions) before) after i s := by
  obtain ⟨s₀, _, accounted⟩ := accounted_of_there fresh there
  rw [run_append] at exited
  obtain ⟨_, _, _, _, _, _, inTurn, _⟩ := drained_at_turn stopped (by rw [exited]; trivial)
  constructor
  case reached => exact inTurn.reached_iff (List.getElem?_eq_some_iff.mp there).1
  case batch =>
    rw [pushed_of_drain accounted there stopped exited, coalesced_congr accounted.setup]
  case whole =>
    intro d hd well
    have mine := inTurn.position i d hd
    exact ⟨mine, whole_of_drain accounted there stopped (List.mem_of_getElem? hd) mine well⟩
  case left => exact left_of_drain accounted there stopped exited

/-! ## Two roots -/

deriving instance DecidableEq for Phase

theorem drain_picks_up_both :
    let disk : Disk := ⟨.ok, fun _ => true, fun _ => true, fun _ => .ok []⟩
    let session (root : Path) (ticket : Nat) : Session :=
      ⟨root, true, .ofSeconds 1, none, .make root ticket true, .empty, none, []⟩
    let created (path : Path) : Native.Message := .record ⟨.create, [path], false⟩
    let a : Path := ⟨[0x2F, 0x61]⟩
    let b : Path := ⟨[0x2F, 0x62]⟩
    let step : Occurrence := .step ⟨disk, .origin, .origin, .stop⟩
    let sessions := [session a 0, session b 1]
    let before : List Occurrence := [.sent 0 (created a), .sent 1 (created b), .stop, step]
    let after := List.replicate 6 step
    (∀ s ∈ sessions, s.Fresh) ∧ ((start sessions).run before).phase = .draining 0 ∧
    ((start sessions).run (before ++ after)).phase = .exited ∧
    noted next (pushedOf 1) ((start sessions).run before) after = [⟨b, .created, .origin⟩] ∧
    ∃ s, ((start sessions).run before).sessions[1]? = some s ∧
      PickedUp ((start sessions).run before) (noted next (deedsOf 1) (start sessions) before) after 1 s := by
  intro disk session created a b step sessions before after
  have fresh : ∀ s ∈ sessions, s.Fresh := by
    simp only [sessions, List.mem_cons, List.not_mem_nil, or_false, forall_eq_or_imp, forall_eq]
    exact ⟨⟨rfl, rfl, rfl⟩, ⟨rfl, rfl, rfl⟩⟩
  have stopped : ((start sessions).run before).phase = .draining 0 := by decide +kernel
  have exited : ((start sessions).run (before ++ after)).phase = .exited := by decide +kernel
  have within : 1 < ((start sessions).run before).sessions.length := by rw [length_run]; decide
  have pushed : noted next (pushedOf 1) ((start sessions).run before) after = [⟨b, .created, .origin⟩] := by
    decide +kernel
  have there := List.getElem?_eq_getElem within
  exact ⟨fresh, stopped, exited, pushed, _, there, drain_picks_up fresh stopped exited there⟩

/-- The same with a native error pending in place of the first record: the second root, whose own read
would have gone well, loses its record. -/
theorem drain_cut_short :
    let disk : Disk := ⟨.ok, fun _ => true, fun _ => true, fun _ => .ok []⟩
    let session (root : Path) (ticket : Nat) : Session :=
      ⟨root, true, .ofSeconds 1, none, .make root ticket true, .empty, none, []⟩
    let created (path : Path) : Native.Message := .record ⟨.create, [path], false⟩
    let a : Path := ⟨[0x2F, 0x61]⟩
    let b : Path := ⟨[0x2F, 0x62]⟩
    let step : Occurrence := .step ⟨disk, .origin, .origin, .stop⟩
    let sessions := [session a 0, session b 1]
    let before : List Occurrence :=
      [.sent 0 (.error ⟨.tooManyWatches, []⟩), .sent 1 (created b), .stop, step]
    let after := List.replicate 4 step
    let w := (start sessions).run before
    w.phase = .draining 0 ∧ (w.run after).phase = .exited ∧
    (w.sessions[1]?).map (fun s => s.handle.pending) = some [created b] ∧
    (w.sessions[1]?).map (fun s => (s.ingest disk .origin .origin).1) = some (.ok 1) ∧
    noted next (pushedOf 1) w after = [] := by
  intro disk session created a b step sessions before after w
  exact ⟨by decide +kernel, by decide +kernel, by decide +kernel, by decide +kernel, by decide +kernel⟩

end DirectoryWatch.Worker
