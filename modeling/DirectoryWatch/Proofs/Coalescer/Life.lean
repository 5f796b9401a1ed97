import DirectoryWatch.Proofs.Coalescer.Restriction
import Mathlib.Data.List.Induction

/-!
# Lives of paths

What a batch means, told path by path. A life of a path begins with a change that finds none under
way, takes the kinds of later changes in, and ends when two undo each other. A batch holds one
event for each life that is under way at its end, in the order in which these began.
-/

namespace DirectoryWatch

structure Life where
  /-- The place of its first change among all changes. -/
  position : Nat
  first : Event
  kind : ChangeKind
  deriving DecidableEq, Repr

namespace Life

/-- The first change, with the kind that came of it. -/
def event (l : Life) : Event := { l.first with kind := l.kind }

/-- What becomes of a path when one more change of it comes. -/
def next (position : Nat) (e : Event) : Option Life → Option Life
  | none => some ⟨position, e, e.kind⟩
  | some l => (l.kind.merge e.kind).map fun kind => { l with kind }

/-- The life of a path that is under way after some changes. -/
def after? (changes : List Event) (p : Path) : Option Life :=
  changes.zipIdx.foldl
    (fun life (e, position) => if e.path.Same p then next position e life else life) none

/-! ## One more change -/

theorem after?_snoc (changes : List Event) (e : Event) (p : Path) :
    after? (changes ++ [e]) p =
      if e.path.Same p then next changes.length e (after? changes p) else after? changes p := by
  simp [after?, List.zipIdx_append, List.foldl_append]

theorem after?_congr (changes : List Event) {p q : Path} (h : p.Same q) :
    after? changes p = after? changes q := by
  have same : ∀ e : Event, e.path.Same p ↔ e.path.Same q :=
    fun e => ⟨fun hp => hp.trans h, fun hq => hq.trans h.symm⟩
  simp only [after?, same]

theorem first_of_after? {changes : List Event} {p : Path} {l : Life} (h : after? changes p = some l) :
    changes[l.position]? = some l.first ∧ l.first.path.Same p := by
  induction changes using List.reverseRecOn generalizing l with
  | nil => simp [after?] at h
  | append_singleton changes e ih =>
    rw [after?_snoc] at h
    have keep : ∀ m, after? changes p = some m →
        (changes ++ [e])[m.position]? = some m.first ∧ m.first.path.Same p := by
      intro m hm
      obtain ⟨at_first, same⟩ := ih hm
      have inside := (List.getElem?_eq_some_iff.mp at_first).1
      exact ⟨by rw [List.getElem?_append_left inside, at_first], same⟩
    split at h
    · rename_i same
      cases hl : after? changes p with
      | none =>
        rw [hl] at h
        simp only [next, Option.some.injEq] at h
        subst h
        exact ⟨by simp, same⟩
      | some m =>
        rw [hl] at h
        simp only [next, Option.map_eq_some_iff] at h
        obtain ⟨kind, _, rfl⟩ := h
        exact keep m hl
    · exact keep l h

theorem position_lt {changes : List Event} {p : Path} {l : Life} (h : after? changes p = some l) :
    l.position < changes.length :=
  (List.getElem?_eq_some_iff.mp (first_of_after? h).1).1

theorem kind_of_after? {P : ChangeKind → Prop} {changes : List Event} {p : Path} {l : Life}
    (merged : ∀ a b c, P a → P b → a.merge b = some c → P c)
    (each : ∀ e ∈ changes, e.path.Same p → P e.kind) (h : after? changes p = some l) : P l.kind := by
  induction changes using List.reverseRecOn generalizing l with
  | nil => simp [after?] at h
  | append_singleton changes e ih =>
    have earlier : ∀ m, after? changes p = some m → P m.kind :=
      fun m => ih fun f hf => each f (List.mem_append_left _ hf)
    rw [after?_snoc] at h
    split at h
    · rename_i same
      have later : P e.kind := each e (by simp) same
      cases hl : after? changes p with
      | none =>
        rw [hl] at h
        simp only [next, Option.some.injEq] at h
        rw [← h]
        exact later
      | some m =>
        rw [hl] at h
        simp only [next, Option.map_eq_some_iff] at h
        obtain ⟨kind, hk, rfl⟩ := h
        exact merged m.kind e.kind kind (earlier m hl) later hk
    · exact earlier l h

theorem map_event_next (position : Nat) (e : Event) (l : Life) :
    (next position e (some l)).map event = Coalescer.fold l.event e := by
  simp [next, event, Coalescer.fold, Option.map_map, Function.comp_def]

end Life

namespace Coalescer

/-- The event that a change leaves in the batch, if a life that is under way began with it. -/
def begun? (changes : List Event) (e : Event) (position : Nat) : Option Event :=
  (Life.after? changes e.path).bind fun l => if l.position = position then some l.event else none

/-- The batch that changes make. -/
def batchOf (changes : List Event) : List Event :=
  changes.zipIdx.filterMap fun (e, position) => begun? changes e position

/-! ## One event for each life -/

/-- Of each path a batch holds the event of the life that is under way, if one is. -/
theorem filter_foldl_foldInto (changes : List Event) (p : Path) :
    (changes.foldl foldInto []).filter (fun f => decide (f.path.Same p)) =
      ((Life.after? changes p).map Life.event).toList := by
  change onlyAbout (fun q => decide (q.Same p)) _ = _
  induction changes using List.reverseRecOn with
  | nil => rfl
  | append_singleton changes e ih =>
    have free := Path.spellingFree_same p
    rw [List.foldl_append, List.foldl_cons, List.foldl_nil, Life.after?_snoc]
    split
    · rename_i same
      rw [onlyAbout_foldInto_of_chosen free _ (by simpa using same), ih]
      cases hl : Life.after? changes p with
      | none => simp [foldInto, Life.next, Life.event]
      | some l =>
        have hs : l.event.path.Same e.path := (Life.first_of_after? hl).2.trans same.symm
        rw [Life.map_event_next]
        cases hf : fold l.event e <;> simp [foldInto, amend, hs, hf]
    · rename_i other
      rw [onlyAbout_foldInto_of_unchosen free _ (by simpa using other), ih]

/-! ## The order of the events -/

theorem begun?_path {changes : List Event} {e g : Event} {position : Nat}
    (h : begun? changes e position = some g) : g.path.Same e.path := by
  obtain ⟨l, hl, hg⟩ := Option.bind_eq_some_iff.mp h
  split at hg
  · rw [← Option.some.inj hg]
    exact (Life.first_of_after? hl).2
  · cases hg

theorem begun?_snoc_of_not_same (changes : List Event) {e f : Event} (position : Nat)
    (h : ¬ e.path.Same f.path) : begun? (changes ++ [e]) f position = begun? changes f position := by
  rw [begun?, Life.after?_snoc, if_neg h, begun?]

theorem begun?_snoc_of_same (changes : List Event) {e f : Event} {l : Life} (position : Nat)
    (h : e.path.Same f.path) (hl : Life.after? changes f.path = some l) :
    begun? (changes ++ [e]) f position = if l.position = position then fold l.event e else none := by
  rw [begun?, Life.after?_snoc, if_pos h, hl, ← Life.map_event_next changes.length]
  cases hk : l.kind.merge e.kind <;> simp [Life.next, hk]

theorem batchOf_snoc (changes : List Event) (e : Event) :
    batchOf (changes ++ [e]) =
      (changes.zipIdx.filterMap fun (f, position) => begun? (changes ++ [e]) f position) ++
        (begun? (changes ++ [e]) e changes.length).toList := by
  rw [batchOf, List.zipIdx_append, List.filterMap_append]
  cases hb : begun? (changes ++ [e]) e changes.length <;> simp [hb]

theorem batchOf_snoc_of_none {changes : List Event} {e : Event}
    (h : Life.after? changes e.path = none) : batchOf (changes ++ [e]) = batchOf changes ++ [e] := by
  rw [batchOf_snoc]
  congr 1
  · apply List.filterMap_congr
    rintro ⟨f, position⟩ hf
    have inside : position < changes.length := by simpa using List.snd_lt_of_mem_zipIdx hf
    by_cases same : e.path.Same f.path
    · have hn : Life.after? changes f.path = none := by rw [← Life.after?_congr changes same, h]
      have later : changes.length ≠ position := by omega
      simp [begun?, Life.after?_snoc, same, hn, Life.next, later]
    · exact begun?_snoc_of_not_same changes position same
  · simp [begun?, Life.after?_snoc, h, Life.next, Life.event]

theorem batchOf_snoc_of_some {changes : List Event} {e : Event} {l : Life}
    (h : Life.after? changes e.path = some l) :
    batchOf (changes ++ [e]) = (batchOf changes).filterMap (amend e) := by
  have before : l.position ≠ changes.length := Nat.ne_of_lt (Life.position_lt h)
  rw [batchOf_snoc, begun?_snoc_of_same changes _ (Path.Same.refl _) h, if_neg before, Option.toList_none,
    List.append_nil, batchOf, List.filterMap_filterMap]
  apply List.filterMap_congr
  rintro ⟨f, position⟩ _
  change begun? (changes ++ [e]) f position = (begun? changes f position).bind (amend e)
  by_cases same : e.path.Same f.path
  · have hf : Life.after? changes f.path = some l := by rw [← Life.after?_congr changes same, h]
    have hs : l.event.path.Same e.path := (Life.first_of_after? h).2
    rw [begun?_snoc_of_same changes position same hf]
    by_cases hp : l.position = position <;> simp [begun?, hf, hp, amend, hs]
  · rw [begun?_snoc_of_not_same changes position same]
    cases hb : begun? changes f position with
    | none => rfl
    | some g =>
      have hg : g.path.Same f.path := begun?_path hb
      exact (if_neg (fun hs => same (hs.symm.trans hg))).symm

theorem batchOf_eq_foldl (changes : List Event) : batchOf changes = changes.foldl foldInto [] := by
  induction changes using List.reverseRecOn with
  | nil => rfl
  | append_singleton changes e ih =>
    have held := filter_foldl_foldInto changes e.path
    rw [List.foldl_append, List.foldl_cons, List.foldl_nil, foldInto, ← ih]
    rw [← ih] at held
    cases hl : Life.after? changes e.path with
    | none =>
      rw [hl, Option.map_none, Option.toList_none, List.filter_eq_nil_iff] at held
      rw [if_neg (by simpa using held), batchOf_snoc_of_none hl]
    | some l =>
      rw [hl, Option.map_some, Option.toList_some] at held
      have there : l.event ∈ (batchOf changes).filter fun f => decide (f.path.Same e.path) := by
        rw [held]
        exact List.mem_singleton_self _
      obtain ⟨mem, same⟩ := List.mem_filter.mp there
      rw [if_pos (List.any_eq_true.mpr ⟨l.event, mem, same⟩), batchOf_snoc_of_some hl]

theorem filter_batchOf (changes : List Event) (p : Path) :
    (batchOf changes).filter (fun f => decide (f.path.Same p)) =
      ((Life.after? changes p).map Life.event).toList := by
  rw [batchOf_eq_foldl, filter_foldl_foldInto]

theorem mem_batchOf {changes : List Event} {e : Event} (h : e ∈ batchOf changes) :
    ∃ l, Life.after? changes e.path = some l ∧ l.event = e := by
  have there : e ∈ (batchOf changes).filter fun f => decide (f.path.Same e.path) :=
    List.mem_filter.mpr ⟨h, by simp⟩
  rw [filter_batchOf] at there
  simpa using there

theorem batchOf_pairwise (changes : List Event) :
    (batchOf changes).Pairwise fun e f => ∀ l m, Life.after? changes e.path = some l →
      Life.after? changes f.path = some m → l.position < m.position := by
  have ordered : changes.zipIdx.Pairwise fun x y => x.2 < y.2 := by
    rw [← List.pairwise_map (R := (· < ·)), List.zipIdx_map_snd]
    exact List.pairwise_lt_range'
  have begins : ∀ {f g : Event} {position : Nat} {l : Life}, begun? changes f position = some g →
      Life.after? changes g.path = some l → l.position = position := by
    intro f g position l hb hl
    rw [Life.after?_congr changes (begun?_path hb)] at hl
    rw [begun?, hl, Option.bind_some] at hb
    split at hb
    · assumption
    · cases hb
  rw [batchOf, List.pairwise_filterMap]
  refine ordered.imp ?_
  rintro ⟨f, i⟩ ⟨g, j⟩ lt e he e' he' l m hl hm
  rw [begins he hl, begins he' hm]
  exact lt

theorem batchOf_single (changes : List Event) :
    (batchOf changes).Pairwise fun e f => ¬ e.path.Same f.path := by
  apply (batchOf_pairwise changes).imp_of_mem
  intro e f he hf before same
  obtain ⟨l, hl, _⟩ := mem_batchOf he
  have hm : Life.after? changes f.path = some l := by rw [← Life.after?_congr changes same, hl]
  exact absurd (before l l hl hm) (Nat.lt_irrefl _)

theorem source_of_mem_batchOf {changes : List Event} {e : Event} (h : e ∈ batchOf changes) :
    ∃ c ∈ changes, c.path = e.path ∧ c.time = e.time := by
  obtain ⟨l, hl, rfl⟩ := mem_batchOf h
  exact ⟨l.first, List.mem_of_getElem? (Life.first_of_after? hl).1, rfl, rfl⟩

/-! ## What a coalescer gives -/

theorem events_recordAll_empty (changes : List Event) :
    (empty.recordAll changes).events = batchOf changes := by
  rw [events_recordAll indexed_empty, batchOf_eq_foldl]
  rfl

theorem batchOf_onlyAbout {chosen : Path → Bool} (free : Path.SpellingFree chosen)
    (changes : List Event) : batchOf (onlyAbout chosen changes) = onlyAbout chosen (batchOf changes) := by
  rw [← events_recordAll_empty, ← events_recordAll_empty]
  exact ((restricts_empty chosen).recordAll free changes).events

/-! ## Without the moments -/

/-- Path and kind of an event. -/
def told (e : Event) : Path × ChangeKind := (e.path, e.kind)

theorem told_onlyAbout (chosen : Path → Bool) (events : List Event) :
    (onlyAbout chosen events).map told = (events.map told).filter fun c => chosen c.1 := by
  unfold onlyAbout
  rw [List.filter_map]
  rfl

def untimed (e : Event) : Event := { e with time := .origin }

theorem foldInto_untimed (batch : List Event) (e : Event) :
    foldInto (batch.map untimed) (untimed e) = (foldInto batch e).map untimed := by
  have met : ∀ f : Event, amend (untimed e) (untimed f) = (amend e f).map untimed := by
    intro f
    unfold amend fold untimed
    split
    · cases f.kind.merge e.kind <;> rfl
    · rfl
  have any : (batch.map untimed).any (fun f => decide (f.path.Same (untimed e).path)) =
      batch.any fun f => decide (f.path.Same e.path) := List.any_map
  unfold foldInto
  rw [any]
  split
  · rw [List.filterMap_map, List.map_filterMap]
    exact List.filterMap_congr fun f _ => met f
  · rw [List.map_append]
    rfl

theorem batchOf_untimed (changes : List Event) :
    batchOf (changes.map untimed) = (batchOf changes).map untimed := by
  rw [batchOf_eq_foldl, batchOf_eq_foldl]
  induction changes using List.reverseRecOn with
  | nil => rfl
  | append_singleton changes e ih =>
    simp only [List.map_append, List.map_cons, List.map_nil, List.foldl_append, List.foldl_cons,
      List.foldl_nil]
    rw [ih, foldInto_untimed]

theorem told_batchOf_congr {changes others : List Event} (h : changes.map told = others.map told) :
    (batchOf changes).map told = (batchOf others).map told := by
  have retold (events : List Event) :
      events.map untimed = (events.map told).map fun c => ⟨c.1, c.2, .origin⟩ := by
    rw [List.map_map]
    rfl
  have bare (events : List Event) : events.map told = (events.map untimed).map told := by
    rw [List.map_map]
    rfl
  rw [bare (batchOf changes), bare (batchOf others), ← batchOf_untimed, ← batchOf_untimed,
    retold changes, retold others, h]

/-! ## One batch after another -/

/-- The batches of some blocks of changes, with a drain after each block. -/
def batches (c : Coalescer) : List (List Event) → List (List Event)
  | [] => []
  | block :: rest => (c.recordAll block).drain.1 :: batches (c.recordAll block).drain.2 rest

theorem batches_empty (blocks : List (List Event)) : empty.batches blocks = blocks.map batchOf := by
  induction blocks with
  | nil => rfl
  | cons block rest ih =>
    change (empty.recordAll block).events :: empty.batches rest = _
    rw [events_recordAll_empty, ih, List.map_cons]

/-- **The meaning of a batch.** Whatever a coalescer held before its last drain, each path has the
event of its life in the next batch, if one is under way, and no other; the life began with a change
of the path, the events stand in the order of these, and the coalescer is as new afterwards. -/
theorem drain_recordAll (c : Coalescer) (changes : List Event) :
    let batch := (c.drain.2.recordAll changes).drain.1
    (∀ p, batch.filter (fun e => decide (e.path.Same p)) =
      ((Life.after? changes p).map Life.event).toList) ∧
    (∀ p l, Life.after? changes p = some l →
      changes[l.position]? = some l.first ∧ l.first.path.Same p) ∧
    (batch.Pairwise fun e f => ∃ l m, Life.after? changes e.path = some l ∧ l.event = e ∧
      Life.after? changes f.path = some m ∧ m.event = f ∧ l.position < m.position) ∧
    (c.drain.2.recordAll changes).drain.2 = empty := by
  intro batch
  have meaning : batch = batchOf changes := events_recordAll_empty changes
  rw [meaning]
  refine ⟨filter_batchOf changes, fun p l h => Life.first_of_after? h, ?_, rfl⟩
  apply (batchOf_pairwise changes).imp_of_mem
  intro e f he hf before
  obtain ⟨l, hl, rfl⟩ := mem_batchOf he
  obtain ⟨m, hm, rfl⟩ := mem_batchOf hf
  exact ⟨l, m, hl, rfl, hm, rfl, before l m hl hm⟩

end Coalescer

end DirectoryWatch
