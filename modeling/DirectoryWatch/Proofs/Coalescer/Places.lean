import DirectoryWatch.Proofs.Coalescer.Index

/-!
# Places of a coalescer

Changes and drains in any order keep the index exact: its keys are the paths of the batch, each of them
once, and under a key stands the place of that path's event. So recording a change never comes to a
place that is not there or is empty, and it empties a place only when two changes undo each other.
-/

namespace DirectoryWatch.Coalescer

/-! ## Calls in any order -/

inductive Call where
  | record (e : Event)
  | drain
  deriving DecidableEq, Repr

def call (c : Coalescer) : Call → Coalescer
  | .record e => c.record e
  | .drain => c.drain.2

def callAll (c : Coalescer) (calls : List Call) : Coalescer := calls.foldl call c

variable {c : Coalescer}

theorem indexed_call (h : Indexed c) (a : Call) : Indexed (c.call a) := by
  unfold call
  split
  · exact indexed_record h _
  · exact indexed_empty

theorem indexed_callAll (h : Indexed c) (calls : List Call) : Indexed (c.callAll calls) := by
  induction calls generalizing c with
  | nil => exact h
  | cons a rest ih => exact ih (indexed_call h a)

/-! ## Keys -/

theorem Indexed.lookup_of_mem (h : Indexed c) {key : List Path.Component} {slot : Nat}
    (mem : (key, slot) ∈ c.index) : c.index.lookup key = some slot := by
  obtain ⟨before, after, same⟩ := List.append_of_mem mem
  have nodup := h.keys_nodup
  rw [List.lookup_eq_some_iff]
  refine ⟨before, after, same, fun entry earlier => ?_⟩
  rw [same, List.map_append, List.map_cons, List.nodup_append] at nodup
  have other := nodup.2.2 entry.1 (List.mem_map_of_mem earlier) key (by simp)
  simpa using Ne.symm other

theorem mem_of_lookup {key : List Path.Component} {slot : Nat} (h : c.index.lookup key = some slot) :
    (key, slot) ∈ c.index := by
  obtain ⟨before, after, same, _⟩ := List.lookup_eq_some_iff.mp h
  simp [same]

theorem Indexed.events_apart (h : Indexed c) : c.events.Pairwise fun e f => ¬ e.path.Same f.path := by
  unfold events
  rw [List.pairwise_filterMap, List.pairwise_iff_getElem]
  intro i j hi hj before e he f hf same
  have left : c.at? i = some e := by simpa [at?_eq_some_iff, List.getElem?_eq_getElem hi] using he
  have right : c.at? j = some f := by simpa [at?_eq_some_iff, List.getElem?_eq_getElem hj] using hf
  have := h.slot_unique left right same
  omega

theorem Indexed.keys_perm (h : Indexed c) :
    (c.index.map Prod.fst).Perm (c.events.map fun e => e.path.components) := by
  have apart : (c.events.map fun e => e.path.components).Nodup := List.pairwise_map.mpr h.events_apart
  rw [List.perm_ext_iff_of_nodup h.keys_nodup apart]
  intro key
  have missing := h.lookup_eq_none_iff key
  rw [List.lookup_eq_none_iff] at missing
  simpa using not_congr missing

/-! ## One more change -/

theorem record_of_missing {e : Event} (missing : c.index.lookup e.path.components = none) :
    c.record e = ⟨c.slots ++ [some e], (e.path.components, c.slots.length) :: c.index⟩ := by
  simp [record, missing]

theorem record_of_merged {e f : Event} {slot : Nat} {kind : ChangeKind}
    (found : c.index.lookup e.path.components = some slot) (held : c.at? slot = some f)
    (merged : f.kind.merge e.kind = some kind) :
    c.record e = { c with slots := c.slots.set slot (some { f with kind }) } := by
  unfold at? at held
  simp [record, found, held, fold, merged]

theorem record_of_undone {e f : Event} {slot : Nat}
    (found : c.index.lookup e.path.components = some slot) (held : c.at? slot = some f)
    (undone : f.kind.merge e.kind = none) :
    c.record e = ⟨c.slots.set slot none,
      c.index.filter fun entry => decide (entry.1 ≠ e.path.components)⟩ := by
  unfold at? at held
  simp [record, found, held, fold, undone]

/-- What recording a change does at a place inside the slots that holds an event. -/
structure Recorded (c : Coalescer) (e : Event) (slot : Nat) (f : Event) : Prop where
  inside : slot < c.slots.length
  held : c.slots[slot] = some f
  same : f.path.Same e.path
  merged {kind : ChangeKind} : f.kind.merge e.kind = some kind →
    c.record e = { c with slots := c.slots.set slot (some { f with kind }) }
  emptied : (c.record e).slots[slot]? = some none ↔ f.kind.merge e.kind = none
  undone : f.kind.merge e.kind = none →
    c.record e = ⟨c.slots.set slot none,
      c.index.filter fun entry => decide (entry.1 ≠ e.path.components)⟩

theorem Indexed.recorded (h : Indexed c) {e : Event} {slot : Nat}
    (found : c.index.lookup e.path.components = some slot) : ∃ f, Recorded c e slot f := by
  obtain ⟨f, held, same⟩ := (h.lookup_iff _ slot).mp found
  obtain ⟨inside, there⟩ := List.getElem?_eq_some_iff.mp ((at?_eq_some_iff c slot f).mp held)
  refine ⟨f, inside, there, same, record_of_merged found held, ?_, record_of_undone found held⟩
  cases result : f.kind.merge e.kind with
  | none => simp [record_of_undone found held result, inside]
  | some kind => simp [record_of_merged found held result, inside]

/-! ## The index after any calls -/

/-- The keys are the paths of the batch, and each key leads to the place of its event. -/
structure Exact (c : Coalescer) : Prop where
  keys : (c.index.map Prod.fst).Perm (c.events.map fun e => e.path.components)
  keys_nodup : (c.index.map Prod.fst).Nodup
  held (key : List Path.Component) (slot : Nat) : (key, slot) ∈ c.index →
    ∃ inside : slot < c.slots.length, ∃ e, c.slots[slot] = some e ∧ e.path.components = key
  listed (slot : Nat) (e : Event) : c.slots[slot]? = some (some e) →
    (e.path.components, slot) ∈ c.index
  apart : c.events.Pairwise fun e f => ¬ e.path.Same f.path
  /-- A change of a path that is not listed is put at the end. -/
  opened (e : Event) : c.index.lookup e.path.components = none →
    c.record e = ⟨c.slots ++ [some e], (e.path.components, c.slots.length) :: c.index⟩
  recorded (e : Event) (slot : Nat) : c.index.lookup e.path.components = some slot →
    ∃ f, Recorded c e slot f

/-- **The index of a coalescer.** -/
theorem index_exact (calls : List Call) : Exact (empty.callAll calls) := by
  have h : Indexed (empty.callAll calls) := indexed_callAll indexed_empty calls
  generalize empty.callAll calls = c at h
  constructor
  case keys => exact h.keys_perm
  case keys_nodup => exact h.keys_nodup
  case apart => exact h.events_apart
  case opened => exact fun e => record_of_missing
  case recorded => exact fun e slot => h.recorded
  case held =>
    intro key slot mem
    obtain ⟨e, held, same⟩ := (h.lookup_iff key slot).mp (h.lookup_of_mem mem)
    obtain ⟨inside, there⟩ := List.getElem?_eq_some_iff.mp ((at?_eq_some_iff c slot e).mp held)
    exact ⟨inside, e, there, same⟩
  case listed =>
    intro slot e held
    have there := (at?_eq_some_iff c slot e).mpr held
    exact mem_of_lookup ((h.lookup_iff e.path.components slot).mpr ⟨e, there, rfl⟩)

end DirectoryWatch.Coalescer
