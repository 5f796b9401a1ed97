import DirectoryWatch.Proofs.Coalescer.Life
import Mathlib.Data.Set.Insert

/-!
# Which paths exist

A reader of batches keeps a view of which paths exist. The view is right at the end of each batch,
though changes in between are lost, as long as paths were created only when absent and modified only
when present.
-/

namespace DirectoryWatch

/-! ## Kinds -/

namespace ChangeKind

/-- Whether a path is there after a change of the kind, given whether it was before. -/
def Leaves (kind : ChangeKind) (before : Prop) : Prop :=
  match kind with
  | created | renamedNew => True
  | removed | renamedOld => False
  | modified => before

/-- A change of the kind can come while the path is there or not. -/
def Fits (kind : ChangeKind) (before : Prop) : Prop :=
  (kind = created → ¬ before) ∧ (kind = modified → before)

/-- A reader takes the path to be there after an event of the kind. -/
def Shows : ChangeKind → Prop
  | created | modified | renamedNew => True
  | removed | renamedOld => False

theorem leaves_iff_shows {kind : ChangeKind} {before : Prop} (h : kind.Fits before) :
    kind.Leaves before ↔ kind.Shows := by
  obtain ⟨_, present⟩ := h
  cases kind <;> simp_all [Leaves, Shows]

theorem merge_shows {earlier later merged : ChangeKind} (h : earlier.merge later = some merged)
    (fits : later.Fits earlier.Shows) :
    (later.Leaves earlier.Shows ↔ merged.Shows) ∧ (merged = created → earlier = created) := by
  cases earlier <;> cases later <;> simp_all [merge, takesAway, Leaves, Fits, Shows] <;> subst h <;>
    simp

theorem not_leaves_of_merge_none {earlier later : ChangeKind} (h : earlier.merge later = none)
    (before : Prop) : earlier = created ∧ ¬ later.Leaves before := by
  obtain ⟨rfl, gone⟩ := (merge_eq_none_iff earlier later).mp h
  cases later <;> simp_all [takesAway, Leaves]

end ChangeKind

/-- The paths that exist, told by their components. -/
abbrev Presence := Set (List Path.Component)

namespace Presence

def afterChange (s : Presence) (e : Event) : Presence :=
  match e.kind with
  | .created | .renamedNew => insert e.path.components s
  | .removed | .renamedOld => s \ {e.path.components}
  | .modified => s

/-- The view of a reader after an event. -/
def afterEvent (s : Presence) (e : Event) : Presence :=
  match e.kind with
  | .created | .modified | .renamedNew => insert e.path.components s
  | .removed | .renamedOld => s \ {e.path.components}

/-- Paths are created only when absent, and modified only when present. -/
def Fits (s : Presence) : List Event → Prop
  | [] => True
  | e :: rest =>
    (e.kind = .created → e.path.components ∉ s) ∧
    (e.kind = .modified → e.path.components ∈ s) ∧
    Fits (s.afterChange e) rest

theorem mem_afterChange (s : Presence) (e : Event) (key : List Path.Component) :
    key ∈ s.afterChange e ↔
      if key = e.path.components then e.kind.Leaves (key ∈ s) else key ∈ s := by
  unfold afterChange
  by_cases h : key = e.path.components <;> cases hk : e.kind <;> simp [h, ChangeKind.Leaves]

theorem mem_afterEvent (s : Presence) (e : Event) (key : List Path.Component) :
    key ∈ s.afterEvent e ↔ if key = e.path.components then e.kind.Shows else key ∈ s := by
  unfold afterEvent
  by_cases h : key = e.path.components <;> cases hk : e.kind <;> simp [h, ChangeKind.Shows]

theorem mem_foldl_of_silent {step : Presence → Event → Presence} {key : List Path.Component}
    (frame : ∀ s e, key ≠ e.path.components → (key ∈ step s e ↔ key ∈ s)) (events : List Event)
    (silent : ∀ e ∈ events, key ≠ e.path.components) (s : Presence) :
    key ∈ events.foldl step s ↔ key ∈ s := by
  induction events generalizing s with
  | nil => rfl
  | cons e rest ih =>
    rw [List.foldl_cons, ih (fun f hf => silent f (List.mem_cons_of_mem _ hf)),
      frame s e (silent e List.mem_cons_self)]

theorem afterChange_frame (key : List Path.Component) (s : Presence) (e : Event)
    (h : key ≠ e.path.components) : key ∈ s.afterChange e ↔ key ∈ s := by
  rw [mem_afterChange, if_neg h]

theorem afterEvent_frame (key : List Path.Component) (s : Presence) (e : Event)
    (h : key ≠ e.path.components) : key ∈ s.afterEvent e ↔ key ∈ s := by
  rw [mem_afterEvent, if_neg h]

theorem mem_replay_of_single {events : List Event} {p : Path} {e : Event}
    (h : events.filter (fun f => decide (f.path.Same p)) = [e]) (s : Presence) :
    p.components ∈ events.foldl afterEvent s ↔ e.kind.Shows := by
  obtain ⟨before, later, rfl, _, same, after⟩ := List.filter_eq_cons_iff.mp h
  have same : p.components = e.path.components := (of_decide_eq_true same).symm
  have silent : ∀ f ∈ later, p.components ≠ f.path.components := by
    intro f hf hp
    exact List.filter_eq_nil_iff.mp after f hf (decide_eq_true hp.symm)
  rw [List.foldl_append, List.foldl_cons, mem_foldl_of_silent (afterEvent_frame _) later silent,
    mem_afterEvent, if_pos same]

/-! ## One block -/

theorem fits_append (s : Presence) (before later : List Event) :
    s.Fits (before ++ later) ↔ s.Fits before ∧ (before.foldl afterChange s).Fits later := by
  induction before generalizing s with
  | nil => simp [Fits]
  | cons e rest ih => simp only [List.cons_append, Fits, List.foldl_cons, ih, and_assoc]

/-- What the life of a path tells about its being there, now and when the block began. -/
def Told (s : Presence) (changes : List Event) (p : Path) : Prop :=
  match Life.after? changes p with
  | none => p.components ∈ changes.foldl afterChange s ↔ p.components ∈ s
  | some l =>
    (p.components ∈ changes.foldl afterChange s ↔ l.kind.Shows) ∧
    (l.kind = .created → p.components ∉ s)

theorem told_of_fits {s : Presence} {changes : List Event} (fits : s.Fits changes) (p : Path) :
    s.Told changes p := by
  induction changes using List.reverseRecOn with
  | nil => simp [Told, Life.after?]
  | append_singleton changes e ih =>
    obtain ⟨earlier, isNew, isOld, _⟩ := (fits_append s changes [e]).mp fits
    have told := ih earlier
    unfold Told at told ⊢
    rw [List.foldl_append, List.foldl_cons, List.foldl_nil, Life.after?_snoc, mem_afterChange]
    by_cases same : e.path.Same p
    · have key : p.components = e.path.components := Eq.symm same
      rw [if_pos same, if_pos key]
      rw [← key] at isNew isOld
      cases hl : Life.after? changes p with
      | none =>
        rw [hl] at told
        simp only [Life.next]
        exact ⟨ChangeKind.leaves_iff_shows ⟨isNew, isOld⟩, fun hc => told.not.mp (isNew hc)⟩
      | some l =>
        rw [hl] at told
        obtain ⟨now, begin⟩ := told
        have fit : e.kind.Fits l.kind.Shows :=
          ⟨fun hc => now.not.mp (isNew hc), fun hm => now.mp (isOld hm)⟩
        simp only [Life.next, now]
        cases hm : l.kind.merge e.kind with
        | none =>
          obtain ⟨created, gone⟩ := ChangeKind.not_leaves_of_merge_none hm l.kind.Shows
          simp only [Option.map_none]
          exact iff_of_false gone (begin created)
        | some kind =>
          obtain ⟨leaves, only⟩ := ChangeKind.merge_shows hm fit
          simp only [Option.map_some]
          exact ⟨leaves, fun hc => begin (only hc)⟩
    · have key : p.components ≠ e.path.components := fun h => same h.symm
      rw [if_neg same, if_neg key]
      exact told

/-- The batch of a block tells what the block did. -/
theorem replay_batchOf {s : Presence} {changes : List Event} (fits : s.Fits changes) :
    (Coalescer.batchOf changes).foldl afterEvent s = changes.foldl afterChange s := by
  ext key
  by_cases named : ∃ p : Path, p.components = key
  · obtain ⟨p, rfl⟩ := named
    have told := told_of_fits fits p
    have held := Coalescer.filter_batchOf changes p
    unfold Told at told
    cases hl : Life.after? changes p with
    | none =>
      rw [hl] at told held
      have silent : ∀ e ∈ Coalescer.batchOf changes, p.components ≠ e.path.components :=
        fun e he hp => List.filter_eq_nil_iff.mp held e he (decide_eq_true hp.symm)
      rw [mem_foldl_of_silent (afterEvent_frame _) _ silent]
      exact told.symm
    | some l =>
      rw [hl] at told held
      rw [mem_replay_of_single held]
      exact told.1.symm
  · have silent : ∀ e : Event, key ≠ e.path.components := fun e he => named ⟨e.path, he.symm⟩
    rw [mem_foldl_of_silent (afterEvent_frame _) _ (fun e _ => silent e),
      mem_foldl_of_silent (afterChange_frame _) _ (fun e _ => silent e)]

/-! ## All blocks -/

theorem foldl_take_succ {step : Presence → Event → Presence} (s : Presence) {blocks : List (List Event)}
    {n : Nat} {block : List Event} (h : blocks[n]? = some block) :
    (blocks.take (n + 1)).flatten.foldl step s =
      block.foldl step ((blocks.take n).flatten.foldl step s) := by
  rw [List.take_add_one, h, Option.toList_some, List.flatten_append, List.foldl_append]
  simp

theorem fits_block {s : Presence} {blocks : List (List Event)} (fits : s.Fits blocks.flatten)
    {n : Nat} {block : List Event} (h : blocks[n]? = some block) :
    ((blocks.take n).flatten.foldl afterChange s).Fits block := by
  obtain ⟨inside, rfl⟩ := List.getElem?_eq_some_iff.mp h
  have cut : blocks.flatten =
      (blocks.take n).flatten ++ (blocks[n] ++ (blocks.drop (n + 1)).flatten) := by
    rw [← List.flatten_cons, ← List.drop_eq_getElem_cons inside, ← List.flatten_append,
      List.take_append_drop]
  rw [cut, fits_append, fits_append] at fits
  exact fits.2.1

theorem replay_all {s : Presence} {blocks : List (List Event)} (fits : s.Fits blocks.flatten) :
    (blocks.map Coalescer.batchOf).flatten.foldl afterEvent s = blocks.flatten.foldl afterChange s := by
  induction blocks generalizing s with
  | nil => rfl
  | cons block rest ih =>
    rw [List.flatten_cons, fits_append] at fits
    rw [List.map_cons, List.flatten_cons, List.flatten_cons, List.foldl_append, List.foldl_append,
      replay_batchOf fits.1, ih fits.2]

/-- **A reader's view is right.** However a history is cut into blocks, the events of the batches lead
a reader to the paths that exist at its end, and a path that a batch says nothing about is there after
the block exactly if it was before. -/
theorem replay_batches (s : Presence) (blocks : List (List Event)) (fits : s.Fits blocks.flatten) :
    (Coalescer.empty.batches blocks).flatten.foldl afterEvent s = blocks.flatten.foldl afterChange s ∧
    ∀ n batch, (Coalescer.empty.batches blocks)[n]? = some batch →
      ∀ p : Path, (∀ e ∈ batch, ¬ e.path.Same p) →
        (p.components ∈ (blocks.take (n + 1)).flatten.foldl afterChange s ↔
          p.components ∈ (blocks.take n).flatten.foldl afterChange s) := by
  rw [Coalescer.batches_empty]
  refine ⟨replay_all fits, fun n batch hb p silent => ?_⟩
  rw [List.getElem?_map, Option.map_eq_some_iff] at hb
  obtain ⟨block, hn, rfl⟩ := hb
  rw [foldl_take_succ s hn, ← replay_batchOf (fits_block fits hn)]
  exact mem_foldl_of_silent (afterEvent_frame _) _ (fun e he hp => silent e he hp.symm) _

/-- In the first block a path comes and goes while another one is renamed into place, and the batch
names the latter only. -/
theorem replay_batches_undone :
    let a : Path := ⟨[0x2F, 0x61]⟩
    let b : Path := ⟨[0x2F, 0x62]⟩
    let blocks : List (List Event) :=
      [[⟨a, .created, .origin⟩, ⟨b, .renamedNew, .origin⟩, ⟨a, .removed, .origin⟩], [],
        [⟨b, .modified, .origin⟩, ⟨b, .removed, .origin⟩, ⟨a, .created, .origin⟩]]
    Fits ∅ blocks.flatten ∧
    (Coalescer.empty.batches blocks).flatten.foldl afterEvent ∅ = blocks.flatten.foldl afterChange ∅ ∧
    (Coalescer.empty.batches blocks)[0]? = some [⟨b, .renamedNew, .origin⟩] ∧
    (a.components ∈ (blocks.take 1).flatten.foldl afterChange ∅ ↔
      a.components ∈ (blocks.take 0).flatten.foldl afterChange ∅) := by
  intro a b blocks
  have differ : b.components ≠ a.components := by decide
  have fits : Fits ∅ blocks.flatten := by
    simp [blocks, Fits, afterChange, differ]
  have told : (Coalescer.empty.batches blocks)[0]? = some [⟨b, .renamedNew, .origin⟩] := by decide
  have silent : ∀ e ∈ [(⟨b, .renamedNew, .origin⟩ : Event)], ¬ e.path.Same a := by
    simp only [List.mem_singleton, forall_eq]
    exact differ
  obtain ⟨view, quiet⟩ := replay_batches ∅ blocks fits
  exact ⟨fits, view, told, quiet 0 _ told a silent⟩

end Presence

end DirectoryWatch
