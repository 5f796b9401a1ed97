import DirectoryWatch.Native.Registry
import DirectoryWatch.Proofs.Trace
import Mathlib.Data.List.Pairwise

/-!
# Registrations

A root is registered for the handle that was attached to it last, until the root is severed or a handle
of the root is closed, whichever handle that is. So who is registered, and gets the messages, is always
the last one attached and neither severed nor closed. The last one attached need not be registered: an
older handle of the same root that is closed after it takes the registration along.
-/

namespace DirectoryWatch.Native

theorem Handle.exists_sendAll_eq (h : Handle) (messages : List Message) :
    ∃ pending, h.sendAll messages = { h with pending } := by
  induction messages generalizing h with
  | nil => exact ⟨h.pending, rfl⟩
  | cons m rest ih =>
    obtain ⟨pending, sent⟩ := ih (h.send m)
    refine ⟨pending, sent.trans ?_⟩
    unfold send
    split <;> rfl

/-! ## Keys of a registry -/

namespace Registry

/-- The ticket that is registered under a key. -/
def holderAt (r : Registry) (k : Path) : Option Nat :=
  (r.live.find? fun entry => decide (entry.1.Same k)).map (·.2)

theorem holder?_eq (r : Registry) (disk : Disk) (root : Path) :
    r.holder? disk root = r.holderAt (key disk root) := rfl

variable {r : Registry} {k p : Path}

theorem find?_without (r : Registry) (p k : Path) :
    (r.without p).find? (fun entry => decide (entry.1.Same k)) =
      if p.Same k then none else r.live.find? fun entry => decide (entry.1.Same k) := by
  unfold without
  rw [List.find?_filter]
  split
  · rename_i same
    rw [List.find?_eq_none]
    intro entry _ found
    simp only [Bool.not_eq_true', decide_eq_false_iff_not, decide_eq_true_eq] at found
    exact found.1 (found.2.trans same.symm)
  · rename_i other
    congr 1
    funext entry
    rw [Bool.eq_iff_iff]
    simp only [Bool.not_eq_true', decide_eq_false_iff_not, decide_eq_true_eq,
      and_iff_right_iff_imp]
    exact fun there same => other (same.symm.trans there)

theorem mem_without {entry : Path × Nat} :
    entry ∈ r.without p ↔ entry ∈ r.live ∧ ¬ entry.1.Same p := by
  simp [without]

/-- No two entries are of one root. -/
def Apart (r : Registry) : Prop := r.live.Pairwise fun e f => ¬ e.1.Same f.1

theorem Apart.without (h : Apart r) (p : Path) : (r.without p).Pairwise fun e f => ¬ e.1.Same f.1 :=
  h.sublist List.filter_sublist

theorem mem_of_holderAt {t : Nat} (h : r.holderAt k = some t) : ∃ e ∈ r.live, e.2 = t ∧ e.1.Same k := by
  obtain ⟨e, found, rfl⟩ := Option.map_eq_some_iff.mp h
  exact ⟨e, List.mem_of_find?_eq_some found, rfl, by simpa using List.find?_some found⟩

theorem Apart.holderAt_of_mem (h : Apart r) {e : Path × Nat} (mem : e ∈ r.live) (same : e.1.Same k) :
    r.holderAt k = some e.2 := by
  unfold holderAt
  cases found : r.live.find? fun entry => decide (entry.1.Same k) with
  | none =>
    rw [List.find?_eq_none] at found
    simpa [same] using found e mem
  | some f =>
    have there : f.1.Same k := by simpa using List.find?_some found
    have one : f = e := by
      by_contra other
      have : Std.Symm fun e f : Path × Nat => ¬ e.1.Same f.1 := ⟨fun _ _ apart back => apart back.symm⟩
      exact List.Pairwise.forall h (List.mem_of_find?_eq_some found) mem other (there.trans same.symm)
    rw [one, Option.map_some]

theorem holderAt_eq_of_live {r' : Registry} {live : List (Path × Nat)} (h : r'.live = live) (k : Path) :
    r'.holderAt k = (live.find? fun entry => decide (entry.1.Same k)).map (·.2) := by
  rw [holderAt, h]

theorem holderAt_of_without {r' : Registry} (h : r'.live = r.without p) (k : Path) :
    r'.holderAt k = if p.Same k then none else r.holderAt k := by
  rw [holderAt, h, find?_without]
  split <;> rfl

/-- What an attempt to attach a root comes to. -/
inductive Attached (disk : Disk) (root : Path) (r : Registry) : Except Error Handle × Registry → Prop where
  | refused {e : Error} {r' : Registry} : r'.live = r.live → r'.tickets = r.tickets →
    Attached disk root r (.error e, r')
  | opened {h : Handle} {r' : Registry} : h.root = key disk root → h.ticket = r.tickets →
    h.closed = false → h.connected = true →
    r'.live = (key disk root, r.tickets) :: r.without (key disk root) → r'.tickets = r.tickets + 1 →
    Attached disk root r (.ok h, r')

theorem attached (disk : Disk) (root : Path) (recursive : Bool) (r : Registry) :
    Attached disk root r (attach disk root recursive r) := by
  unfold attach
  dsimp only
  split
  · exact .refused rfl rfl
  · obtain ⟨pending, greeted⟩ := Handle.exists_sendAll_eq (.make (key disk root) r.tickets false)
      ({ r with opened := r.opened ++ [key disk root] }.greeting (key disk root))
    rw [greeted]
    exact .opened rfl rfl rfl rfl rfl rfl

end Registry

/-! ## A registry with its handles -/

/-- A registry and the handles that it gave, the handle of each ticket in the place of its number. -/
structure Roster where
  registry : Registry
  handles : List Handle
  deriving DecidableEq, Repr

namespace Roster

def start (recursion : Bool) : Roster := ⟨.empty recursion, []⟩

/-- The handles after an operation of the registry. -/
def follow (s : Roster) : Roster :=
  { s with handles := s.handles.map (Handle.follow (Registry.backend s.registry.recursion) s.registry) }

inductive Act where
  | attach (root : Path) (recursive : Bool)
  | refuse (root : Path)
  | sever (root : Path)
  | send (root : Path) (m : Message)
  | close (ticket : Nat)
  deriving DecidableEq, Repr

def attach (disk : Disk) (s : Roster) (root : Path) (recursive : Bool) : Roster :=
  match Registry.attach disk root recursive s.registry with
  | (.ok h, registry) => follow ⟨registry, s.handles ++ [h]⟩
  | (.error _, registry) => { s with registry }

/-- Sends a message to the handle that is registered, and tells whether there is one. -/
def send (disk : Disk) (s : Roster) (root : Path) (m : Message) : Bool × Roster :=
  match s.registry.holder? disk root with
  | some t => (true, { s with handles := s.handles.modify t (·.send m) })
  | none => (false, s)

/-- The handle of a ticket, if there is one that is not closed. -/
def unclosed? (s : Roster) (ticket : Nat) : Option Handle :=
  s.handles[ticket]?.filter fun h => !h.closed

def close (s : Roster) (ticket : Nat) : Roster :=
  match s.unclosed? ticket with
  | some h => follow ⟨s.registry.release h, s.handles.set ticket h.close⟩
  | none => s

def act (disk : Disk) (s : Roster) : Act → Roster
  | .attach root recursive => s.attach disk root recursive
  | .refuse root => { s with registry := s.registry.refuse disk root }
  | .sever root => follow { s with registry := s.registry.sever disk root }
  | .send root m => (s.send disk root m).2
  | .close ticket => s.close ticket

def run (disk : Disk) (s : Roster) (acts : List Act) : Roster := acts.foldl (act disk) s

/-! ## Deeds -/

/-- What was done about a root that can change who is registered. -/
inductive Deed where
  | opened (root : Path) (ticket : Nat)
  | severed (root : Path)
  | closed (root : Path) (ticket : Nat)
  deriving DecidableEq, Repr

def Deed.root : Deed → Path
  | .opened root _ | .severed root | .closed root _ => root

def Deed.opener? : Deed → Option Nat
  | .opened _ t => some t
  | .severed _ | .closed _ _ => none

def note (disk : Disk) (s : Roster) : Act → List Deed
  | .attach root recursive =>
    match (Registry.attach disk root recursive s.registry).1 with
    | .ok h => [.opened h.root h.ticket]
    | .error _ => []
  | .sever root => [.severed (Registry.key disk root)]
  | .close ticket => (s.unclosed? ticket).toList.map fun h => .closed h.root ticket
  | .refuse _ | .send _ _ => []

def deeds (disk : Disk) (s : Roster) (acts : List Act) : List Deed := noted (act disk) (note disk) s acts

/-- Who is registered under a key after a deed. -/
def Deed.leaves (k : Path) (held : Option Nat) (d : Deed) : Option Nat :=
  if d.root.Same k then d.opener? else held

variable {disk : Disk} {s : Roster} {k : Path} {held : Option Nat}

@[simp] theorem registry_follow (s : Roster) : s.follow.registry = s.registry := rfl

@[simp] theorem registry_send (s : Roster) (root : Path) (m : Message) :
    (s.send disk root m).2.registry = s.registry := by
  unfold send
  split <;> rfl

/-! ## Who is registered after some deeds -/

theorem holderAt_close {n : Nat} {h : Handle} (open' : s.unclosed? n = some h) (k : Path) :
    (s.close n).registry.holderAt k = if h.root.Same k then none else s.registry.holderAt k := by
  unfold close
  rw [open']
  exact Registry.holderAt_of_without rfl k

theorem holderAt_act (s : Roster) (a : Act) (k : Path) :
    (s.act disk a).registry.holderAt k = (s.note disk a).foldl (Deed.leaves k) (s.registry.holderAt k) := by
  cases a with
  | attach root recursive =>
    have tried := Registry.attached disk root recursive s.registry
    unfold act note attach
    dsimp only
    generalize Registry.attach disk root recursive s.registry = answer at tried ⊢
    cases tried with
    | refused live => exact Registry.holderAt_eq_of_live live k
    | opened place ticket _ _ live =>
      simp only [registry_follow, Registry.holderAt_eq_of_live live, List.find?_cons, List.foldl_cons,
        List.foldl_nil, Deed.leaves, Deed.root, Deed.opener?, place, ticket, Registry.find?_without]
      by_cases same : (Registry.key disk root).Same k
      · simp [same]
      · simp [same, Registry.holderAt]
  | refuse root => rfl
  | sever root => exact Registry.holderAt_of_without rfl k
  | send root m =>
    unfold act note
    dsimp only
    rw [registry_send]
    rfl
  | close ticket =>
    unfold act note
    dsimp only
    cases found : s.unclosed? ticket with
    | none =>
      unfold close
      rw [found]
      rfl
    | some h => exact holderAt_close found k

/-- Who is registered is settled by the deeds alone. -/
theorem holderAt_run (disk : Disk) (s : Roster) (acts : List Act) (k : Path) :
    (s.run disk acts).registry.holderAt k =
      (s.deeds disk acts).foldl (Deed.leaves k) (s.registry.holderAt k) := by
  induction acts generalizing s with
  | nil => rfl
  | cons a rest ih =>
    rw [deeds, noted, List.foldl_append, ← holderAt_act]
    exact ih (s.act disk a)

theorem foldl_leaves_of_no_opening {since : List Deed}
    (none : ∀ d ∈ since, d.root.Same k → d.opener? = none) (held : Option Nat) (t : Nat) :
    since.foldl (Deed.leaves k) held = some t ↔ held = some t ∧ ∀ d ∈ since, ¬ d.root.Same k := by
  induction since generalizing held with
  | nil => simp
  | cons d rest ih =>
    rw [List.foldl_cons, ih (fun e mem => none e (List.mem_cons_of_mem d mem)), List.forall_mem_cons,
      Deed.leaves]
    split
    · rename_i same
      simp [none d List.mem_cons_self same, same]
    · rename_i other
      simp [other]

theorem Deed.opener?_eq_some_iff {d : Deed} {t : Nat} : d.opener? = some t ↔ d = .opened d.root t := by
  cases d <;> simp [opener?, root]

theorem held_or_opened {deeds : List Deed} {t : Nat} (h : deeds.foldl (Deed.leaves k) held = some t) :
    (held = some t ∧ ∀ d ∈ deeds, ¬ d.root.Same k) ∨
      ∃ before p since, deeds = before ++ .opened p t :: since ∧ p.Same k ∧
        ∀ d ∈ since, ¬ d.root.Same k := by
  induction deeds generalizing held with
  | nil => exact .inl ⟨h, by simp⟩
  | cons d rest ih =>
    rcases ih h with ⟨left, quiet⟩ | ⟨before, p, since, rfl, same, quiet⟩
    · unfold Deed.leaves at left
      split at left
      · rename_i same
        rw [Deed.opener?_eq_some_iff] at left
        exact .inr ⟨[], d.root, rest, by rw [List.nil_append, ← left], same, quiet⟩
      · rename_i other
        exact .inl ⟨left, List.forall_mem_cons.mpr ⟨other, quiet⟩⟩
    · exact .inr ⟨d :: before, p, since, rfl, same, quiet⟩

/-! ## What stays true -/

/-- Every ticket has its handle, and every entry leads to a handle of its root that is open and
connected. -/
structure Sound (s : Roster) : Prop where
  tickets : s.registry.tickets = s.handles.length
  ticket {n : Nat} {h : Handle} : s.handles[n]? = some h → h.ticket = n
  apart : s.registry.Apart
  entry {e : Path × Nat} : e ∈ s.registry.live → ∃ h, s.handles[e.2]? = some h ∧ h.root.Same e.1 ∧
    h.closed = false ∧ h.connected = true

/-- Moreover no handle without an entry is connected. -/
structure Tended (s : Roster) : Prop extends Sound s where
  connected {n : Nat} {h : Handle} : s.handles[n]? = some h → h.connected = true →
    s.registry.holds n = true

theorem holds_eq_true_iff {r : Registry} {n : Nat} : r.holds n = true ↔ ∃ e ∈ r.live, e.2 = n := by
  simp [Registry.holds]

theorem tended_of_same (h : Tended s) {r' : Registry} (live : r'.live = s.registry.live)
    (tickets : r'.tickets = s.registry.tickets) : Tended { s with registry := r' } := by
  refine ⟨⟨tickets.trans h.tickets, h.ticket, ?_, ?_⟩, ?_⟩
  · rw [Registry.Apart, live]
    exact h.apart
  · rw [live]
    exact h.entry
  · unfold Registry.holds
    rw [live]
    exact h.connected

theorem tended_follow (h : Sound s) : Tended s.follow := by
  have followed {n : Nat} {g : Handle} (there : s.follow.handles[n]? = some g) :
      ∃ f, s.handles[n]? = some f ∧ f.ticket = n ∧
        g = if s.registry.holds n then f else f.disconnect := by
    obtain ⟨f, found, rfl⟩ := by simpa [follow, List.getElem?_map] using there
    have ticket := h.ticket found
    exact ⟨f, found, ticket, by rw [← ticket]; rfl⟩
  constructor
  case connected =>
    intro n g there connected
    obtain ⟨f, _, _, rfl⟩ := followed there
    by_contra gone
    rw [registry_follow] at gone
    simp [gone, Handle.disconnect] at connected
  constructor
  case tickets => simpa [follow] using h.tickets
  case ticket =>
    intro n g there
    obtain ⟨f, _, ticket, rfl⟩ := followed there
    split <;> exact ticket
  case apart => exact h.apart
  case entry =>
    intro e mem
    obtain ⟨f, found, facts⟩ := h.entry mem
    have holds : s.registry.holds f.ticket = true :=
      holds_eq_true_iff.mpr ⟨e, mem, (h.ticket found).symm⟩
    refine ⟨f, ?_, facts⟩
    simp [follow, List.getElem?_map, found, Handle.follow, Registry.backend, holds]

theorem tended_start (recursion : Bool) : Tended (start recursion) :=
  ⟨⟨rfl, by simp [start], List.Pairwise.nil, by simp [start, Registry.empty]⟩, by simp [start]⟩

theorem sound_attach (h : Sound s) {root : Path} {g : Handle} {r' : Registry}
    (opened : Registry.Attached disk root s.registry (.ok g, r')) : Sound ⟨r', s.handles ++ [g]⟩ := by
  cases opened with
  | opened place ticket unclosed connected live tickets =>
    constructor
    case tickets => simp [tickets, h.tickets]
    case ticket =>
      intro n f there
      by_cases old : n < s.handles.length
      · rw [List.getElem?_append_left old] at there
        exact h.ticket there
      · have inside := (List.getElem?_eq_some_iff.mp there).1
        rw [List.length_append, List.length_singleton] at inside
        obtain rfl : n = s.handles.length := by omega
        rw [List.getElem?_concat_length, Option.some.injEq] at there
        rw [← there, ticket, h.tickets]
    case apart =>
      rw [Registry.Apart, live, List.pairwise_cons]
      exact ⟨fun e mem same => (Registry.mem_without.mp mem).2 same.symm, h.apart.without _⟩
    case entry =>
      intro e mem
      rw [live, List.mem_cons, Registry.mem_without] at mem
      rcases mem with rfl | ⟨mem, _⟩
      · exact ⟨g, by simp [h.tickets], place ▸ Path.Same.refl _, unclosed, connected⟩
      · obtain ⟨f, found, facts⟩ := h.entry mem
        have old := (List.getElem?_eq_some_iff.mp found).1
        exact ⟨f, by rw [List.getElem?_append_left old, found], facts⟩

theorem sound_without (h : Sound s) {p : Path} {r' : Registry} (live : r'.live = s.registry.without p)
    (tickets : r'.tickets = s.registry.tickets) : Sound { s with registry := r' } := by
  refine ⟨tickets.trans h.tickets, h.ticket, ?_, fun mem => ?_⟩
  · rw [Registry.Apart, live]
    exact h.apart.without p
  · rw [live, Registry.mem_without] at mem
    exact h.entry mem.1

theorem unclosed?_eq_some_iff {t : Nat} {h : Handle} :
    s.unclosed? t = some h ↔ s.handles[t]? = some h ∧ h.closed = false := by
  simp [unclosed?, Option.filter_eq_some_iff]

theorem sound_close (h : Sound s) {t : Nat} {g : Handle} (open' : s.unclosed? t = some g) :
    Sound ⟨s.registry.release g, s.handles.set t g.close⟩ := by
  obtain ⟨there, _⟩ := unclosed?_eq_some_iff.mp open'
  have fewer : Sound { s with registry := s.registry.release g } := sound_without h rfl rfl
  constructor
  case tickets => simpa using fewer.tickets
  case ticket =>
    intro n f found
    rw [List.getElem?_set] at found
    split at found
    · rename_i here
      obtain ⟨_, rfl⟩ := by simpa using found
      exact (show g.ticket = t from h.ticket there).trans here
    · exact h.ticket found
  case apart => exact fewer.apart
  case entry =>
    intro e mem
    obtain ⟨f, found, same, facts⟩ := fewer.entry mem
    have other : t ≠ e.2 := by
      rintro rfl
      obtain rfl := Option.some.inj (there.symm.trans found)
      exact (Registry.mem_without.mp mem).2 same.symm
    exact ⟨f, by rw [List.getElem?_set_ne other, found], same, facts⟩

theorem tended_send (h : Tended s) (root : Path) (m : Message) : Tended (s.send disk root m).2 := by
  unfold send
  split
  · rename_i t _
    have sent (f : Handle) : ∃ pending, f.send m = { f with pending } := f.exists_sendAll_eq [m]
    have before {n : Nat} {g : Handle} (there : (s.handles.modify t (·.send m))[n]? = some g) :
        ∃ f pending, s.handles[n]? = some f ∧ g = { f with pending } := by
      rw [List.getElem?_modify] at there
      obtain ⟨f, found, rfl⟩ := Option.map_eq_some_iff.mp there
      split
      · obtain ⟨pending, same⟩ := sent f
        exact ⟨f, pending, found, same⟩
      · exact ⟨f, f.pending, found, rfl⟩
    constructor
    case connected =>
      intro n g there connected
      obtain ⟨f, _, found, rfl⟩ := before there
      exact h.connected found connected
    constructor
    case tickets => simpa using h.tickets
    case ticket =>
      intro n g there
      obtain ⟨f, _, found, rfl⟩ := before there
      exact (h.ticket found : f.ticket = n)
    case apart => exact h.apart
    case entry =>
      intro e mem
      obtain ⟨f, found, facts⟩ := h.entry mem
      obtain ⟨pending, same⟩ := sent f
      by_cases here : t = e.2
      · exact ⟨f.send m, by simp [found, here], same ▸ facts⟩
      · exact ⟨f, by simp [found, here], facts⟩
  · exact h

theorem tended_act (disk : Disk) (h : Tended s) (a : Act) : Tended (s.act disk a) := by
  cases a with
  | attach root recursive =>
    have tried := Registry.attached disk root recursive s.registry
    unfold act attach
    dsimp only
    generalize Registry.attach disk root recursive s.registry = answer at tried ⊢
    cases tried with
    | refused live tickets => exact tended_of_same h live tickets
    | opened place ticket unclosed connected live tickets =>
      exact tended_follow
        (sound_attach h.toSound (.opened place ticket unclosed connected live tickets))
  | refuse root => exact tended_of_same h rfl rfl
  | sever root => exact tended_follow (sound_without h.toSound rfl rfl)
  | send root m => exact tended_send h root m
  | close ticket =>
    unfold act close
    dsimp only
    cases found : s.unclosed? ticket with
    | none => exact h
    | some g => exact tended_follow (sound_close h.toSound found)

theorem tended_run (disk : Disk) (h : Tended s) (acts : List Act) : Tended (s.run disk acts) := by
  induction acts generalizing s with
  | nil => exact h
  | cons a rest ih => exact ih (tended_act disk h a)

theorem Tended.connected_iff (h : Tended s) {n : Nat} {g : Handle} (there : s.handles[n]? = some g)
    (same : g.root.Same k) : g.connected = true ↔ s.registry.holderAt k = some n := by
  constructor
  · intro connected
    obtain ⟨e, mem, rfl⟩ := holds_eq_true_iff.mp (h.connected there connected)
    obtain ⟨f, found, of, _⟩ := h.entry mem
    obtain rfl := Option.some.inj (there.symm.trans found)
    exact h.apart.holderAt_of_mem mem (of.symm.trans same)
  · intro registered
    obtain ⟨e, mem, rfl, _⟩ := Registry.mem_of_holderAt registered
    obtain ⟨f, found, _, _, connected⟩ := h.entry mem
    obtain rfl := Option.some.inj (there.symm.trans found)
    exact connected

theorem Tended.send_of_holder (h : Tended s) {root : Path} {t : Nat}
    (registered : s.registry.holder? disk root = some t) (m : Message) :
    ∃ g, s.handles[t]? = some g ∧ g.root.Same (Registry.key disk root) ∧ g.closed = false ∧
      s.send disk root m =
        (true, { s with handles := s.handles.set t { g with pending := g.pending ++ [m] } }) := by
  obtain ⟨e, mem, rfl, same⟩ := Registry.mem_of_holderAt registered
  obtain ⟨g, found, of, unclosed, connected⟩ := h.entry mem
  refine ⟨g, found, of.trans same, unclosed, ?_⟩
  have sent : g.send m = { g with pending := g.pending ++ [m] } := by simp [Handle.send, connected]
  simp [send, registered, List.modify_eq_set_getElem?, found, sent]

/-! ## The last handle attached -/

/-- The ticket was attached last under a key, with some deeds since, and was neither severed nor closed. -/
structure Lasting (deeds : List Deed) (k : Path) (t : Nat) (since : List Deed) : Prop where
  attached : ∃ before p, deeds = before ++ .opened p t :: since ∧ p.Same k
  others : ∀ d ∈ since, d.root.Same k → ∃ u ≠ t, d = .closed d.root u

theorem Lasting.foldl_leaves_iff {deeds since : List Deed} {t : Nat} (h : Lasting deeds k t since) :
    deeds.foldl (Deed.leaves k) none = some t ↔ ∀ d ∈ since, ¬ d.root.Same k := by
  obtain ⟨before, p, rfl, same⟩ := h.attached
  have none : ∀ d ∈ since, d.root.Same k → d.opener? = none := by
    intro d mem about
    obtain ⟨u, _, closed⟩ := h.others d mem about
    rw [closed]
    rfl
  rw [List.foldl_append, List.foldl_cons, foldl_leaves_of_no_opening none]
  exact and_iff_right (if_pos same)

theorem foldl_leaves_eq_some_iff {deeds : List Deed} {t : Nat} :
    deeds.foldl (Deed.leaves k) none = some t ↔
      ∃ since, Lasting deeds k t since ∧ ∀ d ∈ since, ¬ d.root.Same k := by
  constructor
  · intro registered
    obtain ⟨absurd, _⟩ | ⟨before, p, since, cut, same, quiet⟩ := held_or_opened registered
    · cases absurd
    · exact ⟨since, ⟨⟨before, p, cut, same⟩, fun d mem about => (quiet d mem about).elim⟩, quiet⟩
  · rintro ⟨since, lasting, quiet⟩
    exact lasting.foldl_leaves_iff.mpr quiet

/-- Who is registered for a root after some deeds, and where a message to the root goes. -/
structure Registered (disk : Disk) (s : Roster) (deeds : List Deed) (root : Path) : Prop where
  holder {t : Nat} : s.registry.holder? disk root = some t ↔
    ∃ since, Lasting deeds (Registry.key disk root) t since ∧
      ∀ d ∈ since, ¬ d.root.Same (Registry.key disk root)
  isOpen : s.registry.isOpen disk root = true ↔
    ∃ t since, Lasting deeds (Registry.key disk root) t since ∧
      ∀ d ∈ since, ¬ d.root.Same (Registry.key disk root)
  /-- The last one attached stays registered until another handle of the root is closed. -/
  kept {t : Nat} {since : List Deed} : Lasting deeds (Registry.key disk root) t since →
    (s.registry.holder? disk root = some t ↔
      ∀ p u, .closed p u ∈ since → ¬ p.Same (Registry.key disk root))
  connected {n : Nat} {h : Handle} : s.handles[n]? = some h → h.root.Same (Registry.key disk root) →
    (h.connected = true ↔ s.registry.holder? disk root = some n)
  sent {t : Nat} (m : Message) : s.registry.holder? disk root = some t →
    ∃ h, s.handles[t]? = some h ∧ h.root.Same (Registry.key disk root) ∧ h.closed = false ∧
      s.send disk root m =
        (true, { s with handles := s.handles.set t { h with pending := h.pending ++ [m] } })
  unsent (m : Message) : s.registry.isOpen disk root = false → s.send disk root m = (false, s)
  /-- Whichever handle of the root is closed, none is registered or connected afterwards. -/
  closing {n : Nat} {g : Handle} : s.unclosed? n = some g → g.root.Same (Registry.key disk root) →
    (s.close n).registry.isOpen disk root = false ∧
      ∀ (i : Nat) (h : Handle), (s.close n).handles[i]? = some h →
        h.root.Same (Registry.key disk root) → h.connected = false

/-- **The registration of a root.** -/
theorem registered (disk : Disk) (recursion : Bool) (acts : List Act) (root : Path) :
    Registered disk ((start recursion).run disk acts) ((start recursion).deeds disk acts) root := by
  have tended : Tended ((start recursion).run disk acts) := tended_run disk (tended_start recursion) acts
  -- Who is registered is read off the deeds; where a message goes, off what stays true.
  have folded := holderAt_run disk (start recursion) acts (Registry.key disk root)
  generalize (start recursion).run disk acts = s, (start recursion).deeds disk acts = deeds
    at tended folded ⊢
  have empty : (start recursion).registry.holderAt (Registry.key disk root) = none := rfl
  rw [empty, ← Registry.holder?_eq] at folded
  constructor
  case holder =>
    intro t
    rw [folded, foldl_leaves_eq_some_iff]
  case isOpen =>
    rw [Registry.isOpen, Option.isSome_iff_exists, folded]
    exact exists_congr fun t => foldl_leaves_eq_some_iff
  case kept =>
    intro t since lasting
    rw [folded, lasting.foldl_leaves_iff]
    constructor
    · intro quiet p u mem
      exact quiet _ mem
    · intro apart d mem about
      obtain ⟨u, _, closed⟩ := lasting.others d mem about
      exact apart d.root u (closed ▸ mem) about
  case connected =>
    intro n h there same
    exact tended.connected_iff there same
  case sent =>
    intro t m registered
    exact tended.send_of_holder registered m
  case unsent =>
    intro m absent
    rw [Registry.isOpen, Option.isSome_eq_false_iff, Option.isNone_iff_eq_none] at absent
    simp [send, absent]
  case closing =>
    intro n g open' same
    have gone : (s.close n).registry.holderAt (Registry.key disk root) = none := by
      rw [holderAt_close open', if_pos same]
    have after : Tended (s.close n) := tended_act disk tended (.close n)
    refine ⟨by simp [Registry.isOpen, Registry.holder?_eq, gone], fun i h there of => ?_⟩
    rw [← Bool.not_eq_true, after.connected_iff there of, gone]
    simp

/-- A root is attached twice and its first handle closed: the second one, which nobody severed or closed,
is neither registered nor connected, and no message reaches it. -/
theorem last_unregistered_by_older :
    let a : Path := ⟨[0x2F, 0x61]⟩
    let disk : Disk := ⟨.ok, fun _ => true, fun _ => true, fun _ => .error .noEntry⟩
    let acts : List Act := [.attach a false, .attach a false, .close 0]
    let s := (start true).run disk acts
    Lasting ((start true).deeds disk acts) (Registry.key disk a) 1 [.closed a 0] ∧
      (s.unclosed? 1).map Handle.connected = some false ∧ s.registry.isOpen disk a = false ∧
        ∀ m, s.send disk a m = (false, s) := by
  refine ⟨⟨⟨[.opened ⟨[0x2F, 0x61]⟩ 0], ⟨[0x2F, 0x61]⟩, ?_, rfl⟩, ?_⟩, ?_, ?_, fun m => ?_⟩
  · decide
  · simp [Deed.root]
  · decide
  · decide
  · rfl

end Roster

end DirectoryWatch.Native
