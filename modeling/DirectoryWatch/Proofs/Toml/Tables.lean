import DirectoryWatch.Toml.Document

/-!
# The table of a text

A table that is read has each key once, and its integers have 64 bits. Nothing is asked of what stands
further inside: a statement that changes a table inside leaves the others here as they are.
-/

namespace DirectoryWatch.Toml

/-! ## Values -/

/-- If it is an integer, it has 64 bits. -/
def Fits (v : Toml) : Prop := ∀ n, v = .integer n → isInteger n = true

theorem isInteger_of_integer? {chars : List Char} {n : Int} (h : integer? chars = some n) :
    isInteger n = true := by
  unfold integer? at h
  exact (Option.filter_eq_some_iff.mp h).2

theorem fits_of_scalar? {chars : List Char} {v : Toml} (h : scalar? chars = some v) : v.Fits := by
  rintro n rfl
  unfold scalar? at h
  split at h
  · cases h
  · split at h
    · cases h
    · split at h
      · rename_i found
        cases h
        exact isInteger_of_integer? found
      · split at h
        · cases h
        · split at h <;> cases h

theorem fits_of_value? {depth : Nat} {chars rest : List Char} {v : Toml}
    (h : value? depth chars = some (v, rest)) : v.Fits := by
  cases depth with
  | zero => cases h
  | succ depth =>
    -- What is found by its first character is no integer; only a word may be one.
    rintro n rfl
    unfold value? at h
    split at h
    · obtain ⟨_, _, same⟩ := Option.map_eq_some_iff.mp h
      cases same
    · obtain ⟨_, _, same⟩ := Option.map_eq_some_iff.mp h
      cases same
    · obtain ⟨_, _, same⟩ := Option.map_eq_some_iff.mp h
      cases same
    · split at h
      · cases h
      · obtain ⟨_, _, same⟩ := Option.map_eq_some_iff.mp h
        cases same
    · simp only [Option.bind_eq_bind, Option.bind_eq_some_iff, Option.some.injEq, Prod.mk.injEq] at h
      obtain ⟨found, scalar, rfl, _⟩ := h
      exact fits_of_scalar? scalar n rfl

/-! ## Statements -/

def Statement.Fits : Statement → Prop
  | .header _ | .element _ => True
  | .assign _ value => value.Fits

theorem fits_of_statement? {chars rest : List Char} {s : Statement}
    (h : statement? chars = some (s, rest)) : s.Fits := by
  unfold statement? at h
  split at h
  · obtain ⟨_, _, h⟩ := Option.bind_eq_some_iff.mp h
    split at h
    · cases h
      trivial
    · cases h
  · obtain ⟨_, _, h⟩ := Option.bind_eq_some_iff.mp h
    split at h
    · cases h
      trivial
    · cases h
  · obtain ⟨_, _, h⟩ := Option.bind_eq_some_iff.mp h
    split at h
    · obtain ⟨⟨value, rest⟩, found, h⟩ := Option.bind_eq_some_iff.mp h
      cases h
      exact fits_of_value? found
    · cases h

theorem fits_of_statements? {steps : Nat} {chars : List Char} {found : List Statement}
    (h : statements? steps chars = some found) : ∀ s ∈ found, s.Fits := by
  induction steps generalizing chars found with
  | zero => cases h
  | succ steps ih =>
    simp only [statements?, Option.bind_eq_bind, Option.bind_eq_some_iff] at h
    obtain ⟨_, _, h⟩ := h
    split at h
    · cases h
      simp
    · simp only [Option.bind_eq_some_iff, Option.some.injEq] at h
      obtain ⟨⟨first, rest⟩, start, _, _, others, more, rfl⟩ := h
      rw [List.forall_mem_cons]
      exact ⟨fits_of_statement? start, ih more⟩

/-! ## Members -/

namespace Members

/-- Each key is there once, and values that are integers have 64 bits. -/
structure Sound (members : Members) : Prop where
  nodup : (members.map Prod.fst).Nodup
  fits {key : String} {v : Toml} (mem : (key, Item.value v) ∈ members) : v.Fits

variable {members : Members} {key : String} {item : Item}

theorem Sound.nil : Sound [] := ⟨List.nodup_nil, by simp⟩

theorem Sound.snoc (h : members.Sound) (new : members.lookup key = none)
    (fits : ∀ v, item = .value v → v.Fits) : Sound (members ++ [(key, item)]) := by
  constructor
  case nodup =>
    rw [List.map_append, List.nodup_append]
    refine ⟨h.nodup, by simp, fun old mem added there same => ?_⟩
    obtain ⟨m, there', rfl⟩ := List.mem_map.mp mem
    obtain rfl := List.mem_singleton.mp there
    exact absurd same.symm (by simpa using List.lookup_eq_none_iff.mp new m there')
  case fits =>
    intro key' v mem
    rcases List.mem_append.mp mem with old | added
    · exact h.fits old
    · obtain ⟨_, same⟩ := Prod.mk.inj (List.mem_singleton.mp added)
      exact fits v same.symm

theorem Sound.replace (h : members.Sound) (fits : ∀ v, item = .value v → v.Fits) :
    (members.replace key item).Sound := by
  have keys : (members.replace key item).map Prod.fst = members.map Prod.fst := by
    simp only [Members.replace, List.map_map]
    apply List.map_congr_left
    intro m _
    dsimp only [Function.comp_apply]
    split
    · exact Eq.symm ‹_›
    · rfl
  constructor
  case nodup =>
    rw [keys]
    exact h.nodup
  case fits =>
    intro key' v mem
    obtain ⟨m, there, same⟩ := List.mem_map.mp mem
    split at same
    · exact fits v (Prod.mk.inj same).2
    · exact h.fits (same ▸ there)

/-- What changes sound members leaves them sound. -/
def Keeps (f : Members → Option Members) : Prop :=
  ∀ members changed, members.Sound → f members = some changed → changed.Sound

theorem Keeps.change? {f : Members → Option Members} (h : Keeps f) (making : Making) (keys : List String) :
    Keeps (change? making f keys) := by
  intro members changed sound done
  cases keys with
  | nil => exact h members changed sound done
  | cons key keys =>
    unfold Members.change? at done
    split at done
    · rename_i new
      obtain ⟨inner, _, rfl⟩ := Option.map_eq_some_iff.mp done
      exact sound.snoc new (by simp)
    · split at done
      · cases done
      · obtain ⟨inner, _, rfl⟩ := Option.map_eq_some_iff.mp done
        exact sound.replace (by simp)
    · split at done
      · cases done
      · obtain ⟨inner, _, rfl⟩ := Option.map_eq_some_iff.mp done
        exact sound.replace (by simp)
    · cases done

theorem Keeps.atLast {f : String → Members → Option Members} (h : ∀ last, Keeps (f last))
    (making : Making) (keys : List String) :
    Keeps fun members =>
      match keys.reverse with
      | [] => none
      | last :: before => Members.change? making (f last) before.reverse members := by
  intro members changed sound done
  dsimp only at done
  split at done
  · cases done
  · exact (h _).change? making _ members changed sound done

theorem keeps_assign? {value : Toml} (fits : value.Fits) (keys : List String) :
    Keeps (assign? value keys) := by
  refine Keeps.atLast (fun last inner changed sound done => ?_) .dotted keys
  split at done
  · cases done
  · rename_i new
    cases done
    exact sound.snoc (Option.not_isSome_iff_eq_none.mp new) fun v same => Item.value.inj same ▸ fits

theorem keeps_openTable? (keys : List String) : Keeps (openTable? keys) := by
  refine Keeps.atLast (fun last inner changed sound done => ?_) .passed keys
  split at done
  · cases done
    exact sound.snoc ‹_› (by simp)
  · cases done
    exact sound.replace (by simp)
  · cases done

theorem keeps_openElement? (keys : List String) : Keeps (openElement? keys) := by
  refine Keeps.atLast (fun last inner changed sound done => ?_) .passed keys
  split at done
  · cases done
    exact sound.snoc ‹_› (by simp)
  · cases done
    exact sound.replace (by simp)
  · cases done

theorem sound_build? {statements : List Statement} (fits : ∀ s ∈ statements, s.Fits) {place : List String}
    {built : Members} (sound : members.Sound) (done : build? statements place members = some built) :
    built.Sound := by
  induction statements generalizing place members with
  | nil =>
    cases done
    exact sound
  | cons s statements ih =>
    rw [List.forall_mem_cons] at fits
    cases s with
    | header keys =>
      obtain ⟨opened, now, done⟩ := Option.bind_eq_some_iff.mp done
      exact ih fits.2 (keeps_openTable? keys _ _ sound now) done
    | element keys =>
      obtain ⟨opened, now, done⟩ := Option.bind_eq_some_iff.mp done
      exact ih fits.2 (keeps_openElement? keys _ _ sound now) done
    | assign keys value =>
      obtain ⟨changed, now, done⟩ := Option.bind_eq_some_iff.mp done
      exact ih fits.2 ((keeps_assign? fits.1 keys).change? .passed place _ _ sound now) done

end Members

/-! ## The table -/

theorem finishMembers_eq (members : Members) :
    finishMembers members = members.map fun m => (m.1, m.2.finish) := by
  induction members with
  | nil => rfl
  | cons m members ih => rw [finishMembers, ih, List.map_cons]

theorem Item.eq_value_of_finish {item : Item} {n : Int} (h : item.finish = .integer n) :
    item = .value (.integer n) := by
  cases item with
  | value v =>
    rw [Item.finish] at h
    rw [h]
  | table | tables => simp [Item.finish] at h

theorem sound_read? {text : String} {members : List (String × Toml)} (h : read? text = some members) :
    (members.map Prod.fst).Nodup ∧ ∀ key n, (key, .integer n) ∈ members → isInteger n = true := by
  obtain ⟨statements, found, h⟩ := Option.bind_eq_some_iff.mp h
  obtain ⟨built, done, h⟩ := Option.bind_eq_some_iff.mp h
  obtain rfl := Option.some.inj h
  have sound := Members.sound_build? (fits_of_statements? found) .nil done
  rw [finishMembers_eq]
  constructor
  · rw [List.map_map]
    exact sound.nodup
  · intro key n mem
    obtain ⟨m, there, same⟩ := List.mem_map.mp mem
    obtain ⟨rfl, finish⟩ := Prod.mk.inj same
    have value := Item.eq_value_of_finish finish
    exact sound.fits (v := .integer n) (by rw [← value]; exact there) n rfl

end DirectoryWatch.Toml
