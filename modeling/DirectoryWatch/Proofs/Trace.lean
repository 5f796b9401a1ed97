/-!
# Traces

A machine takes one act after the other. What is noted along its acts, and what has to hold of each
act in the state in which it is taken.
-/

namespace DirectoryWatch

variable {State Act Note : Type}

/-- What is noted along some acts, each note just before the act that it is about. -/
def noted (next : State → Act → State) (note : State → Act → List Note) (s : State) :
    List Act → List Note
  | [] => []
  | a :: rest => note s a ++ noted next note (next s a) rest

/-- Each act is taken in a state that allows it. -/
def Throughout (next : State → Act → State) (allows : State → Act → Prop) (s : State) :
    List Act → Prop
  | [] => True
  | a :: rest => allows s a ∧ Throughout next allows (next s a) rest

section

variable {next : State → Act → State} {note : State → Act → List Note} {allows : State → Act → Prop}
  {s : State}

theorem noted_append (acts more : List Act) :
    noted next note s (acts ++ more) =
      noted next note s acts ++ noted next note (acts.foldl next s) more := by
  induction acts generalizing s with
  | nil => rfl
  | cons a rest ih =>
    rw [List.cons_append, noted, ih, noted, List.append_assoc]
    rfl

theorem noted_snoc (acts : List Act) (a : Act) :
    noted next note s (acts ++ [a]) = noted next note s acts ++ note (acts.foldl next s) a := by
  rw [noted_append, noted, noted, List.append_nil]

theorem mem_noted {acts : List Act} {n : Note} :
    n ∈ noted next note s acts ↔
      ∃ before a after, acts = before ++ a :: after ∧ n ∈ note (before.foldl next s) a := by
  induction acts generalizing s with
  | nil => simp [noted]
  | cons first rest ih =>
    rw [noted, List.mem_append, ih]
    constructor
    · rintro (here | ⟨before, a, after, rfl, later⟩)
      · exact ⟨[], first, rest, rfl, here⟩
      · exact ⟨first :: before, a, after, rfl, later⟩
    · rintro ⟨before, a, after, cut, found⟩
      cases before with
      | nil =>
        cases cut
        exact .inl found
      | cons _ before =>
        cases cut
        exact .inr ⟨before, a, after, rfl, found⟩

theorem noted_flatMap {Part : Type} (f : Note → List Part) (acts : List Act) :
    (noted next note s acts).flatMap f = noted next (fun s a => (note s a).flatMap f) s acts := by
  induction acts generalizing s with
  | nil => rfl
  | cons a rest ih => rw [noted, List.flatMap_append, ih, noted]

theorem throughout_append (acts more : List Act) :
    Throughout next allows s (acts ++ more) ↔
      Throughout next allows s acts ∧ Throughout next allows (acts.foldl next s) more := by
  induction acts generalizing s with
  | nil => simp [Throughout]
  | cons a rest ih =>
    rw [List.cons_append, Throughout, ih, Throughout, and_assoc]
    rfl

end

end DirectoryWatch
