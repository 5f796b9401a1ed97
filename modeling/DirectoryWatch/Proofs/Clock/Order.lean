import DirectoryWatch.Clock

/-!
# The order of moments

Moments stand in the order of their nanoseconds. What is asked of a deadline follows from there:
the earliest of some moments is one of them, and no later than any.
-/

namespace DirectoryWatch.Moment

/-! ## Comparing -/

theorem le_iff (m n : Moment) : m ≤ n ↔ m.nanoseconds ≤ n.nanoseconds := by
  change (m.seconds.toInt < n.seconds.toInt ∨ m.seconds = n.seconds ∧ m.nanos ≤ n.nanos) ↔ _
  have hm : m.nanos.val < nanosPerSecond := m.nanos.isLt
  have hn : n.nanos.val < nanosPerSecond := n.nanos.isLt
  rw [← Int64.toInt_inj, Fin.le_def]
  unfold nanoseconds
  unfold nanosPerSecond at *
  omega

theorem le_refl (m : Moment) : m ≤ m := (le_iff m m).mpr (Int.le_refl _)

theorem le_trans {m n o : Moment} (h : m ≤ n) (k : n ≤ o) : m ≤ o := by
  rw [le_iff] at *
  omega

theorem le_of_not_le {m n : Moment} (h : ¬ m ≤ n) : n ≤ m := by
  rw [le_iff] at *
  omega

/-! ## Adding -/

theorem ofParts?_self (m : Moment) : ofParts? m.seconds.toInt m.nanos = some m := by
  unfold ofParts?
  have whole : m.nanos.val / nanosPerSecond = 0 := Nat.div_eq_of_lt m.nanos.isLt
  have rest : m.nanos.val % nanosPerSecond = m.nanos.val := Nat.mod_eq_of_lt m.nanos.isLt
  have least : Int64.minValue.toInt ≤ m.seconds.toInt := Int64.minValue_le_toInt m.seconds
  have greatest : m.seconds.toInt ≤ Int64.maxValue.toInt := Int64.toInt_le m.seconds
  simp only [whole, rest, Int.natCast_zero, Int.add_zero, Int64.ofInt_toInt]
  exact if_pos ⟨least, greatest⟩

theorem add?_zero (m : Moment) : m.add? .zero = some m := by
  unfold add?
  have seconds : m.seconds.toInt + (Duration.zero.seconds.toNat : Int) = m.seconds.toInt :=
    Int.add_zero _
  have nanos : m.nanos.val + Duration.zero.nanos.val = m.nanos.val := Nat.add_zero _
  rw [seconds, nanos]
  exact ofParts?_self m

/-! ## The earliest -/

theorem earliest?_eq_none_iff (moments : List Moment) : earliest? moments = none ↔ moments = [] := by
  cases moments <;> simp [earliest?]

theorem earliest?_spec {moments : List Moment} {m : Moment} (h : earliest? moments = some m) :
    m ∈ moments ∧ ∀ n ∈ moments, m ≤ n := by
  induction moments generalizing m with
  | nil => simp [earliest?] at h
  | cons first rest ih =>
    unfold earliest? at h
    cases hr : earliest? rest with
    | none =>
      obtain rfl := (earliest?_eq_none_iff rest).mp hr
      obtain rfl : first = m := by simpa [hr] using h
      exact ⟨List.mem_singleton_self _, by simp [le_refl]⟩
    | some other =>
      obtain ⟨there, least⟩ := ih hr
      have smaller : first.min other = m := by simpa [hr] using h
      unfold Moment.min at smaller
      split at smaller
      · rename_i before
        subst smaller
        refine ⟨List.mem_cons_self, ?_⟩
        intro n hn
        rcases List.mem_cons.mp hn with rfl | hn
        · exact le_refl _
        · exact le_trans before (least n hn)
      · rename_i after
        subst smaller
        refine ⟨List.mem_cons_of_mem _ there, ?_⟩
        intro n hn
        rcases List.mem_cons.mp hn with rfl | hn
        · exact le_of_not_le after
        · exact least n hn

end DirectoryWatch.Moment
