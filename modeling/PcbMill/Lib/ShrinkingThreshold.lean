import Mathlib.Tactic

/-!
# An accumulator against a shrinking threshold

Each round adds `d` to the accumulator and fires when it reaches the threshold, which is then
taken off it.  The thresholds of `n` rounds are `n`, `n - 1`, ..., 1.  From the round whose
threshold is `d` on, an accumulator that is not negative fires in every round, so `n` rounds fire
`d` times only if no earlier round fires at all.
-/

namespace PcbMill.ShrinkingThreshold

/-- The accumulator after a round with threshold `r`. -/
def next (d r : ℕ) (e : ℤ) : ℤ := if (r : ℤ) ≤ e + d then e + d - r else e + d

/-- The accumulator after the first `k` of `n` rounds. -/
def acc (d n : ℕ) (e : ℤ) : ℕ → ℤ
  | 0 => e
  | k + 1 => next d (n - k) (acc d n e k)

/-- The round after the first `k` fires. -/
def Fires (d n : ℕ) (e : ℤ) (k : ℕ) : Prop := ((n - k : ℕ) : ℤ) ≤ acc d n e k + d

instance (d n : ℕ) (e : ℤ) (k : ℕ) : Decidable (Fires d n e k) :=
  inferInstanceAs (Decidable (_ ≤ _))

/-- How many of the first `k` rounds fire. -/
def fired (d n : ℕ) (e : ℤ) : ℕ → ℕ
  | 0 => 0
  | k + 1 => fired d n e k + if Fires d n e k then 1 else 0

/-- The accumulator as it is when the threshold comes down to `d`, if no round has fired. -/
def onArrival (d n : ℕ) (e : ℤ) : ℤ := e + (n - d : ℕ) * d

/-- `n` rounds fire `d` times. -/
structure Exact (d n : ℕ) (e : ℤ) : Prop where
  nonneg : 0 ≤ onArrival d n e
  silent : d < n → onArrival d n e ≤ d

variable {d n k j : ℕ} {e : ℤ}

theorem acc_succ_of_fires (h : Fires d n e k) :
    acc d n e (k + 1) = acc d n e k + d - (n - k : ℕ) := if_pos h

theorem acc_succ_of_not_fires (h : ¬ Fires d n e k) : acc d n e (k + 1) = acc d n e k + d :=
  if_neg h

theorem fired_succ_of_fires (h : Fires d n e k) : fired d n e (k + 1) = fired d n e k + 1 := by
  rw [fired, if_pos h]

theorem fired_succ_of_not_fires (h : ¬ Fires d n e k) : fired d n e (k + 1) = fired d n e k := by
  rw [fired, if_neg h, Nat.add_zero]

theorem acc_succ_nonneg (h : 0 ≤ acc d n e k) : 0 ≤ acc d n e (k + 1) := by
  by_cases hf : Fires d n e k
  · rw [acc_succ_of_fires hf]
    simp only [Fires] at hf
    omega
  · rw [acc_succ_of_not_fires hf]
    omega

theorem acc_nonneg_of_le (h : 0 ≤ acc d n e k) (hkj : k ≤ j) : 0 ≤ acc d n e j := by
  induction hkj with
  | refl => exact h
  | step _ ih => exact acc_succ_nonneg ih

/-- The accumulator is not negative once a round has fired. -/
theorem acc_nonneg_of_fired (h : 0 < fired d n e k) : 0 ≤ acc d n e k := by
  induction k with
  | zero => exact absurd h (Nat.lt_irrefl 0)
  | succ k ih =>
    by_cases hf : Fires d n e k
    · rw [acc_succ_of_fires hf]
      simp only [Fires] at hf
      omega
    · rw [fired_succ_of_not_fires hf] at h
      exact acc_succ_nonneg (ih h)

theorem fired_mono (hkj : k ≤ j) : fired d n e k ≤ fired d n e j := by
  induction hkj with
  | refl => exact le_rfl
  | step _ ih => exact ih.trans (Nat.le_add_right _ _)

theorem fired_le_add (k j : ℕ) : fired d n e (k + j) ≤ fired d n e k + j := by
  induction j with
  | zero => exact le_rfl
  | succ j ih =>
    rw [← Nat.add_assoc, fired]
    split_ifs <;> omega

/-- Until the first round fires the accumulator only grows. -/
theorem acc_of_fired_eq_zero (h : fired d n e k = 0) : acc d n e k = e + k * d := by
  induction k with
  | zero => simp [acc]
  | succ k ih =>
    by_cases hf : Fires d n e k
    · rw [fired_succ_of_fires hf] at h
      exact absurd h (Nat.succ_ne_zero _)
    · rw [fired_succ_of_not_fires hf] at h
      rw [acc_succ_of_not_fires hf, ih h]
      push_cast
      ring

theorem fires_of_nonneg (h : 0 ≤ acc d n e k) (hk : n - k ≤ d) : Fires d n e k := by
  simp only [Fires]
  omega

/-- Every round fires from the one with threshold `d` on. -/
theorem fired_tail (h : 0 ≤ acc d n e k) (hk : n - k ≤ d) (j : ℕ) :
    fired d n e (k + j) = fired d n e k + j := by
  induction j with
  | zero => rfl
  | succ j ih =>
    have hnonneg := acc_nonneg_of_le h (Nat.le_add_right k j)
    have hf := fires_of_nonneg hnonneg (by omega : n - (k + j) ≤ d)
    rw [← Nat.add_assoc, fired_succ_of_fires hf, ih]
    rfl

/-! ### How often the rounds fire -/

/-- No round fires before the threshold is down to `d`. -/
theorem fired_arrival_eq_zero_iff (hdn : d ≤ n) :
    fired d n e (n - d) = 0 ↔ (d < n → onArrival d n e ≤ d) := by
  constructor
  · intro hzero hlt
    have hlast : fired d n e (n - d - 1) = 0 :=
      Nat.eq_zero_of_le_zero (hzero ▸ fired_mono (Nat.sub_le _ _))
    have hnot : ¬ Fires d n e (n - d - 1) := by
      intro hf
      have hsucc := fired_succ_of_fires hf
      rw [Nat.sub_add_cancel (by omega), hzero] at hsucc
      omega
    simp only [Fires, acc_of_fired_eq_zero hlast, not_le] at hnot
    have hcast : ((n - d : ℕ) : ℤ) * d = ((n - d - 1 : ℕ) : ℤ) * d + d := by
      rw [show n - d = n - d - 1 + 1 by omega]
      push_cast
      ring
    rw [onArrival, hcast]
    omega
  · intro hsilent
    have hzero : ∀ k, k ≤ n - d → fired d n e k = 0 := by
      intro k
      induction k with
      | zero => exact fun _ => rfl
      | succ k ih =>
        intro hk
        have hprev := ih (by omega)
        have hbound := hsilent (by omega)
        have hgrow : ((k + 1 : ℕ) : ℤ) * d ≤ ((n - d : ℕ) : ℤ) * d :=
          mul_le_mul_of_nonneg_right (by exact_mod_cast hk) (Int.natCast_nonneg d)
        have hnot : ¬ Fires d n e k := by
          simp only [Fires, acc_of_fired_eq_zero hprev, not_le, onArrival] at hbound ⊢
          have hsplit : ((k + 1 : ℕ) : ℤ) * d = k * d + d := by
            push_cast
            ring
          omega
        rw [fired_succ_of_not_fires hnot, hprev]
    exact hzero _ le_rfl

/-- **The count.**  `n` rounds with the addend `d` fire `d` times exactly when the accumulator
arrives at the threshold `d` without having fired, and not below zero. -/
theorem fired_eq_iff (hd : 0 < d) (hdn : d ≤ n) : fired d n e n = d ↔ Exact d n e := by
  have hend : n - d + d = n := Nat.sub_add_cancel hdn
  have harrive : n - (n - d) = d := by omega
  by_cases hzero : fired d n e (n - d) = 0
  · have hacc : acc d n e (n - d) = onArrival d n e := acc_of_fired_eq_zero hzero
    by_cases hnonneg : 0 ≤ onArrival d n e
    · have htail := fired_tail (hacc ▸ hnonneg) harrive.le d
      rw [hend, hzero, Nat.zero_add] at htail
      exact ⟨fun _ => ⟨hnonneg, (fired_arrival_eq_zero_iff hdn).mp hzero⟩, fun _ => htail⟩
    · -- the round with threshold `d` does not fire, and too few are left after it
      have hnot : ¬ Fires d n e (n - d) := by
        simp only [Fires, hacc, harrive]
        omega
      have hfirst := fired_succ_of_not_fires hnot
      have hrest := fired_le_add (d := d) (n := n) (e := e) (n - d + 1) (d - 1)
      rw [hfirst, hzero, show n - d + 1 + (d - 1) = n by omega] at hrest
      exact ⟨fun h => by omega, fun h => absurd h.nonneg hnonneg⟩
  · -- a round has fired before, and every later one does
    have htail := fired_tail (acc_nonneg_of_fired (Nat.pos_of_ne_zero hzero)) harrive.le d
    rw [hend] at htail
    exact ⟨fun h => by omega,
      fun h => absurd ((fired_arrival_eq_zero_iff hdn).mpr h.silent) hzero⟩

/-! ### How far the accumulator gets -/

/-- The accumulator in the rounds that all fire. -/
theorem acc_tail (hdn : d ≤ n) (h : 0 ≤ acc d n e (n - d)) {j : ℕ} (hj : j ≤ d) :
    acc d n e (n - d + j) = acc d n e (n - d) + j.choose 2 := by
  induction j with
  | zero => simp
  | succ j ih =>
    have hnonneg := acc_nonneg_of_le h (Nat.le_add_right (n - d) j)
    have hf := fires_of_nonneg hnonneg (by omega : n - (n - d + j) ≤ d)
    rw [← Nat.add_assoc, acc_succ_of_fires hf, ih (by omega), Nat.choose_succ_succ' j 1,
      Nat.choose_one_right]
    push_cast
    omega

/-- **The sums.**  In `n` rounds that fire `d` times no sum exceeds `b` exactly when the last one
does not. -/
theorem sums_le_iff (hd : 0 < d) (hdn : d ≤ n) (h : Exact d n e) (b : ℤ) :
    (∀ k, k < n → acc d n e k + d ≤ b) ↔ onArrival d n e + d.choose 2 + 1 ≤ b := by
  have hzero := (fired_arrival_eq_zero_iff hdn).mpr h.silent
  have harrive : acc d n e (n - d) = onArrival d n e := acc_of_fired_eq_zero hzero
  have hnonneg : 0 ≤ acc d n e (n - d) := harrive ▸ h.nonneg
  have hchoose : d.choose 2 + 1 = (d - 1).choose 2 + d := by
    obtain ⟨m, rfl⟩ : ∃ m, d = m + 1 := ⟨d - 1, by omega⟩
    have hsucc : (m + 1).choose 2 = m + m.choose 2 := by
      rw [Nat.choose_succ_succ' m 1, Nat.choose_one_right]
    rw [hsucc, Nat.add_sub_cancel]
    omega
  constructor
  · intro hsums
    have hlast := hsums (n - d + (d - 1)) (by omega)
    rw [acc_tail hdn hnonneg (by omega), harrive] at hlast
    omega
  · intro hbound k hk
    by_cases hearly : k < n - d
    · -- the sum is at most the accumulator on arrival, which is no more than `d`
      have hprev : fired d n e k = 0 :=
        Nat.eq_zero_of_le_zero (hzero ▸ fired_mono hearly.le)
      have hgrow : ((k + 1 : ℕ) : ℤ) * d ≤ ((n - d : ℕ) : ℤ) * d :=
        mul_le_mul_of_nonneg_right (by exact_mod_cast hearly) (Int.natCast_nonneg d)
      have hsplit : ((k + 1 : ℕ) : ℤ) * d = k * d + d := by
        push_cast
        ring
      rw [acc_of_fired_eq_zero hprev]
      simp only [onArrival] at hbound
      omega
    · obtain ⟨j, rfl⟩ : ∃ j, k = n - d + j := ⟨k - (n - d), by omega⟩
      have hmono : j.choose 2 ≤ (d - 1).choose 2 := Nat.choose_le_choose 2 (by omega)
      rw [acc_tail hdn hnonneg (by omega), harrive]
      omega

/-- The accumulator never falls below where it began, or below zero. -/
theorem le_acc (k : ℕ) : min e 0 ≤ acc d n e k := by
  induction k with
  | zero => exact min_le_left e 0
  | succ k ih =>
    by_cases hf : Fires d n e k
    · rw [acc_succ_of_fires hf]
      simp only [Fires] at hf
      omega
    · rw [acc_succ_of_not_fires hf]
      omega

end PcbMill.ShrinkingThreshold
