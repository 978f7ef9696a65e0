import Mathlib.Order.Lattice
import Mathlib.Order.Monotone.Basic
import Mathlib.Tactic

/-!
# Speeds along a way of sections

A way of `n` sections is run through with a speed at the entry of each.  An entry speed has a
limit, and `reach i x` is the highest speed at one end of section `i` for the speed `x` at its
other end.  Behind the last section everything stands still, and the first entry speed is given.

A plan is made in two passes: one from the end, which raises every entry speed as far as the
braking allows, and one from the start, which lowers it to what the acceleration reaches.  The
result is the greatest plan there is.  A section is `Fixed` when nothing behind it can raise its
entry speed any more, so that both passes may begin there.
-/

namespace PcbMill.SpeedProfile

variable {α : Type*}

section Exit

variable [Zero α] {n : ℕ} {v w : ℕ → α}

/-- The speed at the far end of section `i`. -/
def exitSpeed (n : ℕ) (v : ℕ → α) (i : ℕ) : α := if i + 1 < n then v (i + 1) else 0

theorem exitSpeed_of_lt {i : ℕ} (h : i + 1 < n) : exitSpeed n v i = v (i + 1) := if_pos h

theorem exitSpeed_of_last {i : ℕ} (h : ¬ i + 1 < n) : exitSpeed n v i = 0 := if_neg h

theorem exitSpeed_congr {i : ℕ} (h : i + 1 < n → w (i + 1) = v (i + 1)) :
    exitSpeed n w i = exitSpeed n v i := by
  simp only [exitSpeed]
  split_ifs with hi
  · exact h hi
  · rfl

theorem exitSpeed_mono [Preorder α] {i : ℕ} (h : i + 1 < n → v (i + 1) ≤ w (i + 1)) :
    exitSpeed n v i ≤ exitSpeed n w i := by
  simp only [exitSpeed]
  split_ifs with hi
  · exact h hi
  · exact le_rfl

end Exit

section Fixed

variable (limit : ℕ → α) (reach : ℕ → α → α)

/-- What lies behind section `i` cannot raise its entry speed. -/
def Fixed (v : ℕ → α) : ℕ → Prop
  | 0 => True
  | i + 1 => v (i + 1) = limit (i + 1) ∨ (v (i + 1) = reach i (v i) ∧ Fixed v i)

variable {limit reach} {v w : ℕ → α} {p : ℕ}

theorem Fixed.congr {limit' : ℕ → α} {reach' : ℕ → α → α} (hlimit : ∀ i ≤ p, limit' i = limit i)
    (hreach : ∀ i ≤ p, reach' i = reach i) (h : ∀ i ≤ p, w i = v i)
    (hfixed : Fixed limit reach v p) : Fixed limit' reach' w p := by
  induction p with
  | zero => trivial
  | succ p ih =>
    rw [Fixed] at hfixed ⊢
    rw [h (p + 1) le_rfl, h p (Nat.le_succ p), hlimit (p + 1) le_rfl, hreach p (Nat.le_succ p)]
    exact hfixed.imp_right fun hreaches => ⟨hreaches.1,
      ih (fun i hi => hlimit i (hi.trans (Nat.le_succ p)))
        (fun i hi => hreach i (hi.trans (Nat.le_succ p)))
        (fun i hi => h i (hi.trans (Nat.le_succ p))) hreaches.2⟩

theorem fixed_congr (h : ∀ i ≤ p, w i = v i) (hfixed : Fixed limit reach v p) :
    Fixed limit reach w p := hfixed.congr (fun _ _ => rfl) (fun _ _ => rfl) h

end Fixed

variable [LinearOrder α] [Zero α]

/-- A section can only let the speed grow, and grow with it. -/
structure Gains (reach : ℕ → α → α) (n : ℕ) : Prop where
  mono : ∀ i < n, Monotone (reach i)
  le_reach : ∀ i < n, ∀ x, x ≤ reach i x

variable (limit : ℕ → α) (reach : ℕ → α → α) (n : ℕ)

/-- The entry speeds that can be driven.  How the first one came about does not matter here. -/
structure Feasible (v : ℕ → α) : Prop where
  limit_le : ∀ i, 0 < i → i < n → v i ≤ limit i
  brake : ∀ i, 0 < i → i < n → v i ≤ reach i (exitSpeed n v i)
  accelerate : ∀ i, i + 1 < n → v (i + 1) ≤ reach i (v i)

/-- No plan with the same first entry speed is faster anywhere. -/
structure Optimal (v : ℕ → α) : Prop where
  feasible : Feasible limit reach n v
  brake_first : 0 < n → v 0 ≤ reach 0 (exitSpeed n v 0)
  greatest : ∀ w, Feasible limit reach n w → w 0 = v 0 → ∀ i < n, w i ≤ v i

/-- The pass from the end has come to section `j`. -/
structure Braked (j : ℕ) (v : ℕ → α) : Prop where
  limit_le : ∀ i, 0 < i → i < n → v i ≤ limit i
  brake : ∀ i < n, v i ≤ reach i (exitSpeed n v i)
  tight : ∀ i, j ≤ i → i < n → v i = limit i ∨ v i = reach i (exitSpeed n v i)

/-- The pass from the start has come to section `j`, and `p` is the last section found fixed. -/
structure Passed (j p : ℕ) (v : ℕ → α) : Prop where
  limit_le : ∀ i, 0 < i → i < n → v i ≤ limit i
  brake : ∀ i < n, v i ≤ reach i (exitSpeed n v i)
  accelerate : ∀ i < j, i + 1 < n → v (i + 1) ≤ reach i (v i)
  tight : ∀ i, j < i → i < n → v i = limit i ∨ v i = reach i (exitSpeed n v i)
  here : Fixed limit reach v j ∨ v j = reach j (exitSpeed n v j)
  greatest : ∀ w, Feasible limit reach n w → w 0 = v 0 → ∀ i ≤ j, w i ≤ v i
  fixed : Fixed limit reach v p
  le : p ≤ j

variable {limit : ℕ → α} {reach : ℕ → α → α} {n j p : ℕ} {v w : ℕ → α}

/-- A fixed section bounds every plan. -/
theorem Fixed.le (hgains : Gains reach n) (hw : Feasible limit reach n w) (hfirst : w 0 = v 0)
    (hp : p < n) (hfixed : Fixed limit reach v p) : w p ≤ v p := by
  induction p with
  | zero => exact hfirst.le
  | succ p ih =>
    obtain hlimit | ⟨hreach, hrest⟩ := hfixed
    · rw [hlimit]
      exact hw.limit_le (p + 1) (Nat.succ_pos p) hp
    · rw [hreach]
      exact (hw.accelerate p hp).trans (hgains.mono p (by omega) (ih (by omega) hrest))

/-! ### The two passes -/

/-- The entry speed the pass from the end gives section `i`. -/
def brakeSpeed (limit : ℕ → α) (reach : ℕ → α → α) (v : ℕ → α) (i : ℕ) : α :=
  if v i ≠ limit i then if reach i (v (i + 1)) < limit i then reach i (v (i + 1)) else limit i
  else v i

/-- A speed that already is at its limit stays, and every other one is raised. -/
theorem Braked.step (hgains : Gains reach n) (h : Braked limit reach n (j + 1) v) (hj : j + 1 < n)
    (hj0 : 0 < j) :
    Braked limit reach n j (Function.update v j (brakeSpeed limit reach v j)) := by
  have hbrake : v j ≤ reach j (v (j + 1)) := by
    have := h.brake j (by omega)
    rwa [exitSpeed_of_lt hj] at this
  have hlimit := h.limit_le j hj0 (by omega)
  have hraised : v j ≤ brakeSpeed limit reach v j := by
    simp only [brakeSpeed]
    split_ifs
    exacts [hbrake, hlimit, le_rfl]
  have hle : brakeSpeed limit reach v j ≤ limit j := by
    simp only [brakeSpeed]
    split_ifs with _ hlt
    exacts [hlt.le, le_rfl, hlimit]
  have hreach : brakeSpeed limit reach v j ≤ reach j (v (j + 1)) := by
    simp only [brakeSpeed]
    split_ifs with _ hlt
    exacts [le_rfl, not_lt.mp hlt, hbrake]
  have htight : brakeSpeed limit reach v j = limit j ∨
      brakeSpeed limit reach v j = reach j (v (j + 1)) := by
    simp only [brakeSpeed]
    split_ifs with hne
    exacts [.inr rfl, .inl rfl, .inl (not_not.mp hne)]
  have hexit : ∀ i, j ≤ i → exitSpeed n (Function.update v j (brakeSpeed limit reach v j)) i =
      exitSpeed n v i :=
    fun i hi => exitSpeed_congr fun _ => Function.update_of_ne (by omega) _ _
  refine ⟨fun i hi hn => ?_, fun i hn => ?_, fun i hi hn => ?_⟩
  · by_cases hij : i = j
    · subst hij
      rw [Function.update_self]
      exact hle
    · rw [Function.update_of_ne hij]
      exact h.limit_le i hi hn
  · by_cases hij : i = j
    · subst hij
      rw [Function.update_self, hexit i le_rfl, exitSpeed_of_lt hj]
      exact hreach
    · rw [Function.update_of_ne hij]
      refine (h.brake i hn).trans (hgains.mono i hn (exitSpeed_mono fun _ => ?_))
      by_cases hnext : i + 1 = j
      · rw [hnext, Function.update_self]
        exact hraised
      · rw [Function.update_of_ne hnext]
  · by_cases hij : i = j
    · subst hij
      rw [Function.update_self, hexit i le_rfl, exitSpeed_of_lt hj]
      exact htight
    · rw [Function.update_of_ne hij, hexit i hi]
      exact h.tight i (by omega) hn

/-- Speeds as high as the braking allows bound every plan. -/
theorem le_of_tight (hgains : Gains reach n) (hw : Feasible limit reach n w)
    (htight : ∀ i, j < i → i < n → v i = limit i ∨ v i = reach i (exitSpeed n v i)) :
    ∀ k i, n - i = k → j < i → i < n → w i ≤ v i := by
  intro k
  induction k with
  | zero => exact fun i hk _ hn => by omega
  | succ k ih =>
    intro i hk hi hn
    obtain hlimit | hreach := htight i hi hn
    · rw [hlimit]
      exact hw.limit_le i (by omega) hn
    · rw [hreach]
      refine (hw.brake i (by omega) hn).trans (hgains.mono i hn ?_)
      exact exitSpeed_mono fun hnext => ih (i + 1) (by omega) (by omega) hnext

/-- Section `j + 1` after the pass from the start. -/
def passSpeed (reach : ℕ → α → α) (v : ℕ → α) (j : ℕ) : α :=
  if v j < v (j + 1) ∧ reach j (v j) < v (j + 1) then reach j (v j) else v (j + 1)

omit [Zero α] in
theorem passSpeed_eq_min (hgains : Gains reach n) (hj : j < n) :
    passSpeed reach v j = min (v (j + 1)) (reach j (v j)) := by
  have hle := hgains.le_reach j hj (v j)
  simp only [passSpeed]
  split_ifs with h
  · exact (min_eq_right h.2.le).symm
  · refine (min_eq_left (not_lt.mp fun hlt => h ⟨?_, hlt⟩)).symm
    exact hle.trans_lt hlt

/-- The pass goes on by one section, which it finds fixed if the speed there is at its limit or
reached with full acceleration. -/
theorem Passed.step (hgains : Gains reach n) (h : Passed limit reach n j p v) (hj : j + 1 < n)
    {q : ℕ} (hq : q = p ∨ q = j + 1 ∧
      (passSpeed reach v j = limit (j + 1) ∨ reach j (v j) < v (j + 1))) :
    Passed limit reach n (j + 1) q (Function.update v (j + 1) (passSpeed reach v j)) := by
  have hmin := passSpeed_eq_min (v := v) hgains (show j < n by omega)
  have hle : passSpeed reach v j ≤ v (j + 1) := hmin.trans_le (min_le_left _ _)
  have hreach : passSpeed reach v j ≤ reach j (v j) := hmin.trans_le (min_le_right _ _)
  have hbrake : v j ≤ reach j (v (j + 1)) := by
    have := h.brake j (by omega)
    rwa [exitSpeed_of_lt hj] at this
  have hold : ∀ i ≤ j, Function.update v (j + 1) (passSpeed reach v j) i = v i :=
    fun i hi => Function.update_of_ne (by omega) _ _
  have hexit : ∀ i, i ≠ j → exitSpeed n (Function.update v (j + 1) (passSpeed reach v j)) i =
      exitSpeed n v i :=
    fun i hi => exitSpeed_congr fun _ => Function.update_of_ne (by omega) _ _
  -- With full acceleration through section `j`, that section is fixed: braking does not bind it.
  have hfull : reach j (v j) < v (j + 1) → Fixed limit reach v j := by
    intro hlt
    refine h.here.resolve_right fun heq => ?_
    rw [exitSpeed_of_lt hj] at heq
    have hup := hgains.le_reach j (by omega) (v (j + 1))
    rw [← heq] at hup
    exact absurd (hup.trans (hgains.le_reach j (by omega) (v j))) (not_le.mpr hlt)
  have hfull' : reach j (v j) < v (j + 1) →
      Fixed limit reach (Function.update v (j + 1) (passSpeed reach v j)) (j + 1) := by
    intro hlt
    refine .inr ⟨?_, fixed_congr hold (hfull hlt)⟩
    rw [Function.update_self, hold j le_rfl, hmin, min_eq_right hlt.le]
  have hnext : exitSpeed n (Function.update v (j + 1) (passSpeed reach v j)) (j + 1) =
      exitSpeed n v (j + 1) := hexit (j + 1) (by omega)
  refine ⟨fun i hi hn => ?_, fun i hn => ?_, fun i hi hn => ?_, fun i hi hn => ?_, ?_,
    fun w hw hfirst i hi => ?_, ?_, ?_⟩
  · by_cases hij : i = j + 1
    · subst hij
      rw [Function.update_self]
      exact hle.trans (h.limit_le _ hi hn)
    · rw [Function.update_of_ne hij]
      exact h.limit_le i hi hn
  · by_cases hij : i = j + 1
    · subst hij
      rw [Function.update_self, hnext]
      exact hle.trans (h.brake _ hn)
    · rw [Function.update_of_ne hij]
      by_cases hji : i = j
      · subst hji
        rw [exitSpeed_of_lt hj, Function.update_self, hmin]
        rcases min_choice (v (i + 1)) (reach i (v i)) with heq | heq
        · rw [heq]
          exact hbrake
        · rw [heq]
          exact (hgains.le_reach i hn _).trans (hgains.le_reach i hn _)
      · rw [hexit i hji]
        exact h.brake i hn
  · rw [hold i (by omega)]
    by_cases hij : i = j
    · subst hij
      rw [Function.update_self]
      exact hreach
    · rw [hold (i + 1) (by omega)]
      exact h.accelerate i (by omega) hn
  · rw [Function.update_of_ne (by omega), hexit i (by omega)]
    exact h.tight i (by omega) hn
  · rw [Function.update_self, hnext]
    by_cases hlt : reach j (v j) < v (j + 1)
    · exact .inl (hfull' hlt)
    · have heq : passSpeed reach v j = v (j + 1) := by rw [hmin, min_eq_left (not_lt.mp hlt)]
      rw [heq]
      obtain hlimit | htight := h.tight (j + 1) (by omega) hj
      · exact .inl (.inl (by rw [Function.update_self, hlimit]))
      · exact .inr htight
  · rw [hold 0 (by omega)] at hfirst
    by_cases hij : i = j + 1
    · subst hij
      rw [Function.update_self, hmin]
      refine le_min (le_of_tight hgains hw h.tight _ _ rfl (by omega) hj) ?_
      exact (hw.accelerate j hj).trans
        (hgains.mono j (by omega) (h.greatest w hw hfirst j le_rfl))
    · rw [Function.update_of_ne hij]
      exact h.greatest w hw hfirst i (by omega)
  · obtain rfl | ⟨rfl, hlimit | hlt⟩ := hq
    · exact fixed_congr (fun i hi => hold i (hi.trans h.le)) h.fixed
    · exact .inl (by rw [Function.update_self, hlimit])
    · exact hfull' hlt
  · have := h.le
    omega

/-- At the last section the plan is made. -/
theorem Passed.optimal (h : Passed limit reach n j p v) (hj : j + 1 = n) :
    Optimal limit reach n v where
  feasible :=
    ⟨h.limit_le, fun i _ hn => h.brake i hn, fun i hi => h.accelerate i (by omega) hi⟩
  brake_first := fun hn => h.brake 0 hn
  greatest := fun w hw hfirst i hi => h.greatest w hw hfirst i (by omega)

/-! ### From one plan to the next -/

/-- Where braking is done down to a fixed section, up to which the old plan is the greatest, the
pass from the start may begin. -/
theorem Braked.passed (h : Braked limit reach n (p + 1) v)
    (haccelerate : ∀ i < p, i + 1 < n → v (i + 1) ≤ reach i (v i))
    (hgreatest : ∀ w, Feasible limit reach n w → w 0 = v 0 → ∀ i ≤ p, w i ≤ v i)
    (hfixed : Fixed limit reach v p) : Passed limit reach n p p v where
  limit_le := h.limit_le
  brake := h.brake
  accelerate := haccelerate
  tight := fun i hi hn => h.tight i hi hn
  here := .inl hfixed
  greatest := hgreatest
  fixed := hfixed
  le := le_rfl

/-- The pass from the end begins with the last section, from which one can stop. -/
theorem braked_last (hlimit : ∀ i, 0 < i → i < n → v i ≤ limit i)
    (hbrake : ∀ i < n, v i ≤ reach i (v (i + 1))) (hlast : v n = min (limit n) (reach n 0)) :
    Braked limit reach (n + 1) n v where
  limit_le := by
    intro i hi hin
    by_cases hij : i = n
    · rw [hij, hlast]
      exact min_le_left _ _
    · exact hlimit i hi (by omega)
  brake := by
    intro i hi
    by_cases hij : i = n
    · rw [hij, exitSpeed_of_last (by omega), hlast]
      exact min_le_right _ _
    · rw [exitSpeed_of_lt (by omega)]
      exact hbrake i (by omega)
  tight := by
    intro i hi hin
    obtain rfl : i = n := by omega
    rw [exitSpeed_of_last (by omega), hlast]
    exact min_choice _ _

theorem Optimal.brake (h : Optimal limit reach n v) {i : ℕ} (hi : i < n) :
    v i ≤ reach i (exitSpeed n v i) := by
  rcases Nat.eq_zero_or_pos i with rfl | hpos
  · exact h.brake_first hi
  · exact h.feasible.brake i hpos hi

/-- A section put behind the others, with the speed from which one can stop in it. -/
theorem Optimal.braked (hgains : Gains reach (n + 1)) (h : Optimal limit reach n v)
    (hsame : ∀ i < n, w i = v i) (hlast : w n = min (limit n) (reach n 0)) (h0 : 0 ≤ w n) :
    Braked limit reach (n + 1) n w := by
  refine braked_last (fun i hi hin => ?_) (fun i hi => ?_) hlast
  · rw [hsame i hin]
    exact h.feasible.limit_le i hi hin
  · rw [hsame i hi]
    refine (h.brake hi).trans (hgains.mono i (by omega) ?_)
    by_cases hnext : i + 1 < n
    · rw [exitSpeed_of_lt hnext, hsame _ hnext]
    · rw [exitSpeed_of_last hnext, show i + 1 = n by omega]
      exact h0

/-- **A fixed section keeps the plan up to it** when a section comes behind the others. -/
theorem Optimal.keeps (hgains : Gains reach (n + 1)) (h : Optimal limit reach n v) (hp : p < n)
    (hfixed : Fixed limit reach v p) (hw : Feasible limit reach (n + 1) w) (hfirst : w 0 = v 0)
    {i : ℕ} (hi : i ≤ p) : w i ≤ v i := by
  have hp_le : w p ≤ v p := hfixed.le hgains hw hfirst (by omega)
  -- The faster of the two up to the fixed section, and the old plan behind it, is an old plan.
  have hmix : Feasible limit reach n fun k => if k ≤ p then max (w k) (v k) else v k := by
    refine ⟨fun k hk hn => ?_, fun k hk hn => ?_, fun k hn => ?_⟩
    · split_ifs
      · exact max_le (hw.limit_le k hk (by omega)) (h.feasible.limit_le k hk hn)
      · exact h.feasible.limit_le k hk hn
    · have hv := (h.feasible.brake k hk hn).trans (hgains.mono k (by omega) (exitSpeed_mono
        (w := fun k => if k ≤ p then max (w k) (v k) else v k) fun _ => by
          split_ifs
          · exact le_max_right _ _
          · exact le_rfl))
      split_ifs with hkp
      · refine max_le ?_ hv
        by_cases hlast : k = p
        · rw [hlast] at hv ⊢
          exact hp_le.trans hv
        · have hbrake := hw.brake k hk (by omega)
          rw [exitSpeed_of_lt (by omega)] at hbrake
          rw [exitSpeed_of_lt (by omega), if_pos (by omega)]
          exact hbrake.trans (hgains.mono k (by omega) (le_max_left _ _))
      · exact hv
    · have hv := h.feasible.accelerate k hn
      split_ifs with hnext hk hk
      · exact max_le ((hw.accelerate k (by omega)).trans
          (hgains.mono k (by omega) (le_max_left _ _)))
          (hv.trans (hgains.mono k (by omega) (le_max_right _ _)))
      · omega
      · exact hv.trans (hgains.mono k (by omega) (le_max_right _ _))
      · exact hv
  have hgreatest := h.greatest _ hmix (by simp [hfirst]) i (by omega)
  rw [if_pos hi] at hgreatest
  exact (le_max_left _ _).trans hgreatest

/-- A plan looks only at its own sections. -/
theorem Feasible.congr {limit' : ℕ → α} {reach' : ℕ → α → α} (hlimit : ∀ i < n, limit' i = limit i)
    (hreach : ∀ i < n, reach' i = reach i) (hv : ∀ i < n, w i = v i)
    (h : Feasible limit reach n v) : Feasible limit' reach' n w where
  limit_le := by
    intro i hi hn
    rw [hv i hn, hlimit i hn]
    exact h.limit_le i hi hn
  brake := by
    intro i hi hn
    rw [hv i hn, hreach i hn, exitSpeed_congr fun hnext => hv (i + 1) hnext]
    exact h.brake i hi hn
  accelerate := by
    intro i hi
    rw [hv _ hi, hv i (by omega), hreach i (by omega)]
    exact h.accelerate i hi

theorem Optimal.congr {limit' : ℕ → α} {reach' : ℕ → α → α} (hlimit : ∀ i < n, limit' i = limit i)
    (hreach : ∀ i < n, reach' i = reach i) (hv : ∀ i < n, w i = v i)
    (h : Optimal limit reach n v) : Optimal limit' reach' n w where
  feasible := h.feasible.congr hlimit hreach hv
  brake_first := by
    intro hn
    rw [hv 0 hn, hreach 0 hn, exitSpeed_congr fun hnext => hv 1 hnext]
    exact h.brake_first hn
  greatest := by
    intro u hu hfirst i hi
    rw [hv i hi]
    refine h.greatest u (hu.congr (fun i hi => (hlimit i hi).symm) (fun i hi => (hreach i hi).symm)
      fun _ _ => rfl) ?_ i hi
    rw [hfirst, hv 0 (by omega)]

theorem optimal_one (hbrake : v 0 ≤ reach 0 0) : Optimal limit reach 1 v where
  feasible := ⟨fun _ hi hn => by omega, fun _ hi hn => by omega, fun _ hi => by omega⟩
  brake_first := fun _ => hbrake
  greatest := fun w _ hfirst i hi => by
    obtain rfl : i = 0 := by omega
    exact hfirst.le

/-- Two greatest plans with the same first entry speed are the same. -/
theorem Optimal.unique (h : Optimal limit reach n v) (h' : Optimal limit reach n w)
    (hfirst : w 0 = v 0) {i : ℕ} (hi : i < n) : w i = v i :=
  le_antisymm (h.greatest w h'.feasible hfirst i hi) (h'.greatest v h.feasible hfirst.symm i hi)

/-- With limits that are not negative, neither are the speeds. -/
theorem Optimal.nonneg (hgains : Gains reach n) (h : Optimal limit reach n v)
    (hlimit : ∀ i < n, 0 ≤ limit i) (hfirst : 0 ≤ v 0) {i : ℕ} (hi : i < n) : 0 ≤ v i := by
  have hmax : Feasible limit reach n fun k => max 0 (v k) := by
    refine ⟨fun k hk hn => max_le (hlimit k hn) (h.feasible.limit_le k hk hn),
      fun k hk hn => max_le ?_ ?_, fun k hn => max_le ?_ ?_⟩
    · refine le_trans ?_ (hgains.le_reach k hn _)
      simp only [exitSpeed]
      split_ifs
      · exact le_max_left _ _
      · exact le_rfl
    · exact (h.feasible.brake k hk hn).trans
        (hgains.mono k hn (exitSpeed_mono fun _ => le_max_right _ _))
    · exact (le_max_left _ _).trans (hgains.le_reach k (by omega) _)
    · exact (h.feasible.accelerate k hn).trans
        (hgains.mono k (by omega) (le_max_right _ _))
  exact (le_max_left _ _).trans (h.greatest _ hmax (max_eq_right hfirst) i hi)

/-! ### The first section -/

omit [LinearOrder α] [Zero α] in
theorem Fixed.tail (h : Fixed limit reach v (p + 1)) :
    Fixed (fun i => limit (i + 1)) (fun i => reach (i + 1)) (fun i => v (i + 1)) p := by
  induction p with
  | zero => trivial
  | succ p ih => exact h.imp_right fun hreach => ⟨hreach.1, ih hreach.2⟩

omit [LinearOrder α] in
theorem exitSpeed_tail (i : ℕ) :
    exitSpeed n (fun k => v (k + 1)) i = exitSpeed (n + 1) v (i + 1) := by
  simp only [exitSpeed, Nat.add_lt_add_iff_right]

/-- **Without its first section** the greatest plan is the greatest plan of the others. -/
theorem Optimal.tail (hgains : Gains reach (n + 1)) (h : Optimal limit reach (n + 1) v) :
    Optimal (fun i => limit (i + 1)) (fun i => reach (i + 1)) n fun i => v (i + 1) where
  feasible := by
    refine ⟨fun i _ hn => h.feasible.limit_le (i + 1) (by omega) (by omega), fun i _ hn => ?_,
      fun i hn => h.feasible.accelerate (i + 1) (by omega)⟩
    rw [exitSpeed_tail]
    exact h.feasible.brake (i + 1) (by omega) (by omega)
  brake_first := by
    intro hn
    rw [exitSpeed_tail]
    exact h.feasible.brake 1 Nat.one_pos (by omega)
  greatest := by
    intro w hw hfirst i hi
    -- With the first section in front, the faster of the two is a plan of all sections.
    have hmix : Feasible limit reach (n + 1) fun k => if k = 0 then v 0 else max (w (k - 1)) (v k) := by
      refine ⟨fun k hk hn => ?_, fun k hk hn => ?_, fun k hn => ?_⟩
      · rw [if_neg (by omega)]
        refine max_le ?_ (h.feasible.limit_le k hk hn)
        rcases Nat.lt_or_ge 1 k with hlt | hge
        · have hlimit := hw.limit_le (k - 1) (by omega) (by omega)
          rwa [Nat.sub_add_cancel hk] at hlimit
        · obtain rfl : k = 1 := by omega
          exact hfirst.le.trans (h.feasible.limit_le 1 Nat.one_pos hn)
      · have hv := (h.feasible.brake k hk hn).trans (hgains.mono k hn (exitSpeed_mono
          (w := fun k => if k = 0 then v 0 else max (w (k - 1)) (v k)) fun _ => by
            rw [if_neg (by omega)]
            exact le_max_right _ _))
        rw [if_neg (by omega)]
        refine max_le ?_ hv
        rcases Nat.lt_or_ge 1 k with hlt | hge
        · have hbrake := hw.brake (k - 1) (by omega) (by omega)
          simp only [Nat.sub_add_cancel hk] at hbrake
          refine hbrake.trans (hgains.mono k hn ?_)
          simp only [exitSpeed]
          by_cases hnext : k + 1 < n + 1
          · rw [if_pos (by omega), if_pos hnext, if_neg (by omega), Nat.sub_add_cancel hk,
              Nat.add_sub_cancel]
            exact le_max_left _ _
          · rw [if_neg (by omega), if_neg hnext]
        · obtain rfl : k = 1 := by omega
          exact hfirst.le.trans hv
      · rw [if_neg (by omega), Nat.add_sub_cancel]
        split_ifs with hk
        · subst hk
          exact max_le (hfirst.le.trans (h.feasible.accelerate 0 hn)) (h.feasible.accelerate 0 hn)
        · refine max_le ?_ ((h.feasible.accelerate k hn).trans
            (hgains.mono k (by omega) (le_max_right _ _)))
          have haccelerate := hw.accelerate (k - 1) (by omega)
          simp only [Nat.sub_add_cancel (show 1 ≤ k by omega)] at haccelerate
          exact haccelerate.trans (hgains.mono k (by omega) (le_max_left _ _))
    have hle := h.greatest _ hmix rfl (i + 1) (by omega)
    rw [if_neg (by omega), Nat.add_sub_cancel] at hle
    exact (le_max_left _ _).trans hle

/-- How far one has come in the first section: at a speed from which one can still slow down to
its exit speed, can still reach it, and which full acceleration would have allowed. -/
structure OnWay (reach : ℕ → α → α) (n : ℕ) (v : ℕ → α) (rest : α → α) (x : α) : Prop where
  brake : x ≤ rest (exitSpeed n v 0)
  accelerate : exitSpeed n v 0 ≤ rest x
  full : rest x ≤ reach 0 (v 0)

instance (n : ℕ) (v : ℕ → α) (rest : α → α) (x : α) : Decidable (OnWay reach n v rest x) :=
  decidable_of_iff (x ≤ rest (exitSpeed n v 0) ∧ exitSpeed n v 0 ≤ rest x ∧ rest x ≤ reach 0 (v 0))
    ⟨fun ⟨hbrake, haccelerate, hfull⟩ => ⟨hbrake, haccelerate, hfull⟩,
      fun h => ⟨h.brake, h.accelerate, h.full⟩⟩

theorem Fixed.advance {rest : α → α} {x : α} (hway : OnWay reach n v rest x) (hp : p < n)
    (h : Fixed limit reach v p) :
    Fixed limit (Function.update reach 0 rest) (Function.update v 0 x) p := by
  induction p with
  | zero => trivial
  | succ p ih =>
    rw [Fixed, Function.update_of_ne (Nat.succ_ne_zero p)]
    refine h.imp_right fun ⟨hreach, hrest⟩ => ⟨?_, ih (by omega) hrest⟩
    rcases Nat.eq_zero_or_pos p with rfl | hpos
    · have hexit := exitSpeed_of_lt (v := v) hp
      rw [Function.update_self, Function.update_self]
      exact le_antisymm (hexit ▸ hway.accelerate) (hreach ▸ hway.full)
    · rw [Function.update_of_ne (by omega), Function.update_of_ne (by omega)]
      exact hreach

/-- **On the way through the first section** the plan stays the greatest one. -/
theorem Optimal.advance {rest : α → α} {x : α} (h : Optimal limit reach n v)
    (hway : OnWay reach n v rest x) :
    Optimal limit (Function.update reach 0 rest) n (Function.update v 0 x) where
  feasible := by
    refine ⟨fun i hi hn => ?_, fun i hi hn => ?_, fun i hn => ?_⟩
    · rw [Function.update_of_ne (by omega)]
      exact h.feasible.limit_le i hi hn
    · rw [Function.update_of_ne (by omega), Function.update_of_ne (by omega),
        exitSpeed_congr fun _ => Function.update_of_ne (by omega) _ _]
      exact h.feasible.brake i hi hn
    · rw [Function.update_of_ne (by omega)]
      rcases Nat.eq_zero_or_pos i with rfl | hpos
      · rw [Function.update_self, Function.update_self, ← exitSpeed_of_lt (v := v) hn]
        exact hway.accelerate
      · rw [Function.update_of_ne (by omega), Function.update_of_ne (by omega)]
        exact h.feasible.accelerate i hn
  brake_first := by
    intro hn
    rw [Function.update_self, Function.update_self,
      exitSpeed_congr fun _ => Function.update_of_ne (by omega) _ _]
    exact hway.brake
  greatest := by
    intro w hw hfirst i hi
    rw [Function.update_self] at hfirst
    rcases Nat.eq_zero_or_pos i with rfl | hpos
    · rw [Function.update_self]
      exact hfirst.le
    rw [Function.update_of_ne (by omega)]
    -- The rest of the section allows no more than the whole of it did.
    have hold : Feasible limit reach n (Function.update w 0 (v 0)) := by
      refine ⟨fun k hk hn => ?_, fun k hk hn => ?_, fun k hn => ?_⟩
      · rw [Function.update_of_ne (by omega)]
        exact hw.limit_le k hk hn
      · have hbrake := hw.brake k hk hn
        rw [Function.update_of_ne (by omega)] at hbrake
        rw [Function.update_of_ne (by omega),
          exitSpeed_congr fun _ => Function.update_of_ne (by omega) _ _]
        exact hbrake
      · have haccelerate := hw.accelerate k hn
        rw [Function.update_of_ne (by omega)]
        rcases Nat.eq_zero_or_pos k with rfl | hk
        · rw [Function.update_self, hfirst] at haccelerate
          rw [Function.update_self]
          exact haccelerate.trans hway.full
        · rw [Function.update_of_ne (by omega)] at haccelerate
          rw [Function.update_of_ne (by omega)]
          exact haccelerate
    have hle := h.greatest _ hold (Function.update_self ..) i hi
    rwa [Function.update_of_ne (by omega)] at hle

end PcbMill.SpeedProfile
