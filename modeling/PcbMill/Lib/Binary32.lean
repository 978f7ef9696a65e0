import Mathlib.Data.EReal.Operations
import Mathlib.Tactic

/-!
# Binary32 numbers

A float is its 32 bits: a sign, eight bits of exponent and 23 of fraction.  The comparisons with
zero look at the bits; `value` is the extended real they stand for, which NaN does not have, and
which the comparisons agree with.  `nearest` is what becomes of a natural number as a float.
-/

namespace PcbMill.Binary32

variable {x : BitVec 32}

def sign (x : BitVec 32) : Bool := x.getLsbD 31

def exponent (x : BitVec 32) : ℕ := (x.extractLsb' 23 8).toNat

def fraction (x : BitVec 32) : ℕ := (x.extractLsb' 0 23).toNat

def isNaN (x : BitVec 32) : Bool := decide (exponent x = 255) && decide (fraction x ≠ 0)

def isZero (x : BitVec 32) : Bool := decide (exponent x = 0) && decide (fraction x = 0)

/-- `x <= 0.0` -/
def leZero (x : BitVec 32) : Bool := !isNaN x && (sign x || isZero x)

/-- `x > 0.0` -/
def gtZero (x : BitVec 32) : Bool := !isNaN x && !(sign x || isZero x)

/-! ### Values -/

/-- The fraction with the bit above it, which subnormal numbers lack. -/
def significand (x : BitVec 32) : ℕ := if exponent x = 0 then fraction x else 2 ^ 23 + fraction x

noncomputable def magnitude (x : BitVec 32) : EReal :=
  if exponent x = 255 then ⊤
  else ((significand x * 2 ^ ((max (exponent x) 1 : ℤ) - 150) : ℝ) : EReal)

/-- The number the bits stand for. -/
noncomputable def value (x : BitVec 32) : Option EReal :=
  if isNaN x then none else some (if sign x then -magnitude x else magnitude x)

theorem magnitude_nonneg (x : BitVec 32) : 0 ≤ magnitude x := by
  simp only [magnitude]
  split
  · exact le_top
  · rw [EReal.coe_nonneg]
    positivity

theorem isZero_iff : isZero x = true ↔ significand x = 0 := by
  simp only [isZero, significand, Bool.and_eq_true, decide_eq_true_eq]
  split <;> omega

theorem magnitude_pos (h : isZero x = false) : 0 < magnitude x := by
  have hsignificand : significand x ≠ 0 := fun heq => by
    rw [isZero_iff.mpr heq] at h
    cases h
  simp only [magnitude]
  split
  · exact EReal.zero_lt_top
  · rw [EReal.coe_pos]
    positivity

theorem magnitude_zero (h : isZero x = true) : magnitude x = 0 := by
  have hexponent : exponent x = 0 := by simp_all [isZero]
  rw [magnitude, if_neg (by omega), isZero_iff.mp h, Nat.cast_zero, zero_mul, EReal.coe_zero]

theorem leZero_iff : leZero x = true ↔ ∃ v, value x = some v ∧ v ≤ 0 := by
  simp only [leZero, value]
  cases hnan : isNaN x with
  | true => simp
  | false =>
    cases hsign : sign x with
    | true => simp [magnitude_nonneg x]
    | false =>
      cases hzero : isZero x with
      | true => simp [magnitude_zero hzero]
      | false => simp [magnitude_pos hzero]

theorem gtZero_iff : gtZero x = true ↔ ∃ v, value x = some v ∧ 0 < v := by
  simp only [gtZero, value]
  cases hnan : isNaN x with
  | true => simp
  | false =>
    cases hsign : sign x with
    | true => simp [magnitude_nonneg x]
    | false =>
      cases hzero : isZero x with
      | true => simp [magnitude_zero hzero]
      | false => simp [magnitude_pos hzero]

theorem gtZero_of_leZero (h : leZero x = true) : gtZero x = false := by
  obtain ⟨v, hv, hle⟩ := leZero_iff.mp h
  rw [← Bool.not_eq_true, gtZero_iff]
  rintro ⟨w, hw, hlt⟩
  obtain rfl : v = w := Option.some.inj (hv.symm.trans hw)
  exact absurd hle (not_le_of_gt hlt)

/-! ### Natural numbers -/

/-- The weight of the last of the 24 bits of a float as large as `n`. -/
def lastBit (n : ℕ) : ℕ := 2 ^ (n.log2 - 23)

/-- The float nearest to `n`, of two the one with an even last bit. -/
def nearest (n : ℕ) : ℕ :=
  let below := n / lastBit n
  let rest := 2 * (n % lastBit n)
  if rest < lastBit n ∨ rest = lastBit n ∧ below % 2 = 0 then below * lastBit n
  else (below + 1) * lastBit n

theorem nearest_of_dvd {n : ℕ} (h : lastBit n ∣ n) : nearest n = n := by
  have hrest : 2 * (n % lastBit n) < lastBit n := by
    rw [Nat.mod_eq_zero_of_dvd h]
    exact Nat.two_pow_pos _
  rw [nearest, if_pos (.inl hrest), Nat.div_mul_cancel h]

/-- Up to 2^24 every natural number is a float. -/
theorem nearest_of_le {n : ℕ} (h : n ≤ 2 ^ 24) : nearest n = n := by
  refine nearest_of_dvd ?_
  obtain hlt | rfl := lt_or_eq_of_le h
  · have hlog : n.log2 ≤ 23 := by
      by_cases hzero : n = 0
      · rw [hzero]
        decide
      · exact Nat.le_of_lt_succ ((Nat.log2_lt hzero).mpr hlt)
    rw [lastBit, Nat.sub_eq_zero_of_le hlog]
    exact one_dvd n
  · decide

/-- Beyond that a number may not be. -/
example : nearest (2 ^ 24 + 1) = 2 ^ 24 := by decide

end PcbMill.Binary32
