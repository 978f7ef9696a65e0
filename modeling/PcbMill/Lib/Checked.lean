import PcbMill.Lib.FixedWidth
import PcbMill.Lib.Run

/-!
# Machine operations with their side conditions checked

The operations of a 32-bit machine that stop where the exact result is no 32-bit value, and block
copies that stop where they would leave an array.  Where a check passes the operation is the
unchecked one, and a run whose checks all pass is the unchecked run.
-/

namespace PcbMill.Checked

open FixedWidth Run

def checkedAdd32 (a b : ℕ) : Option ℕ := if a + b < 2 ^ 32 then some (a + b) else none

def checkedSub32 (a b : ℕ) : Option ℕ := if b ≤ a then some (a - b) else none

/-- The remainder, with none of a division by zero. -/
def checkedMod (a b : ℕ) : Option ℕ := if 0 < b then some (a % b) else none

/-- The `n` places from `off` on lie in an array of `bound` places. -/
def checkedSegment (off n bound : ℕ) : Option Unit := if off + n ≤ bound then some () else none

theorem checkedAdd32_of_lt {a b : ℕ} (h : a + b < 2 ^ 32) : checkedAdd32 a b = some (add32 a b) := by
  rw [checkedAdd32, if_pos h, add32_of_lt h]

theorem checkedSub32_of_le {a b : ℕ} (h : b ≤ a) (ha : a < 2 ^ 32) :
    checkedSub32 a b = some (sub32 a b) := by
  rw [checkedSub32, if_pos h, sub32_of_le h ha]

theorem checkedMod_of_pos {a b : ℕ} (h : 0 < b) : checkedMod a b = some (a % b) := if_pos h

theorem checkedSegment_of_le {off n bound : ℕ} (h : off + n ≤ bound) :
    checkedSegment off n bound = some () := if_pos h

/-- **The checked-run rule.**  Where an invariant lets every check pass, the checked run is the
unchecked one. -/
theorem foldlM_eq_runFrom {σ ε : Type*} {checked : σ → ε → Option σ} {step : σ → ε → σ}
    {I : σ → Prop} (hchecked : ∀ s e, I s → checked s e = some (step s e))
    (hstep : ∀ s e, I s → I (step s e)) {es : List ε} :
    ∀ {s : σ}, I s → es.foldlM checked s = some (runFrom step s es) := by
  induction es with
  | nil => exact fun _ => rfl
  | cons e es ih =>
    intro s h
    rw [List.foldlM_cons, hchecked s e h]
    exact ih (hstep s e h)

end PcbMill.Checked
