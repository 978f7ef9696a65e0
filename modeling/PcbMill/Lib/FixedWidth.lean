import Mathlib.Tactic

/-!
# Fixed-width arithmetic on `ℕ` and `ℤ`

The unsigned operations of a 16- or 32-bit machine, on natural numbers kept below the
modulus, and on integers two's-complement wrapping and the arithmetic that is undefined where
the result does not fit.  Each operation has one lemma saying when it is the exact operation,
which is what the callers' bounds discharge.
-/

namespace PcbMill.FixedWidth

/-- Truncation to an unsigned 16-bit value. -/
def u16 (n : ℕ) : ℕ := n % 2 ^ 16

/-- Truncation to an unsigned 32-bit value. -/
def u32 (n : ℕ) : ℕ := n % 2 ^ 32

def add16 (a b : ℕ) : ℕ := (a + b) % 2 ^ 16

def sub16 (a b : ℕ) : ℕ := (a + (2 ^ 16 - b % 2 ^ 16)) % 2 ^ 16

def add32 (a b : ℕ) : ℕ := (a + b) % 2 ^ 32

def sub32 (a b : ℕ) : ℕ := (a + (2 ^ 32 - b % 2 ^ 32)) % 2 ^ 32

/-- Wrapping of an integer to a signed 32-bit value. -/
def int32 (x : ℤ) : ℤ := (x + 2 ^ 31) % 2 ^ 32 - 2 ^ 31

/-- The integer is a signed 32-bit value. -/
def Fits32 (x : ℤ) : Prop := -2 ^ 31 ≤ x ∧ x < 2 ^ 31

instance (x : ℤ) : Decidable (Fits32 x) := inferInstanceAs (Decidable (_ ∧ _))

/-- A signed 32-bit result, with none where the exact one is too large. -/
def signed32 (x : ℤ) : Option ℤ := if Fits32 x then some x else none

theorem u16_of_lt {n : ℕ} (h : n < 2 ^ 16) : u16 n = n := Nat.mod_eq_of_lt h

theorem add16_of_lt {a b : ℕ} (h : a + b < 2 ^ 16) : add16 a b = a + b := Nat.mod_eq_of_lt h

theorem sub16_of_le {a b : ℕ} (h : b ≤ a) (ha : a < 2 ^ 16) : sub16 a b = a - b := by
  simp only [sub16]
  omega

theorem add32_of_lt {a b : ℕ} (h : a + b < 2 ^ 32) : add32 a b = a + b := Nat.mod_eq_of_lt h

theorem sub32_of_le {a b : ℕ} (h : b ≤ a) (ha : a < 2 ^ 32) : sub32 a b = a - b := by
  simp only [sub32]
  omega

theorem int32_of_fits {x : ℤ} (h : Fits32 x) : int32 x = x := by
  obtain ⟨hlo, hhi⟩ := h
  rw [int32, Int.emod_eq_of_lt (by omega) (by omega)]
  omega

theorem signed32_of_fits {x : ℤ} (h : Fits32 x) : signed32 x = some x := if_pos h

theorem signed32_eq_some {x y : ℤ} : signed32 x = some y ↔ Fits32 x ∧ x = y := by
  rw [signed32]
  split_ifs with h
  · simp [h]
  · simp [h]

end PcbMill.FixedWidth
