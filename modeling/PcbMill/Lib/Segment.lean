import Mathlib.Data.List.GetD
import Mathlib.Tactic

/-!
# Segments of an addressed store

A store is a total function from addresses to values.  `readSegment` lists the values at
consecutive addresses and `writeSegment` puts a list there, which is what a block copy does
to the source and to the destination.
-/

namespace PcbMill.Segment

variable {α : Type*}

/-- The `n` values from address `off`. -/
def readSegment (m : ℕ → α) (off n : ℕ) : List α := (List.range n).map fun i => m (off + i)

/-- The store with `data` put at consecutive addresses from `off`. -/
def writeSegment (m : ℕ → α) (off : ℕ) (data : List α) : ℕ → α :=
  fun i => if off ≤ i then data.getD (i - off) (m i) else m i

@[simp] theorem readSegment_length (m : ℕ → α) (off n : ℕ) :
    (readSegment m off n).length = n := by
  simp [readSegment]

@[simp] theorem readSegment_zero (m : ℕ → α) (off : ℕ) : readSegment m off 0 = [] := rfl

@[simp] theorem getElem_readSegment (m : ℕ → α) (off n i : ℕ)
    (h : i < (readSegment m off n).length) : (readSegment m off n)[i] = m (off + i) := by
  simp [readSegment]

theorem readSegment_append (m : ℕ → α) (off a b : ℕ) :
    readSegment m off a ++ readSegment m (off + a) b = readSegment m off (a + b) := by
  simp only [readSegment, List.range_add, List.map_append, List.map_map]
  congr 2
  funext i
  simp [Nat.add_assoc]

theorem readSegment_congr {m m' : ℕ → α} {off n : ℕ}
    (h : ∀ i, off ≤ i → i < off + n → m i = m' i) :
    readSegment m off n = readSegment m' off n := by
  apply List.map_congr_left
  intro i hi
  have := List.mem_range.mp hi
  exact h _ (by omega) (by omega)

theorem take_readSegment (m : ℕ → α) (off n k : ℕ) :
    (readSegment m off n).take k = readSegment m off (min k n) := by
  apply List.ext_getElem
  · simp
  · intro i h₁ h₂
    simp

theorem writeSegment_of_lt (m : ℕ → α) {off i : ℕ} (data : List α) (h : i < off) :
    writeSegment m off data i = m i := by
  simp [writeSegment, Nat.not_le.mpr h]

theorem writeSegment_of_ge (m : ℕ → α) {off i : ℕ} (data : List α)
    (h : off + data.length ≤ i) : writeSegment m off data i = m i := by
  rw [writeSegment, if_pos (by omega), List.getD_eq_default _ _ (by omega)]

theorem writeSegment_of_mem (m : ℕ → α) (off i : ℕ) (data : List α) (h : i < data.length) :
    writeSegment m off data (off + i) = data[i] := by
  simp [writeSegment, h]

@[simp] theorem writeSegment_nil (m : ℕ → α) (off : ℕ) : writeSegment m off [] = m := by
  funext i
  simp [writeSegment]

/-- Reading back what was written. -/
theorem readSegment_writeSegment (m : ℕ → α) (off : ℕ) (data : List α) :
    readSegment (writeSegment m off data) off data.length = data := by
  apply List.ext_getElem
  · simp
  · intro i h₁ h₂
    rw [getElem_readSegment, writeSegment_of_mem m off i data h₂]

end PcbMill.Segment
