import Mathlib.Tactic

/-!
# Bytes in a memory of 32-bit words

A word holds four bytes, the lowest address in the lowest bits.  `loadBytes` reads bytes at
consecutive addresses; `storeBytes` puts bytes from a word boundary on and, as a device that
is only written in whole words, fills up the last word with zeros.
-/

namespace PcbMill.WordMemory

/-- Byte `i` of a word. -/
def byteOf (w : BitVec 32) (i : ℕ) : BitVec 8 := w.extractLsb' (8 * i) 8

/-- The byte at a byte address. -/
def byteAt (m : ℕ → BitVec 32) (a : ℕ) : BitVec 8 := byteOf (m (a / 4)) (a % 4)

def loadBytes (m : ℕ → BitVec 32) (a n : ℕ) : List (BitVec 8) :=
  (List.range n).map fun i => byteAt m (a + i)

/-- The word of the first four bytes of a list, missing ones read as zero. -/
def packWord (bs : List (BitVec 8)) : BitVec 32 :=
  (bs.getD 0 0#8).setWidth 32 ||| (bs.getD 1 0#8).setWidth 32 <<< 8 |||
    (bs.getD 2 0#8).setWidth 32 <<< 16 ||| (bs.getD 3 0#8).setWidth 32 <<< 24

/-- The memory with `bs` stored from the word that holds address `a`. -/
def storeBytes (m : ℕ → BitVec 32) (a : ℕ) (bs : List (BitVec 8)) : ℕ → BitVec 32 :=
  fun w => if a / 4 ≤ w ∧ 4 * (w - a / 4) < bs.length then packWord (bs.drop (4 * (w - a / 4)))
    else m w

theorem byteOf_packWord (bs : List (BitVec 8)) {i : ℕ} (h : i < 4) :
    byteOf (packWord bs) i = bs.getD i 0#8 := by
  generalize hb : bs.getD i 0#8 = b
  apply BitVec.eq_of_getLsbD_eq
  intro j hj
  have key : ∀ v : BitVec 8, ∀ k, 8 ≤ k → v.getLsbD k = false := fun v k hk =>
    BitVec.getLsbD_of_ge v k hk
  simp only [byteOf, packWord, BitVec.getLsbD_extractLsb', hj, decide_true, Bool.true_and,
    BitVec.getLsbD_or, BitVec.getLsbD_shiftLeft, BitVec.getLsbD_setWidth]
  have hj32 : j < 32 := by omega
  rcases (by omega : i = 0 ∨ i = 1 ∨ i = 2 ∨ i = 3) with rfl | rfl | rfl | rfl
  · simp [hj32, hj, show j < 16 by omega, show j < 24 by omega, ← hb]
  · simp [hj32, show 8 + j < 32 by omega, show 8 + j < 16 by omega, show 8 + j < 24 by omega,
      ← hb]
  · simp [hj32, show 16 + j < 32 by omega, show ¬16 + j < 16 by omega,
      show 16 + j < 24 by omega, key _ (16 + j) (by omega), key _ (16 + j - 8) (by omega), ← hb]
  · simp [hj32, show 24 + j < 32 by omega, show ¬24 + j < 16 by omega,
      show ¬24 + j < 24 by omega, key _ (24 + j) (by omega), key _ (24 + j - 8) (by omega),
      key _ (24 + j - 16) (by omega), ← hb]

@[simp] theorem loadBytes_length (m : ℕ → BitVec 32) (a n : ℕ) :
    (loadBytes m a n).length = n := by
  simp [loadBytes]

@[simp] theorem loadBytes_zero (m : ℕ → BitVec 32) (a : ℕ) : loadBytes m a 0 = [] := rfl

theorem loadBytes_add (m : ℕ → BitVec 32) (a n k : ℕ) :
    loadBytes m a (n + k) = loadBytes m a n ++ loadBytes m (a + n) k := by
  simp only [loadBytes, List.range_add, List.map_append, List.map_map]
  congr 2
  funext i
  simp [Nat.add_assoc]

/-- Only the words a segment lies in matter to it. -/
theorem loadBytes_congr {m m' : ℕ → BitVec 32} {a n : ℕ}
    (h : ∀ w, a / 4 ≤ w → 4 * w < a + n → m w = m' w) : loadBytes m a n = loadBytes m' a n := by
  apply List.map_congr_left
  intro i hi
  have hi := List.mem_range.mp hi
  simp only [byteAt]
  rw [h ((a + i) / 4) (by omega) (by omega)]

theorem storeBytes_of_lt (m : ℕ → BitVec 32) {a w : ℕ} (bs : List (BitVec 8)) (h : w < a / 4) :
    storeBytes m a bs w = m w := by
  rw [storeBytes, if_neg (by omega)]

theorem storeBytes_of_ge (m : ℕ → BitVec 32) {a w : ℕ} (bs : List (BitVec 8))
    (h : a / 4 + (bs.length + 3) / 4 ≤ w) : storeBytes m a bs w = m w := by
  rw [storeBytes, if_neg (by omega)]

@[simp] theorem storeBytes_nil (m : ℕ → BitVec 32) (a : ℕ) : storeBytes m a [] = m := by
  funext w
  simp [storeBytes]

/-- Loading back what was stored at a word boundary. -/
theorem loadBytes_storeBytes (m : ℕ → BitVec 32) {a : ℕ} (ha : a % 4 = 0)
    (bs : List (BitVec 8)) : loadBytes (storeBytes m a bs) a bs.length = bs := by
  apply List.ext_getElem
  · simp
  · intro i h₁ h₂
    simp only [loadBytes, List.getElem_map, List.getElem_range, byteAt]
    rw [show (a + i) % 4 = i % 4 by omega, storeBytes, if_pos (by omega),
      byteOf_packWord _ (Nat.mod_lt _ (by norm_num)), List.getD_eq_getElem?_getD,
      List.getElem?_drop, show 4 * ((a + i) / 4 - a / 4) + i % 4 = i by omega,
      List.getElem?_eq_getElem h₂, Option.getD_some]

end PcbMill.WordMemory
