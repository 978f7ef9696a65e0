import Mathlib.Data.Nat.Digits.Lemmas
import Mathlib.Data.Set.Function
import Mathlib.Tactic

/-!
# Numerals and the texts made of them

A numeral is the digits of a number, the most significant first, and one digit for zero.  Where a
text is put together of pieces, and none of the pieces of another text is longer than its
counterpart, the texts are equal only if the pieces are.
-/

namespace PcbMill.Numeral

variable {α β : Type*} {alphabet : ℕ → α} {base n m k : ℕ}

/-- The digits, least significant first; zero has one. -/
def digitList (base n : ℕ) : List ℕ := if n = 0 then [0] else Nat.digits base n

/-- The digits as characters, most significant first. -/
def numeral (alphabet : ℕ → α) (base n : ℕ) : List α := ((digitList base n).map alphabet).reverse

theorem ofDigits_digitList (base n : ℕ) : Nat.ofDigits base (digitList base n) = n := by
  rw [digitList]
  split
  · rw [Nat.ofDigits_singleton]
    exact ‹n = 0›.symm
  · exact Nat.ofDigits_digits base n

theorem lt_of_mem_digitList (hbase : 1 < base) {d : ℕ} (hd : d ∈ digitList base n) : d < base := by
  rw [digitList] at hd
  split at hd
  · rw [List.mem_singleton] at hd
    omega
  · exact Nat.digits_lt_base hbase hd

theorem digitList_length_le_iff (hbase : 1 < base) (hk : 0 < k) :
    (digitList base n).length ≤ k ↔ n < base ^ k := by
  rw [digitList]
  split
  · have hpos : 0 < base ^ k := Nat.pow_pos (by omega)
    rw [List.length_singleton]
    omega
  · exact Nat.digits_length_le_iff hbase n

theorem numeral_length_le_iff (hbase : 1 < base) (hk : 0 < k) :
    (numeral alphabet base n).length ≤ k ↔ n < base ^ k := by
  rw [numeral, List.length_reverse, List.length_map, digitList_length_le_iff hbase hk]

/-- Different numbers have different numerals. -/
theorem numeral_injective (hbase : 1 < base) (halphabet : Set.InjOn alphabet (Set.Iio base)) :
    Function.Injective (numeral alphabet base) := by
  intro n m h
  have hmap := List.reverse_injective h
  -- On the digits below the base the alphabet has an inverse.
  have hback : ∀ k, ((digitList base k).map alphabet).map
      (Function.invFunOn alphabet (Set.Iio base)) = digitList base k := by
    intro k
    rw [List.map_map]
    refine (List.map_congr_left fun d hd => ?_).trans (List.map_id _)
    exact halphabet.leftInvOn_invFunOn (lt_of_mem_digitList hbase hd)
  have hdigits : digitList base n = digitList base m := by
    rw [← hback n, ← hback m, hmap]
  rw [← ofDigits_digitList base n, hdigits, ofDigits_digitList]

/-! ### Texts of pieces -/

theorem flatMap_length_le {ps : List β} {f g : β → List α}
    (h : ∀ p ∈ ps, (f p).length ≤ (g p).length) :
    (ps.flatMap f).length ≤ (ps.flatMap g).length := by
  induction ps with
  | nil => exact le_rfl
  | cons p ps ih =>
    rw [List.forall_mem_cons] at h
    rw [List.flatMap_cons, List.flatMap_cons, List.length_append, List.length_append]
    have hrest := ih h.2
    have hfirst := h.1
    omega

/-- **Equal texts** are made of equal pieces. -/
theorem flatMap_eq_iff {ps : List β} {f g : β → List α}
    (h : ∀ p ∈ ps, (f p).length ≤ (g p).length) :
    ps.flatMap f = ps.flatMap g ↔ ∀ p ∈ ps, f p = g p := by
  induction ps with
  | nil => simp
  | cons p ps ih =>
    rw [List.forall_mem_cons] at h ⊢
    rw [List.flatMap_cons, List.flatMap_cons]
    constructor
    · intro heq
      have hlength := congrArg List.length heq
      have hrest := flatMap_length_le h.2
      have hfirst := h.1
      rw [List.length_append, List.length_append] at hlength
      obtain ⟨hp, hps⟩ := List.append_inj heq (by omega)
      exact ⟨hp, (ih h.2).mp hps⟩
    · rintro ⟨hp, hps⟩
      rw [hp, (ih h.2).mpr hps]

end PcbMill.Numeral
