import Mathlib.Tactic

/-!
# Text in UTF-16, low byte first

Bytes are read in pairs as code units, and code units as code points: one unit outside the
surrogates, or a high and a low surrogate.
-/

namespace PcbMill.Utf16le

/-- The two bytes of a half-word, the low one first. -/
def unitBytes (u : BitVec 16) : List (BitVec 8) := [u.setWidth 8, (u >>> 8).setWidth 8]

/-- The half-words of a sequence of bytes, if it is even. -/
def units : List (BitVec 8) → Option (List (BitVec 16))
  | [] => some []
  | [_] => none
  | lo :: hi :: rest => (units rest).map ((hi.setWidth 16 <<< 8 ||| lo.setWidth 16) :: ·)

def highSurrogate (u : BitVec 16) : Prop := 0xD800#16 ≤ u ∧ u < 0xDC00#16

def lowSurrogate (u : BitVec 16) : Prop := 0xDC00#16 ≤ u ∧ u < 0xE000#16

instance (u : BitVec 16) : Decidable (highSurrogate u) := inferInstanceAs (Decidable (_ ∧ _))

instance (u : BitVec 16) : Decidable (lowSurrogate u) := inferInstanceAs (Decidable (_ ∧ _))

/-- The code points of a sequence of code units.  A surrogate without its partner is an error. -/
def codePoints : List (BitVec 16) → Option (List ℕ)
  | [] => some []
  | u :: rest =>
    if highSurrogate u then
      match rest with
      | [] => none
      | v :: rest =>
        if lowSurrogate v then
          (codePoints rest).map
            ((0x10000 + (u.toNat - 0xD800) * 0x400 + (v.toNat - 0xDC00)) :: ·)
        else none
    else if lowSurrogate u then none
    else (codePoints rest).map (u.toNat :: ·)

def decode (bytes : List (BitVec 8)) : Option (List ℕ) := (units bytes).bind codePoints

theorem units_unitBytes_append (u : BitVec 16) (bytes : List (BitVec 8)) :
    units (unitBytes u ++ bytes) = (units bytes).map (u :: ·) := by
  have hback : ((u >>> 8).setWidth 8).setWidth 16 <<< 8 ||| (u.setWidth 8).setWidth 16 = u := by
    refine BitVec.eq_of_getLsbD_eq fun i hi => ?_
    simp only [BitVec.getLsbD_or, BitVec.getLsbD_shiftLeft, BitVec.getLsbD_setWidth,
      BitVec.getLsbD_ushiftRight]
    by_cases hlow : i < 8
    · simp [hi, hlow]
    · simp [hi, hlow, show 8 + (i - 8) = i by omega, show i - 8 < 8 by omega,
        show i - 8 < 16 by omega]
  simp only [unitBytes, List.cons_append, List.nil_append, units, hback]

/-- The half-words come back from their bytes. -/
theorem units_flatMap (us : List (BitVec 16)) : units (us.flatMap unitBytes) = some us := by
  induction us with
  | nil => rfl
  | cons u us ih => rw [List.flatMap_cons, units_unitBytes_append, ih, Option.map_some]

/-- Below the surrogates every code unit is a code point. -/
theorem codePoints_of_lt {us : List (BitVec 16)} (h : ∀ u ∈ us, u.toNat < 0xD800) :
    codePoints us = some (us.map BitVec.toNat) := by
  induction us with
  | nil => rfl
  | cons u us ih =>
    have hu := h u (List.mem_cons_self ..)
    have hhigh : ¬ highSurrogate u := by
      rintro ⟨hle, -⟩
      have hge : 0xD800 ≤ u.toNat := hle
      omega
    have hlow : ¬ lowSurrogate u := by
      rintro ⟨hle, -⟩
      have hge : 0xDC00 ≤ u.toNat := hle
      omega
    rw [codePoints.eq_def]
    dsimp only
    rw [if_neg hhigh, if_neg hlow, ih fun v hv => h v (List.mem_cons_of_mem _ hv)]
    rfl

/-- Text below the surrogates comes back from its encoding. -/
theorem decode_flatMap {us : List (BitVec 16)} (h : ∀ u ∈ us, u.toNat < 0xD800) :
    decode (us.flatMap unitBytes) = some (us.map BitVec.toNat) := by
  rw [decode, units_flatMap]
  exact codePoints_of_lt h

end PcbMill.Utf16le
