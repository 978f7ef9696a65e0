import Mathlib.Tactic

/-!
# Registers whose fields react to a write in different ways

A device register mixes fields that a write stores, fields it toggles where it writes a 1,
flags it can only clear (by writing a 0), and fields only the hardware changes.
`FieldRegister` names the bits of each kind; `write` is the register after a write, and
`getLsbD_write` reads one bit of it.
-/

namespace PcbMill

/-- The bits of a register that are not simply stored. -/
structure FieldRegister (w : ℕ) where
  /-- Writing 1 toggles the bit, writing 0 leaves it. -/
  toggle : BitVec w
  /-- Writing 0 clears the bit, writing 1 leaves it. -/
  clearOnZero : BitVec w
  /-- A write does not change the bit. -/
  readOnly : BitVec w

namespace FieldRegister

variable {w : ℕ}

/-- The register after `v` is written over `old`. -/
def write (f : FieldRegister w) (old v : BitVec w) : BitVec w :=
  ((old ^^^ v) &&& f.toggle) ||| ((old &&& v) &&& f.clearOnZero) ||| (old &&& f.readOnly) |||
    (v &&& ~~~(f.toggle ||| f.clearOnZero ||| f.readOnly))

theorem getLsbD_write (f : FieldRegister w) (old v : BitVec w) (i : ℕ) :
    (f.write old v).getLsbD i =
      ((old.getLsbD i ^^ v.getLsbD i) && f.toggle.getLsbD i ||
        (old.getLsbD i && v.getLsbD i) && f.clearOnZero.getLsbD i ||
        old.getLsbD i && f.readOnly.getLsbD i ||
        v.getLsbD i && (decide (i < w) &&
          !(f.toggle.getLsbD i || f.clearOnZero.getLsbD i || f.readOnly.getLsbD i))) := by
  simp only [write, BitVec.getLsbD_or, BitVec.getLsbD_and, BitVec.getLsbD_xor,
    BitVec.getLsbD_not]

end FieldRegister

end PcbMill
