import Mathlib.Tactic

/-!
# The algebra of a bit-serial checksum

A register of `w` bits is shifted towards its top once for each message bit, and the polynomial,
less its leading term, is added whenever the bit that leaves differs from the message bit.  All
of it is linear over exclusive or, so what the checksum detects can be read off the checksum of
the error alone.
-/

namespace PcbMill.BitSerialCrc

variable {w : ℕ}

/-- The register after one message bit. -/
def crcBit (p c : BitVec w) (b : Bool) : BitVec w :=
  if c.msb ^^ b then c <<< 1 ^^^ p else c <<< 1

def crcBits (p c : BitVec w) (bs : List Bool) : BitVec w := bs.foldl (crcBit p) c

/-- The bits of a word, the least significant first. -/
def lsbFirst (x : BitVec w) : List Bool := (List.range w).map x.getLsbD

variable {p c d : BitVec w} {bs : List Bool}

@[simp] theorem crcBits_nil : crcBits p c [] = c := rfl

@[simp] theorem crcBits_cons (b : Bool) (bs : List Bool) :
    crcBits p c (b :: bs) = crcBits p (crcBit p c b) bs := rfl

@[simp] theorem crcBits_append (as bs : List Bool) :
    crcBits p c (as ++ bs) = crcBits p (crcBits p c as) bs := List.foldl_append

@[simp] theorem lsbFirst_length (x : BitVec w) : (lsbFirst x).length = w := by simp [lsbFirst]

theorem lsbFirst_inj {x y : BitVec w} (h : lsbFirst x = lsbFirst y) : x = y := by
  refine BitVec.eq_of_getLsbD_eq fun i hi => ?_
  have hget := congrArg (fun l => l[i]?) h
  simpa [lsbFirst, hi] using hget

theorem lsbFirst_xor (x y : BitVec w) :
    lsbFirst (x ^^^ y) = List.zipWith xor (lsbFirst x) (lsbFirst y) := by
  refine List.ext_getElem (by simp) fun i _ _ => ?_
  simp [lsbFirst]

theorem lsbFirst_zero : lsbFirst 0#w = List.replicate w false := by
  refine List.ext_getElem (by simp) fun i _ _ => ?_
  simp [lsbFirst]

theorem flatMap_lsbFirst_xor {v : ℕ} : ∀ {as bs : List (BitVec v)}, as.length = bs.length →
    (List.zipWith (· ^^^ ·) as bs).flatMap lsbFirst =
      List.zipWith xor (as.flatMap lsbFirst) (bs.flatMap lsbFirst)
  | [], [], _ => rfl
  | a :: as, b :: bs, h => by
    have hrest := flatMap_lsbFirst_xor (Nat.succ.inj h)
    rw [List.zipWith_cons_cons, List.flatMap_cons, List.flatMap_cons, List.flatMap_cons, hrest,
      lsbFirst_xor, List.zipWith_append (by simp)]

theorem flatMap_lsbFirst_length {v : ℕ} (as : List (BitVec v)) :
    (as.flatMap lsbFirst).length = as.length * v := by
  induction as with
  | nil => simp
  | cons a as ih =>
    rw [List.flatMap_cons, List.length_append, lsbFirst_length, ih, List.length_cons]
    ring

/-! ### Linearity -/

/-- Adding `q` under a condition. -/
theorem crcBit_eq (p c : BitVec w) (b : Bool) :
    crcBit p c b = c <<< 1 ^^^ if c.msb ^^ b then p else 0 := by
  rw [crcBit]
  split_ifs <;> simp

theorem ite_xor_ite (a b : Bool) (p : BitVec w) :
    ((if a ^^ b then p else 0) : BitVec w) = (if a then p else 0) ^^^ if b then p else 0 := by
  cases a <;> cases b <;> simp

theorem crcBit_xor (p c d : BitVec w) (a b : Bool) :
    crcBit p (c ^^^ d) (a ^^ b) = crcBit p c a ^^^ crcBit p d b := by
  have hfeedback : ((c ^^^ d).msb ^^ (a ^^ b)) = ((c.msb ^^ a) ^^ (d.msb ^^ b)) := by
    rw [BitVec.msb_xor]
    cases c.msb <;> cases d.msb <;> cases a <;> cases b <;> rfl
  rw [crcBit_eq, crcBit_eq, crcBit_eq, hfeedback, ite_xor_ite, BitVec.shiftLeft_xor_distrib]
  ac_rfl

/-- **Linearity** of the checksum in the register and the message. -/
theorem crcBits_xor (p : BitVec w) : ∀ {as bs : List Bool} (c d : BitVec w),
    as.length = bs.length →
      crcBits p (c ^^^ d) (List.zipWith xor as bs) = crcBits p c as ^^^ crcBits p d bs
  | [], [], _, _, _ => rfl
  | a :: as, b :: bs, c, d, h => by
    rw [List.zipWith_cons_cons, crcBits_cons, crcBit_xor, crcBits_xor p _ _ (Nat.succ.inj h)]
    rfl

/-! ### Bursts -/

@[simp] theorem crcBit_zero_false (p : BitVec w) : crcBit p 0#w false = 0#w := by simp [crcBit]

@[simp] theorem crcBit_zero_true (p : BitVec w) : crcBit p 0#w true = p := by simp [crcBit]

/-- The register after zeros. -/
def zeros (p : BitVec w) (n : ℕ) (c : BitVec w) : BitVec w := (fun c => crcBit p c false)^[n] c

theorem crcBits_replicate (p c : BitVec w) (n : ℕ) :
    crcBits p c (List.replicate n false) = zeros p n c := by
  induction n generalizing c with
  | zero => rfl
  | succ n ih =>
    rw [List.replicate_succ, crcBits_cons, ih]
    rfl

theorem zeros_add (p : BitVec w) (m n : ℕ) (c : BitVec w) :
    zeros p (m + n) c = zeros p m (zeros p n c) := Function.iterate_add_apply _ m n c

@[simp] theorem zeros_zero (p : BitVec w) (n : ℕ) : zeros p n 0#w = 0#w := by
  rw [zeros, Function.iterate_fixed]
  exact crcBit_zero_false p

theorem getLsbD_shiftLeft_self {n : ℕ} (h : n < w) (x : BitVec w) :
    (x <<< n).getLsbD n = x.getLsbD 0 := by
  rw [BitVec.getLsbD_shiftLeft, Nat.sub_self]
  simp [h]

/-- A register that the rest of a message empties holds nothing below the top bits the message
reaches: the polynomial ends in a one, and a one added there is still in the register at the
end. -/
theorem shiftLeft_of_crcBits_eq_zero (hp : p.getLsbD 0 = true) :
    ∀ {bs : List Bool} {c : BitVec w}, bs.length ≤ w → crcBits p c bs = 0 → c <<< bs.length = 0
  | [], c, _, h => by simpa using h
  | b :: bs, c, hlength, h => by
    have hlt : bs.length < w := hlength
    have hrest := shiftLeft_of_crcBits_eq_zero hp hlt.le h
    rw [crcBit] at hrest
    split_ifs at hrest with hfeedback
    · have hbit := getLsbD_shiftLeft_self hlt (c <<< 1 ^^^ p)
      rw [hrest, BitVec.getLsbD_xor, hp] at hbit
      simp at hbit
    · rwa [← BitVec.shiftLeft_add, Nat.add_comm] at hrest

/-- **Bursts.**  A message no longer than the register has checksum zero only if it is all zeros. -/
theorem eq_false_of_crcBits_eq_zero (hp : p.getLsbD 0 = true) :
    ∀ {bs : List Bool}, bs.length ≤ w → crcBits p 0#w bs = 0 → ∀ b ∈ bs, b = false
  | [], _, _ => by simp
  | b :: bs, hlength, h => by
    have hlt : bs.length < w := hlength
    cases b with
    | false =>
      rw [crcBits_cons, crcBit_zero_false] at h
      exact List.forall_mem_cons.mpr ⟨rfl, eq_false_of_crcBits_eq_zero hp hlt.le h⟩
    | true =>
      rw [crcBits_cons, crcBit_zero_true] at h
      have hshift := shiftLeft_of_crcBits_eq_zero hp hlt.le h
      have hbit := getLsbD_shiftLeft_self hlt p
      rw [hshift, hp] at hbit
      simp at hbit

/-- Zeros empty no register. -/
theorem crcBit_false_injective (hp : p.getLsbD 0 = true) :
    Function.Injective fun c : BitVec w => crcBit p c false := by
  intro c d h
  have hzero : crcBit p (c ^^^ d) false = 0 := by
    have hxor := crcBit_xor p c d false false
    rw [show crcBit p c false = crcBit p d false from h, BitVec.xor_self] at hxor
    exact hxor
  generalize hx : c ^^^ d = x at hzero
  have hshift : x.msb = false ∧ x <<< 1 = 0 := by
    rcases Nat.eq_zero_or_pos w with rfl | hw
    · exact ⟨by simp [BitVec.eq_nil x], by simp [BitVec.eq_nil x]⟩
    rw [crcBit] at hzero
    split_ifs at hzero with hmsb
    · have hbit := congrArg (fun x => x.getLsbD 0) hzero
      simp [hp] at hbit
    · exact ⟨by simpa using hmsb, hzero⟩
  have hx0 : x = 0 := by
    refine BitVec.eq_of_getLsbD_eq fun i hi => ?_
    by_cases htop : i + 1 < w
    · have hbit := congrArg (fun x => x.getLsbD (i + 1)) hshift.2
      simpa [htop, hi] using hbit
    · have hmsb := hshift.1
      rw [BitVec.msb_eq_getLsbD_last, show w - 1 = i by omega] at hmsb
      simpa using hmsb
  rw [hx0] at hx
  exact BitVec.xor_eq_zero_iff.mp hx

theorem zeros_injective (hp : p.getLsbD 0 = true) (n : ℕ) : Function.Injective (zeros p n) :=
  (crcBit_false_injective hp).iterate n

/-- The bits that are set lie within `n` places from the `k`-th on. -/
def Burst (bs : List Bool) (k n : ℕ) : Prop := ∀ i : ℕ, bs[i]? = some true → k ≤ i ∧ i < k + n

theorem Burst.split {k n : ℕ} (h : Burst bs k n) :
    ∃ a mid b, bs = List.replicate a false ++ mid ++ List.replicate b false ∧ mid.length ≤ n := by
  have hfalse : ∀ l : List Bool, (∀ i : ℕ, l[i]? ≠ some true) → l = List.replicate l.length false := by
    intro l hl
    refine List.eq_replicate_of_mem fun b hb => ?_
    obtain ⟨i, hi⟩ := List.mem_iff_getElem?.mp hb
    cases b with
    | false => rfl
    | true => exact absurd hi (hl i)
  have hfront := hfalse (bs.take k) fun i hi => by
    rw [List.getElem?_take] at hi
    split_ifs at hi with hlt
    exact absurd (h i hi).1 (by omega)
  have hback := hfalse (bs.drop (k + n)) fun i hi => by
    rw [List.getElem?_drop] at hi
    exact absurd (h _ hi).2 (by omega)
  refine ⟨(bs.take k).length, (bs.drop k).take n, (bs.drop (k + n)).length, ?_,
    List.length_take_le _ _⟩
  rw [← hfront, ← hback, List.append_assoc, ← List.drop_drop, List.take_append_drop,
    List.take_append_drop]

/-- A burst no longer than the register shows in the checksum of any message. -/
theorem Burst.eq_false {k n : ℕ} (h : Burst bs k n) (hp : p.getLsbD 0 = true) (hn : n ≤ w)
    (hcrc : crcBits p 0#w bs = 0#w) : ∀ b ∈ bs, b = false := by
  obtain ⟨a, mid, b, rfl, hmid⟩ := h.split
  rw [crcBits_append, crcBits_append, crcBits_replicate, crcBits_replicate, zeros_zero] at hcrc
  have hzero := zeros_injective hp b (hcrc.trans (zeros_zero p b).symm)
  have hnone := eq_false_of_crcBits_eq_zero hp (hmid.trans hn) hzero
  intro c hc
  simp only [List.mem_append, List.mem_replicate] at hc
  obtain (⟨-, hc⟩ | hc) | ⟨-, hc⟩ := hc
  · exact hc
  · exact hnone c hc
  · exact hc

/-! ### One and two bits -/

/-- A single bit is a one shifted so far. -/
theorem zeros_one (p : BitVec w) {k : ℕ} (hk : k < w) : zeros p k 1#w = 1#w <<< k := by
  induction k with
  | zero => simp [zeros]
  | succ k ih =>
    have hmsb : (1#w <<< k).msb = false := by
      rw [BitVec.msb_eq_getLsbD_last]
      simp
      omega
    rw [Nat.add_comm, zeros_add, ih (by omega)]
    show crcBit p _ false = _
    rw [crcBit, hmsb, ← BitVec.shiftLeft_add, Nat.add_comm]
    rfl

/-- The one shifted out at the top leaves the polynomial. -/
theorem zeros_one_self (p : BitVec w) (hw : 0 < w) : zeros p w 1#w = p := by
  have hmsb : (1#w <<< (w - 1)).msb = true := by
    rw [BitVec.msb_eq_getLsbD_last]
    simp [hw]
  have hsplit : zeros p w 1#w = zeros p 1 (zeros p (w - 1) 1#w) := by
    rw [← zeros_add, show 1 + (w - 1) = w by omega]
  rw [hsplit, zeros_one p (by omega)]
  show crcBit p _ false = _
  rw [crcBit, hmsb, ← BitVec.shiftLeft_add, BitVec.shiftLeft_eq_zero (by omega)]
  simp

theorem eq_replicate_of_count_eq_zero (h : bs.count true = 0) :
    bs = List.replicate bs.length false := by
  refine List.eq_replicate_of_mem fun b hb => ?_
  cases b with
  | false => rfl
  | true => exact absurd hb (List.count_eq_zero.mp h)

/-- A message with a bit in it, split at the first. -/
theorem exists_first_bit {n : ℕ} (h : bs.count true = n + 1) :
    ∃ k rest, bs = List.replicate k false ++ true :: rest ∧ rest.count true = n := by
  have hmem : true ∈ bs := List.count_pos_iff.mp (by omega)
  obtain ⟨before, rest, rfl, hbefore⟩ := List.eq_append_cons_of_mem hmem
  have hnone := List.count_eq_zero.mpr hbefore
  refine ⟨before.length, rest, by rw [← eq_replicate_of_count_eq_zero hnone], ?_⟩
  rw [List.count_append, hnone, List.count_cons_self] at h
  omega

/-- A message with one bit. -/
theorem crcBits_of_count_one (h : bs.count true = 1) :
    ∃ n < bs.length, crcBits p 0#w bs = zeros p n p := by
  obtain ⟨k, rest, rfl, hrest⟩ := exists_first_bit h
  refine ⟨rest.length, by simp; omega, ?_⟩
  rw [eq_replicate_of_count_eq_zero hrest]
  simp [crcBits_replicate]

/-- A message with two bits. -/
theorem crcBits_of_count_two (h : bs.count true = 2) :
    ∃ m n, m + n + 1 < bs.length ∧ crcBits p 0#w bs = zeros p n (zeros p (m + 1) p ^^^ p) := by
  obtain ⟨k, rest, rfl, hrest⟩ := exists_first_bit h
  obtain ⟨m, last, rfl, hlast⟩ := exists_first_bit hrest
  refine ⟨m, last.length, by simp; omega, ?_⟩
  have hsecond : ∀ c : BitVec w, crcBit p c true = crcBit p c false ^^^ p := by
    intro c
    have hxor := crcBit_xor p c 0#w false true
    simpa using hxor
  have hnext : zeros p (m + 1) p = crcBit p (zeros p m p) false := by
    rw [Nat.add_comm, zeros_add]
    rfl
  rw [eq_replicate_of_count_eq_zero hlast, hnext, ← hsecond]
  simp [crcBits_replicate]

/-- A word with one bit. -/
theorem eq_zeros_of_count_one {r : BitVec w} (p : BitVec w) (h : (lsbFirst r).count true = 1) :
    ∃ k < w, r = zeros p k 1#w := by
  obtain ⟨k, rest, hbits, hrest⟩ := exists_first_bit h
  have hlength := congrArg List.length hbits
  rw [eq_replicate_of_count_eq_zero hrest] at hbits
  simp only [lsbFirst_length, List.length_append, List.length_replicate, List.length_cons] at hlength
  have hk : k < w := by omega
  refine ⟨k, hk, ?_⟩
  rw [zeros_one p hk]
  refine lsbFirst_inj (hbits.trans (List.ext_getElem (by simp; omega) fun i _ hi => ?_))
  have hiw : i < w := by simpa using hi
  simp [lsbFirst, List.getElem_append, List.getElem_cons, hiw]

theorem eq_zero_of_count_zero {r : BitVec w} (h : (lsbFirst r).count true = 0) : r = 0#w := by
  have hbits := eq_replicate_of_count_eq_zero h
  rw [lsbFirst_length, ← lsbFirst_zero] at hbits
  exact lsbFirst_inj hbits

/-- **Two bits.**  A message and a check word with two bits between them that agree bring a one
round to itself. -/
theorem exists_period_of_count_two {r : BitVec w} (hp : p.getLsbD 0 = true)
    (hcrc : crcBits p 0#w bs = r) (hcount : bs.count true + (lsbFirst r).count true = 2) :
    ∃ n, 0 < n ∧ n < bs.length + w ∧ zeros p n 1#w = 1#w := by
  have hw : 0 < w := by
    by_contra h
    rw [BitVec.getLsbD_of_ge _ _ (by omega)] at hp
    exact absurd hp (by simp)
  have hself := zeros_one_self p hw
  obtain hbits | hbits | hbits : bs.count true = 0 ∨ bs.count true = 1 ∨ bs.count true = 2 := by
    omega
  · -- no bit in the message, so none in the checksum
    rw [eq_replicate_of_count_eq_zero hbits, crcBits_replicate, zeros_zero] at hcrc
    subst hcrc
    rw [hbits, lsbFirst_zero, List.count_replicate] at hcount
    simp at hcount
  · obtain ⟨n, hn, hmessage⟩ := crcBits_of_count_one (p := p) hbits
    obtain ⟨k, hk, hword⟩ := eq_zeros_of_count_one (r := r) p (by omega)
    refine ⟨n + w - k, by omega, by omega, zeros_injective hp k ?_⟩
    rw [← zeros_add, ← hword, ← hcrc, hmessage, show k + (n + w - k) = n + w by omega, zeros_add,
      hself]
  · obtain ⟨m, n, hmn, hmessage⟩ := crcBits_of_count_two (p := p) hbits
    have hzero : r = 0#w := eq_zero_of_count_zero (by omega)
    rw [hmessage, hzero, ← zeros_zero p n] at hcrc
    have hperiod := BitVec.xor_eq_zero_iff.mp (zeros_injective hp n hcrc)
    refine ⟨m + 1, by omega, by omega, zeros_injective hp w ?_⟩
    rw [← zeros_add, Nat.add_comm w, zeros_add, hself, hperiod]

/-! ### Parity -/

theorem count_zipWith_xor : ∀ {as bs : List Bool}, as.length = bs.length →
    (List.zipWith xor as bs).count true % 2 = (as.count true + bs.count true) % 2
  | [], [], _ => rfl
  | a :: as, b :: bs, h => by
    have hrest := count_zipWith_xor (Nat.succ.inj h)
    cases a <;> cases b <;> simp <;> omega

theorem lsbFirst_succ {n : ℕ} (x : BitVec (n + 1)) :
    lsbFirst x = (List.range n).map x.getLsbD ++ [x.msb] := by
  rw [BitVec.msb_eq_getLsbD_last, lsbFirst, List.range_succ, List.map_append]
  rfl

theorem count_lsbFirst_shiftLeft (c : BitVec w) :
    (lsbFirst (c <<< 1)).count true + c.msb.toNat = (lsbFirst c).count true := by
  cases w with
  | zero => simp [lsbFirst, BitVec.eq_nil c]
  | succ n =>
    have hshift : lsbFirst (c <<< 1) = false :: (List.range n).map c.getLsbD := by
      refine List.ext_getElem (by simp) fun i h _ => ?_
      rw [lsbFirst_length] at h
      cases i with
      | zero => simp [lsbFirst]
      | succ i => simpa [lsbFirst] using fun _ => by omega
    rw [hshift, lsbFirst_succ, List.count_append]
    cases c.msb <;> simp

/-- A register keeps the parity of what it was fed, where the polynomial has oddly many ones. -/
theorem count_crcBit (hp : (lsbFirst p).count true % 2 = 1) (c : BitVec w) (b : Bool) :
    (lsbFirst (crcBit p c b)).count true % 2 = ((lsbFirst c).count true + b.toNat) % 2 := by
  have hshift := count_lsbFirst_shiftLeft c
  have hxor := count_zipWith_xor
    (show (lsbFirst (c <<< 1)).length = (lsbFirst p).length by simp)
  rw [← lsbFirst_xor] at hxor
  rw [crcBit]
  cases hmsb : c.msb <;> cases b <;> simp [hmsb] at hshift ⊢ <;> omega

/-- **Parity.** -/
theorem count_crcBits (hp : (lsbFirst p).count true % 2 = 1) : ∀ (bs : List Bool) (c : BitVec w),
    (lsbFirst (crcBits p c bs)).count true % 2 = ((lsbFirst c).count true + bs.count true) % 2
  | [], _ => rfl
  | b :: bs, c => by
    have hbit := count_crcBit hp c b
    rw [crcBits_cons, count_crcBits hp bs]
    cases b <;> simp at hbit ⊢ <;> omega

end PcbMill.BitSerialCrc
