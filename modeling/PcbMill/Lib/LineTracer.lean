import Mathlib.Tactic

/-!
# Tracing lines with counters

A line is traced by a counter for each axis.  Every tick adds an increment to the counter, and
when the counter comes above the threshold it gives the threshold back and the axis makes a step.
So the steps depend on the sum of the increments only, not on how it comes in, and a line whose
increments add up to a multiple of the threshold ends with the counter where it began.

A `Chunk` is a part of a line; the first part of a line sets the counter to half the threshold.
-/

namespace PcbMill.LineTracer

/-- The counter after a tick. -/
def counter (threshold c a : ℕ) : ℕ := if threshold < c + a then c + a - threshold else c + a

/-- The steps of a tick. -/
def fires (threshold c a : ℕ) : ℕ := if threshold < c + a then 1 else 0

/-- The steps made when `total` has come into the counter, what it began with included. -/
def stepsOf (threshold total : ℕ) : ℕ := (total - 1) / threshold

/-- The counter then. -/
def restOf (threshold total : ℕ) : ℕ := total - threshold * stepsOf threshold total

structure Chunk where
  /-- The line begins with this chunk. -/
  first : Bool
  /-- The sum of the increments. -/
  increments : ℕ
  threshold : ℕ
  /-- The direction of the axis. -/
  sign : ℤ

/-- What the counter of a chunk begins with. -/
def Chunk.start (q : Chunk) (c : ℕ) : ℕ := if q.first then q.threshold / 2 else c

/-- How far the chunks take the axis. -/
def travel : ℕ → List Chunk → ℤ
  | _, [] => 0
  | c, q :: qs =>
    q.sign * stepsOf q.threshold (q.start c + q.increments) +
      travel (restOf q.threshold (q.start c + q.increments)) qs

/-- The counter behind the chunks. -/
def final : ℕ → List Chunk → ℕ
  | c, [] => c
  | c, q :: qs => final (restOf q.threshold (q.start c + q.increments)) qs

variable {m c a b s : ℕ} {d : ℤ} {q : Chunk} {qs rs : List Chunk}

theorem restOf_le (hm : 0 < m) : restOf m a ≤ m := by
  have hdiv := Nat.div_add_mod (a - 1) m
  have hmod := Nat.mod_lt (a - 1) hm
  simp only [restOf, stepsOf]
  omega

theorem stepsOf_tick (hc : c ≤ m) (ha : a ≤ m) (hm : 0 < m) : stepsOf m (c + a) = fires m c a := by
  simp only [stepsOf, fires]
  split_ifs with h
  · exact Nat.div_eq_of_lt_le (by omega) (by omega)
  · exact Nat.div_eq_of_lt (by omega)

theorem restOf_tick (hc : c ≤ m) (ha : a ≤ m) (hm : 0 < m) :
    restOf m (c + a) = counter m c a := by
  rw [restOf, stepsOf_tick hc ha hm]
  simp only [fires, counter]
  split_ifs
  · rw [Nat.mul_one]
  · rw [Nat.mul_zero, Nat.sub_zero]

theorem counter_le (hc : c ≤ m) (ha : a ≤ m) : counter m c a ≤ m := by
  simp only [counter]
  split_ifs <;> omega

/-- What is in the counter stays there. -/
theorem stepsOf_le (hc : c ≤ m) (hm : 0 < m) : stepsOf m c = 0 := Nat.div_eq_of_lt (by omega)

theorem restOf_self (hc : c ≤ m) (hm : 0 < m) : restOf m c = c := by
  rw [restOf, stepsOf_le hc hm, Nat.mul_zero, Nat.sub_zero]

theorem mul_stepsOf_le : m * stepsOf m a ≤ a :=
  (Nat.mul_div_le (a - 1) m).trans (Nat.sub_le a 1)

/-- **The increments may come in two parts.** -/
theorem stepsOf_add (hm : 0 < m) :
    stepsOf m (a + b) = stepsOf m a + stepsOf m (restOf m a + b) := by
  rcases Nat.eq_zero_or_pos a with rfl | ha
  · simp [stepsOf, restOf]
  · have hdiv := Nat.div_add_mod (a - 1) m
    have hsum : a + b - 1 = (a - 1) % m + b + m * ((a - 1) / m) := by omega
    have hrest : restOf m a + b - 1 = (a - 1) % m + b := by
      simp only [restOf, stepsOf]
      omega
    rw [stepsOf, hsum, Nat.add_mul_div_left _ _ hm, Nat.add_comm, stepsOf, stepsOf, hrest]

theorem restOf_add (hm : 0 < m) : restOf m (a + b) = restOf m (restOf m a + b) := by
  have hle := mul_stepsOf_le (m := m) (a := a)
  have hrest : restOf m a = a - m * stepsOf m a := rfl
  have hmul : m * stepsOf m (a + b) = m * stepsOf m a + m * stepsOf m (restOf m a + b) := by
    rw [stepsOf_add hm, Nat.mul_add]
  have hleft : restOf m (a + b) = a + b - m * stepsOf m (a + b) := rfl
  have hright : restOf m (restOf m a + b) = restOf m a + b - m * stepsOf m (restOf m a + b) := rfl
  omega

/-- Increments of a multiple of the threshold leave the counter as it was. -/
theorem stepsOf_mul (hm : 0 < m) (hc : 0 < c) (hle : c ≤ m) : stepsOf m (c + m * s) = s := by
  rw [stepsOf, show c + m * s - 1 = c - 1 + m * s by omega, Nat.add_mul_div_left _ _ hm,
    Nat.div_eq_of_lt (by omega), Nat.zero_add]

theorem restOf_mul (hm : 0 < m) (hc : 0 < c) (hle : c ≤ m) : restOf m (c + m * s) = c := by
  rw [restOf, stepsOf_mul hm hc hle, Nat.add_sub_cancel]

/-! ### Chunks -/

@[simp] theorem travel_nil (c : ℕ) : travel c [] = 0 := rfl

theorem travel_append (c : ℕ) :
    travel c (qs ++ rs) = travel c qs + travel (final c qs) rs := by
  induction qs generalizing c with
  | nil => rw [List.nil_append, travel_nil, final, zero_add]
  | cons q qs ih => rw [List.cons_append, travel, travel, final, ih, add_assoc]

/-- **A chunk cut in two.** -/
theorem travel_split (hm : 0 < m) (f : Bool) (c : ℕ) : travel c (⟨f, a + b, m, d⟩ :: qs) =
    travel c (⟨f, a, m, d⟩ :: ⟨false, b, m, d⟩ :: qs) := by
  simp only [travel, Chunk.start, Bool.false_eq_true, if_false]
  rw [← Nat.add_assoc]
  generalize (if f = true then m / 2 else c) + a = total
  rw [stepsOf_add hm, restOf_add hm, Nat.cast_add, mul_add, add_assoc]

/-- **A tick.** -/
theorem travel_tick (hc : c ≤ m) (ha : a ≤ m) (hm : 0 < m) :
    travel c (⟨false, a + b, m, d⟩ :: qs) =
      d * fires m c a + travel (counter m c a) (⟨false, b, m, d⟩ :: qs) := by
  rw [travel_split hm, travel]
  simp only [Chunk.start, Bool.false_eq_true, if_false]
  rw [stepsOf_tick hc ha hm, restOf_tick hc ha hm]

theorem travel_done (hc : c ≤ m) (hm : 0 < m) :
    travel c (⟨false, 0, m, d⟩ :: qs) = travel c qs := by
  rw [travel]
  simp only [Chunk.start, Bool.false_eq_true, if_false, Nat.add_zero]
  rw [stepsOf_le hc hm, restOf_self hc hm, Nat.cast_zero, mul_zero, zero_add]

/-- **A whole line** makes its steps, and leaves the counter at half the threshold. -/
theorem travel_line (hm : 1 < m) (c : ℕ) :
    travel c (⟨true, m * s, m, d⟩ :: qs) = d * s + travel (m / 2) qs := by
  have hhalf : 0 < m / 2 := Nat.div_pos hm Nat.two_pos
  rw [travel]
  simp only [Chunk.start, if_true]
  rw [stepsOf_mul (by omega) hhalf (Nat.div_le_self m 2),
    restOf_mul (by omega) hhalf (Nat.div_le_self m 2)]

/-! ### Lines that are traced to their end -/

/-- The chunks are those of whole lines, the first of which may have begun: at the end of a line
half the threshold is in the counter, and a chunk that does not begin its line has the threshold
of the one before. -/
def Linked : ℕ → ℕ → List Chunk → Prop
  | m, c, [] => c = m / 2
  | m, c, q :: qs =>
    0 < q.threshold ∧ (if q.first then c = m / 2 else q.threshold = m ∧ c ≤ m) ∧
      Linked q.threshold (restOf q.threshold (q.start c + q.increments)) qs

theorem Linked.le (h : Linked m c qs) : c ≤ m := by
  cases qs with
  | nil => exact h.trans_le (Nat.div_le_self m 2)
  | cons q qs =>
    have hhead := h.2.1
    split_ifs at hhead
    · exact hhead.trans_le (Nat.div_le_self m 2)
    · exact hhead.2

/-- A line begins. -/
theorem Linked.begin (h : Linked m c (q :: qs)) :
    Linked q.threshold (q.start c) ({ q with first := false } :: qs) := by
  obtain ⟨hpos, hhead, hrest⟩ := h
  refine ⟨hpos, ⟨rfl, ?_⟩, hrest⟩
  rw [Chunk.start]
  split_ifs at hhead ⊢ with hfirst
  · exact Nat.div_le_self _ 2
  · rw [hhead.1]
    exact hhead.2

theorem Linked.tick (h : Linked m c (⟨false, a + b, m, d⟩ :: qs)) (ha : a ≤ m) :
    Linked m (counter m c a) (⟨false, b, m, d⟩ :: qs) := by
  obtain ⟨hpos, ⟨-, hc⟩, hrest⟩ := h
  simp only [Chunk.start, Bool.false_eq_true, if_false] at hrest
  rw [← Nat.add_assoc, restOf_add hpos, restOf_tick hc ha hpos] at hrest
  exact ⟨hpos, ⟨rfl, counter_le hc ha⟩, hrest⟩

theorem Linked.done (h : Linked m c (⟨false, 0, s, d⟩ :: qs)) : Linked m c qs := by
  obtain ⟨hpos, ⟨hs, hc⟩, hrest⟩ := h
  simp only at hs hpos
  subst hs
  simp only [Chunk.start, Bool.false_eq_true, if_false, Nat.add_zero] at hrest
  rwa [restOf_self hc hpos] at hrest

/-- A line comes behind the others. -/
theorem Linked.concat_line (h : Linked m c qs) (hs : 1 < s) :
    Linked m c (qs ++ [⟨true, s * a, s, d⟩]) := by
  induction qs generalizing m c with
  | nil =>
    refine ⟨Nat.zero_lt_of_lt hs, h, ?_⟩
    simp only [Chunk.start, if_true]
    exact restOf_mul (Nat.zero_lt_of_lt hs) (Nat.div_pos hs Nat.two_pos) (Nat.div_le_self s 2)
  | cons q qs ih => exact ⟨h.1, h.2.1, ih h.2.2⟩

/-- Of the last line, a part is done. -/
theorem Linked.concat_split {f : Bool} (h : Linked m c (qs ++ [⟨f, a + b, s, d⟩])) :
    Linked m c (qs ++ [⟨f, a, s, d⟩] ++ [⟨false, b, s, d⟩]) := by
  induction qs generalizing m c with
  | nil =>
    obtain ⟨hpos, hhead, hrest⟩ := h
    refine ⟨hpos, hhead, hpos, ⟨rfl, restOf_le hpos⟩, ?_⟩
    simp only [Chunk.start, Bool.false_eq_true, if_false] at hrest ⊢
    rwa [← Nat.add_assoc, restOf_add hpos] at hrest
  | cons q qs ih => exact ⟨h.1, h.2.1, ih h.2.2⟩

theorem Linked.concat_done (h : Linked m c (qs ++ [⟨false, 0, s, d⟩])) :
    Linked m c qs ∧ travel c (qs ++ [⟨false, 0, s, d⟩]) = travel c qs := by
  induction qs generalizing m c with
  | nil =>
    obtain ⟨rfl, hc⟩ : s = m ∧ c ≤ m := h.2.1
    exact ⟨h.done, travel_done hc h.1⟩
  | cons q qs ih =>
    obtain ⟨hlinked, htravel⟩ := ih h.2.2
    exact ⟨⟨h.1, h.2.1, hlinked⟩, by rw [List.cons_append, travel, travel, htravel]⟩

/-- Of the last line, a part is done. -/
theorem travel_concat_split (hm : 0 < m) (f : Bool) (c : ℕ) :
    travel c (qs ++ [⟨f, a + b, m, d⟩]) =
      travel c (qs ++ [⟨f, a, m, d⟩] ++ [⟨false, b, m, d⟩]) := by
  rw [travel_append, travel_split hm, List.append_assoc, travel_append, List.singleton_append]

/-- A line comes behind the chunks. -/
theorem travel_concat_line (hm : 1 < m) (c : ℕ) :
    travel c (qs ++ [⟨true, m * s, m, d⟩]) = travel c qs + d * s := by
  rw [travel_append, travel_line hm, travel_nil, add_zero]

/-- The increments of the line that has begun, and its travel. -/
theorem Linked.line (h : Linked m c (qs ++ rs)) (hfirst : ∀ q ∈ qs, q.first = false)
    (hsign : ∀ q ∈ qs, q.sign = d) (hrest : ∀ q ∈ rs.head?, q.first = true) :
    (m : ℤ) * travel c qs = d * (c + (qs.map Chunk.increments).sum - (m / 2 : ℕ)) := by
  induction qs generalizing c with
  | nil =>
    have hc : c = m / 2 := by
      cases rs with
      | nil => exact h
      | cons q rs =>
        have hhead := h.2.1
        rw [if_pos (hrest q rfl)] at hhead
        exact hhead
    simp [hc]
  | cons q qs ih =>
    obtain ⟨hpos, hhead, htail⟩ := h
    rw [if_neg (by rw [hfirst q List.mem_cons_self]; exact Bool.false_ne_true)] at hhead
    rw [hhead.1] at htail
    have hnext := ih htail (fun q' hq' => hfirst q' (List.mem_cons_of_mem _ hq'))
      (fun q' hq' => hsign q' (List.mem_cons_of_mem _ hq'))
    have hstart : q.start c = c := by
      rw [Chunk.start, if_neg (by rw [hfirst q List.mem_cons_self]; exact Bool.false_ne_true)]
    have hsum : (restOf m (c + q.increments) : ℤ) =
        c + q.increments - m * stepsOf m (c + q.increments) := by
      rw [restOf, Nat.cast_sub mul_stepsOf_le, Nat.cast_add, Nat.cast_mul]
    rw [travel, hsign q List.mem_cons_self, hhead.1, mul_add, hstart]
    rw [hstart] at hnext
    rw [hnext, hsum, List.map_cons, List.sum_cons, Nat.cast_add]
    ring

end PcbMill.LineTracer
