import Mathlib.Tactic

/-!
# Computations that read a memory

A `Reading` is what a computation returns, if it has ended, and the places of the memory it has
read.  `Within n` says that it has ended and has read only places below `n`; the lemmas take it
apart along the computation.  A computation given by approximations, one for each bound on its
steps, is `Settled` if a larger bound changes nothing once it has ended.
-/

namespace PcbMill

structure Reading (α : Type*) where
  /-- The value, once the computation has ended. -/
  value : Option α
  /-- The places read so far. -/
  reads : List ℕ

namespace Reading

variable {α β : Type*}

def pure (a : α) : Reading α := ⟨some a, []⟩

/-- A computation that has not ended. -/
def running : Reading α := ⟨none, []⟩

/-- Read the places `is`, then go on with `x`. -/
def after (is : List ℕ) (x : Reading α) : Reading α := ⟨x.value, is ++ x.reads⟩

def bind (x : Reading α) (f : α → Reading β) : Reading β :=
  match x.value with
  | none => ⟨none, x.reads⟩
  | some a => ⟨(f a).value, x.reads ++ (f a).reads⟩

/-- The computation has ended and has read only places below `n`. -/
def Within (n : ℕ) (x : Reading α) : Prop := x.value.isSome = true ∧ ∀ i ∈ x.reads, i < n

variable {x : Reading α} {f : α → Reading β} {n : ℕ}

@[simp] theorem value_pure (a : α) : (pure a).value = some a := rfl

@[simp] theorem value_running : (running : Reading α).value = none := rfl

@[simp] theorem value_after (is : List ℕ) (x : Reading α) : (after is x).value = x.value := rfl

@[simp] theorem value_bind : (x.bind f).value = x.value.bind fun a => (f a).value := by
  simp only [bind]
  cases x.value with
  | none => rfl
  | some a => rfl

theorem bind_of_value {a : α} (h : x.value = some a) :
    x.bind f = ⟨(f a).value, x.reads ++ (f a).reads⟩ := by
  simp only [bind]
  rw [h]

@[simp] theorem within_pure (a : α) : (pure a).Within n := by simp [Within, pure]

@[simp] theorem not_within_running : ¬(running : Reading α).Within n := by simp [Within, running]

@[simp] theorem within_after {is : List ℕ} :
    (after is x).Within n ↔ (∀ i ∈ is, i < n) ∧ x.Within n := by
  simp only [Within, after, List.mem_append]
  constructor
  · exact fun ⟨hv, hr⟩ => ⟨fun i hi => hr i (.inl hi), hv, fun i hi => hr i (.inr hi)⟩
  · exact fun ⟨his, hv, hr⟩ => ⟨hv, fun i hi => hi.elim (his i) (hr i)⟩

theorem within_bind :
    (x.bind f).Within n ↔ x.Within n ∧ ∃ a, x.value = some a ∧ (f a).Within n := by
  cases hx : x.value with
  | none => simp [Within, bind, hx]
  | some a =>
    rw [bind_of_value hx]
    simp only [Within, hx, Option.isSome_some, true_and, List.mem_append]
    constructor
    · exact fun ⟨hv, hr⟩ => ⟨fun i hi => hr i (.inl hi), a, rfl, hv, fun i hi => hr i (.inr hi)⟩
    · rintro ⟨hr, b, hb, hv, hr'⟩
      cases hb
      exact ⟨hv, fun i hi => hi.elim (hr i) (hr' i)⟩

/-! ### Approximations -/

/-- A larger bound on the steps changes nothing once the computation has ended. -/
def Settled (x y : Reading α) : Prop := x.value.isSome = true → y = x

theorem Settled.refl (x : Reading α) : Settled x x := fun _ => rfl

theorem settled_running (y : Reading α) : Settled running y := fun h => absurd h (by simp)

theorem Settled.after {x y : Reading α} (h : Settled x y) (is : List ℕ) :
    Settled (after is x) (after is y) := by
  intro hx
  rw [h hx]

theorem Settled.bind {x y : Reading α} {f g : α → Reading β} (h : Settled x y)
    (hf : ∀ a, Settled (f a) (g a)) : Settled (x.bind f) (y.bind g) := by
  intro hend
  cases hx : x.value with
  | none => simp [hx] at hend
  | some a =>
    have hy : y = x := h (by rw [hx]; rfl)
    rw [value_bind, hx, Option.bind_some] at hend
    rw [hy, bind_of_value hx, bind_of_value hx, hf a hend]

/-- Approximations that settle step by step settle altogether. -/
theorem settled_le {x : ℕ → Reading α} (h : ∀ k, Settled (x k) (x (k + 1))) {k l : ℕ}
    (hkl : k ≤ l) : Settled (x k) (x l) := by
  induction l, hkl using Nat.le_induction with
  | base => exact Settled.refl _
  | succ l _ ih =>
    intro hk
    have hl := ih hk
    rw [← hl]
    exact h l (by rw [hl]; exact hk)

theorem Within.of_settled {x y : Reading α} (h : x.Within n) (hs : Settled x y) : y.Within n := by
  rw [hs h.1]
  exact h

end Reading

end PcbMill
