import Mathlib.Logic.Function.Basic
import Mathlib.Tactic

/-!
# Writes that a crash cuts off

A memory is written cell by cell, and a crash leaves the writes done so far.  With no cell
written twice, each cell of the list holds its new value or its old one, by its place in it.
-/

namespace PcbMill.DurableWrites

variable {ι α : Type*} [DecidableEq ι] {m : ι → α} {ws : List (ι × α)}

/-- The writes of `ws` one after another. -/
def applyWrites (m : ι → α) (ws : List (ι × α)) : ι → α :=
  ws.foldl (fun m w => Function.update m w.1 w.2) m

@[simp] theorem applyWrites_nil (m : ι → α) : applyWrites m [] = m := rfl

@[simp] theorem applyWrites_cons (m : ι → α) (w : ι × α) (ws : List (ι × α)) :
    applyWrites m (w :: ws) = applyWrites (Function.update m w.1 w.2) ws := rfl

theorem applyWrites_append (m : ι → α) (ws ws' : List (ι × α)) :
    applyWrites m (ws ++ ws') = applyWrites (applyWrites m ws) ws' :=
  List.foldl_append

theorem applyWrites_of_not_mem (ws : List (ι × α)) :
    ∀ (m : ι → α) {i : ι}, i ∉ ws.map Prod.fst → applyWrites m ws i = m i := by
  induction ws with
  | nil => exact fun m i _ => rfl
  | cons w ws ih =>
    intro m i hi
    rw [List.map_cons, List.mem_cons, not_or] at hi
    rw [applyWrites_cons, ih _ hi.2, Function.update_of_ne hi.1]

/-- **A crash after `k` writes.** -/
theorem applyWrites_take_getElem (ws : List (ι × α)) (hnodup : (ws.map Prod.fst).Nodup) :
    ∀ (m : ι → α) (k i : ℕ) (hi : i < ws.length),
      applyWrites m (ws.take k) ws[i].1 = if i < k then ws[i].2 else m ws[i].1 := by
  induction ws with
  | nil => exact fun m k i hi => absurd hi (Nat.not_lt_zero i)
  | cons w ws ih =>
    rw [List.map_cons, List.nodup_cons] at hnodup
    intro m k i hi
    cases k with
    | zero => rw [List.take_zero, applyWrites_nil, if_neg (Nat.not_lt_zero i)]
    | succ k =>
      rw [List.take_succ_cons, applyWrites_cons]
      cases i with
      | zero =>
        have hfirst : w.1 ∉ (ws.take k).map Prod.fst :=
          fun hmem => hnodup.1 (List.map_subset _ (List.take_subset k ws) hmem)
        rw [List.getElem_cons_zero, applyWrites_of_not_mem _ _ hfirst, Function.update_self,
          if_pos (Nat.succ_pos k)]
      | succ i =>
        have hlt : i < ws.length := by simpa using hi
        have hne : ws[i].1 ≠ w.1 :=
          fun heq => hnodup.1 (heq ▸ List.mem_map_of_mem (List.getElem_mem hlt))
        simp only [List.getElem_cons_succ, Nat.add_lt_add_iff_right]
        rw [ih hnodup.2 _ k i hlt, Function.update_of_ne hne]

/-! ### Consecutive cells -/

/-- The writes of `vs` at the cells from `a` on. -/
def storesFrom (a : ℕ) : List α → List (ℕ × α)
  | [] => []
  | v :: vs => (a, v) :: storesFrom (a + 1) vs

theorem storesFrom_values (vs : List α) : ∀ a, (storesFrom a vs).map Prod.snd = vs := by
  induction vs with
  | nil => exact fun _ => rfl
  | cons v vs ih =>
    intro a
    rw [storesFrom, List.map_cons, ih]

theorem storesFrom_addresses (vs : List α) :
    ∀ a, (storesFrom a vs).map Prod.fst = List.range' a vs.length := by
  induction vs with
  | nil => exact fun _ => rfl
  | cons v vs ih =>
    intro a
    rw [storesFrom, List.map_cons, ih, List.length_cons, List.range'_succ]

theorem storesFrom_append (vs vs' : List α) :
    ∀ a, storesFrom a (vs ++ vs') = storesFrom a vs ++ storesFrom (a + vs.length) vs' := by
  induction vs with
  | nil => exact fun _ => rfl
  | cons v vs ih =>
    intro a
    rw [List.cons_append, storesFrom, ih, storesFrom, List.cons_append, List.length_cons,
      Nat.add_right_comm, Nat.add_assoc]

theorem applyWrites_storesFrom_of_outside (m : ℕ → α) (vs : List α) {a i : ℕ}
    (h : i < a ∨ a + vs.length ≤ i) : applyWrites m (storesFrom a vs) i = m i := by
  apply applyWrites_of_not_mem
  rw [storesFrom_addresses, List.mem_range'_1]
  omega

theorem applyWrites_storesFrom_getElem (vs : List α) :
    ∀ (m : ℕ → α) (a i : ℕ) (hi : i < vs.length),
      applyWrites m (storesFrom a vs) (a + i) = vs[i] := by
  induction vs with
  | nil => exact fun _ _ i hi => absurd hi (Nat.not_lt_zero i)
  | cons v vs ih =>
    intro m a i hi
    rw [storesFrom, applyWrites_cons]
    cases i with
    | zero =>
      rw [applyWrites_storesFrom_of_outside _ _ (.inl (by omega)), List.getElem_cons_zero,
        Nat.add_zero, Function.update_self]
    | succ i =>
      have hnext := ih (Function.update m a v) (a + 1) i (by simpa using hi)
      rw [Nat.add_right_comm, Nat.add_assoc] at hnext
      rw [hnext, List.getElem_cons_succ]

end PcbMill.DurableWrites
