import Mathlib.Data.List.Perm.Basic

/-!
# Reordering what commutes

The elements of a list have keys, and an element of one key may be taken before or after one of
another.  Two lists are the same but for that if they have the same elements of every key, in the
same order; what is done with them one after another, which may fail, then comes to the same.
-/

namespace PcbMill.Reordering

variable {ε κ σ : Type*} [DecidableEq κ]

/-- The elements of a key. -/
def withKey (key : ε → κ) (k : κ) (l : List ε) : List ε := l.filter fun a => key a = k

/-- Both lists have the same elements of every key, in the same order. -/
def Reordered (key : ε → κ) (l l' : List ε) : Prop := ∀ k, withKey key k l = withKey key k l'

variable {key : ε → κ} {l l' : List ε} {a : ε}

theorem withKey_cons_self : withKey key (key a) (a :: l) = a :: withKey key (key a) l :=
  List.filter_cons_of_pos (decide_eq_true rfl)

theorem withKey_cons_of_ne {k : κ} (h : key a ≠ k) : withKey key k (a :: l) = withKey key k l :=
  List.filter_cons_of_neg (by simpa using h)

theorem withKey_append {k : κ} : withKey key k (l ++ l') = withKey key k l ++ withKey key k l' :=
  List.filter_append _ _

theorem Reordered.symm (h : Reordered key l l') : Reordered key l' l := fun k => (h k).symm

/-- Any order will do where all keys differ. -/
theorem Reordered.of_perm (h : l.Perm l') (hkeys : (l.map key).Nodup) : Reordered key l l' := by
  intro k
  have hperm : (withKey key k l).Perm (withKey key k l') := h.filter _
  have hnodup : ((withKey key k l).map key).Nodup := hkeys.sublist (List.filter_sublist.map key)
  have hmem : ∀ b ∈ withKey key k l, key b = k := fun b hb => by simpa using (List.mem_filter.mp hb).2
  generalize withKey key k l = m, withKey key k l' = m' at hperm hnodup hmem
  match m with
  | [] => exact hperm.nil_eq
  | [b] => exact (List.perm_singleton.mp hperm.symm).symm
  | b :: c :: m =>
    have heq : key b = key c :=
      (hmem b (by simp)).trans (hmem c (by simp)).symm
    simp [heq] at hnodup

theorem Reordered.eq_nil (h : Reordered key [] l) : l = [] := by
  cases l with
  | nil => rfl
  | cons a l =>
    have hkey := h (key a)
    rw [withKey_cons_self] at hkey
    cases hkey

/-- The first element of one list is in the other behind elements of other keys only. -/
theorem Reordered.split (h : Reordered key (a :: l) l') : ∃ before after,
    l' = before ++ a :: after ∧ (∀ b ∈ before, key b ≠ key a) ∧
      Reordered key l (before ++ after) := by
  have hkey := h (key a)
  rw [withKey_cons_self] at hkey
  obtain ⟨before, after, rfl, hbefore, -, hafter⟩ := List.filter_eq_cons_iff.mp hkey.symm
  have hne : ∀ b ∈ before, key b ≠ key a := fun b hb => by simpa using hbefore b hb
  refine ⟨before, after, rfl, hne, fun k => ?_⟩
  have hk := h k
  rw [withKey_append] at hk ⊢
  by_cases heq : key a = k
  · subst heq
    have hnone : withKey key (key a) before = [] := List.filter_eq_nil_iff.mpr hbefore
    rw [withKey_cons_self, withKey_cons_self, hnone, List.nil_append] at hk
    rw [hnone, List.nil_append]
    exact (List.cons.inj hk).2
  · rwa [withKey_cons_of_ne heq, withKey_cons_of_ne heq] at hk

/-- Elements of different keys may be taken in either order. -/
def Commutes (key : ε → κ) (step : σ → ε → Option σ) : Prop :=
  ∀ s a b, key a ≠ key b →
    (step s a).bind (fun s => step s b) = (step s b).bind fun s => step s a

variable {step : σ → ε → Option σ}

omit [DecidableEq κ] in
/-- An element moves in front of those of other keys. -/
theorem Commutes.foldlM_move (h : Commutes key step) {before after : List ε}
    (hbefore : ∀ b ∈ before, key b ≠ key a) (s : σ) :
    (before ++ a :: after).foldlM step s = (a :: (before ++ after)).foldlM step s := by
  induction before generalizing s with
  | nil => rfl
  | cons b before ih =>
    have hrest : ∀ s, (before ++ a :: after).foldlM step s =
        (step s a).bind fun s => (before ++ after).foldlM step s := fun s => by
      rw [ih (fun c hc => hbefore c (List.mem_cons_of_mem b hc)), List.foldlM_cons]
      rfl
    have hswap := h s b a (hbefore b List.mem_cons_self)
    calc ((b :: before) ++ a :: after).foldlM step s
        = (step s b).bind fun s => (before ++ a :: after).foldlM step s := rfl
      _ = ((step s b).bind fun s => step s a).bind fun s => (before ++ after).foldlM step s := by
          rw [funext hrest, Option.bind_assoc]
      _ = ((step s a).bind fun s => step s b).bind fun s => (before ++ after).foldlM step s := by
          rw [hswap]
      _ = (a :: ((b :: before) ++ after)).foldlM step s := by
          rw [Option.bind_assoc]
          rfl

/-- **A reordering comes to the same.** -/
theorem Commutes.foldlM_eq (h : Commutes key step) (hl : Reordered key l l') (s : σ) :
    l.foldlM step s = l'.foldlM step s := by
  induction l generalizing l' s with
  | nil => rw [hl.eq_nil]
  | cons a l ih =>
    obtain ⟨before, after, rfl, hbefore, hrest⟩ := hl.split
    rw [h.foldlM_move hbefore, List.foldlM_cons, List.foldlM_cons]
    congr 1
    funext s
    exact ih hrest s

end PcbMill.Reordering
