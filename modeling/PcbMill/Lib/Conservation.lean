import PcbMill.Lib.Run

/-!
# Conservation of a stream, up to a number of lost elements

A pipe takes elements in and gives elements out.  `Accounts taken given lost` says that the
two sides differ by `lost` elements in length and that nothing is lost, duplicated or reordered
when `lost` is zero.  Losses only grow, so a run conserves its stream throughout exactly when
no step of it loses anything.
-/

namespace PcbMill.Conservation

open Run

variable {α : Type*} {taken given d : List α} {lost : ℕ}

structure Accounts (taken given : List α) (lost : ℕ) : Prop where
  length : taken.length = given.length + lost
  exact : lost = 0 → given = taken

theorem Accounts.intact_iff (h : Accounts taken given lost) : given = taken ↔ lost = 0 := by
  constructor
  · intro heq
    have hlength := h.length
    rw [heq] at hlength
    omega
  · exact h.exact

theorem Accounts.nil : Accounts ([] : List α) [] 0 := ⟨rfl, fun _ => rfl⟩

/-- Elements that go in and come out, or stay inside, behind all others. -/
theorem Accounts.append (h : Accounts taken given lost) (d : List α) :
    Accounts (taken ++ d) (given ++ d) lost where
  length := by
    have hlength := h.length
    rw [List.length_append, List.length_append]
    omega
  exact := fun hlost => by rw [h.exact hlost]

/-- The last elements inside are dropped. -/
theorem Accounts.drop (h : Accounts taken (given ++ d) lost) :
    Accounts taken given (lost + d.length) where
  length := by
    have hlength := h.length
    rw [List.length_append] at hlength
    omega
  exact := by
    intro hlost
    have hd : d = [] := List.length_eq_zero_iff.mp (by omega)
    rw [← h.exact (by omega), hd, List.append_nil]

theorem add_length_eq_iff : lost + d.length = lost ↔ d = [] := by
  rw [← List.length_eq_zero_iff]
  omega

/-! ### Runs -/

variable {σ ε : Type*} {step : σ → ε → σ} {I : ℕ → σ → Prop} {ok : σ → ε → Prop} {p q : Prop}
  {k : ℕ} {s : σ}

/-- `I` holds of the state with at least as many losses as before, and with no more exactly
when `p` holds. -/
def Loses (I : ℕ → σ → Prop) (k : ℕ) (s : σ) (p : Prop) : Prop :=
  ∃ k', I k' s ∧ k ≤ k' ∧ (k' = k ↔ p)

theorem Loses.none (h : I k s) (hp : p) : Loses I k s p := ⟨k, h, le_rfl, iff_of_true rfl hp⟩

theorem Loses.some {d : List α} (h : I (k + d.length) s) (hp : d = [] ↔ p) : Loses I k s p :=
  ⟨k + d.length, h, Nat.le_add_right _ _, add_length_eq_iff.trans hp⟩

theorem Loses.congr (h : Loses I k s p) (hpq : p ↔ q) : Loses I k s q := by
  obtain ⟨k', hI, hle, hiff⟩ := h
  exact ⟨k', hI, hle, hiff.trans hpq⟩

/-- One thing after another: nothing is lost when neither loses anything. -/
theorem Loses.trans {s' : σ} (h : Loses I k s p) (h' : ∀ k', I k' s → Loses I k' s' q) :
    Loses I k s' (p ∧ q) := by
  obtain ⟨k₁, hI, hle, hp⟩ := h
  obtain ⟨k₂, hI', hle', hq⟩ := h' k₁ hI
  refine ⟨k₂, hI', hle.trans hle', ?_⟩
  rw [← hp, ← hq]
  omega

theorem loses_run (hstep : ∀ k s e, I k s → Loses I k (step s e) (ok s e)) {es : List ε} :
    ∀ {k : ℕ} {s : σ}, I k s → Loses I k (runFrom step s es) (Guarded step ok s es) := by
  induction es with
  | nil => exact fun h => .none h trivial
  | cons e es ih => exact fun h => (hstep _ _ e h).trans fun k' hI => ih hI

/-- **The conservation rule.**  A run that starts with nothing lost keeps its stream whole in
every state exactly when every step meets its guard. -/
theorem always_iff_guarded_of_loses {P : σ → Prop} (hP : ∀ k s, I k s → (P s ↔ k = 0))
    (hstep : ∀ k s e, I k s → Loses I k (step s e) (ok s e)) {s : σ} (h : I 0 s) {es : List ε} :
    Always step P s es ↔ Guarded step ok s es := by
  apply always_iff_guarded (I := I 0) (fun s hI => (hP 0 s hI).mpr rfl) ?_ ?_ h
  · intro s e hI hok
    obtain ⟨k', hI', _, hk⟩ := hstep 0 s e hI
    rwa [hk.mpr hok] at hI'
  · intro s e hI hok hPs
    obtain ⟨k', hI', _, hk⟩ := hstep 0 s e hI
    exact hok (hk.mp ((hP k' _ hI').mp hPs))

end PcbMill.Conservation
