import Mathlib.Tactic

/-!
# Runs of a deterministic step function

A run feeds a list of events to a step function.  `Always P` says that `P` holds in every
state the run passes through, `Guarded ok` that every event met its guard in the state it
found.  The induction over the run is done once here; what remains for a system is what one
event preserves, and, where the guard is exact, what one unguarded event breaks.
-/

namespace PcbMill.Run

variable {σ ε : Type*} {step : σ → ε → σ}

/-- The state a run ends in. -/
def runFrom (step : σ → ε → σ) (s : σ) (es : List ε) : σ := es.foldl step s

/-- `P` holds in every state of the run. -/
def Always (step : σ → ε → σ) (P : σ → Prop) : σ → List ε → Prop
  | s, [] => P s
  | s, e :: es => P s ∧ Always step P (step s e) es

/-- Every event of the run meets its guard in the state it is applied to. -/
def Guarded (step : σ → ε → σ) (ok : σ → ε → Prop) : σ → List ε → Prop
  | _, [] => True
  | s, e :: es => ok s e ∧ Guarded step ok (step s e) es

instance Guarded.decidable {ok : σ → ε → Prop} [∀ s e, Decidable (ok s e)] :
    ∀ (s : σ) (es : List ε), Decidable (Guarded step ok s es)
  | _, [] => isTrue trivial
  | s, e :: es => @instDecidableAnd _ _ _ (Guarded.decidable (step s e) es)

instance Always.decidable {P : σ → Prop} [∀ s, Decidable (P s)] :
    ∀ (s : σ) (es : List ε), Decidable (Always step P s es)
  | s, [] => inferInstanceAs (Decidable (P s))
  | s, e :: es => @instDecidableAnd _ _ _ (Always.decidable (step s e) es)

@[simp] theorem runFrom_nil (s : σ) : runFrom step s [] = s := rfl

@[simp] theorem runFrom_cons (s : σ) (e : ε) (es : List ε) :
    runFrom step s (e :: es) = runFrom step (step s e) es := rfl

theorem runFrom_append (s : σ) (es es' : List ε) :
    runFrom step s (es ++ es') = runFrom step (runFrom step s es) es' :=
  List.foldl_append

theorem Always.last {P : σ → Prop} {es : List ε} :
    ∀ {s : σ}, Always step P s es → P (runFrom step s es) := by
  induction es with
  | nil => exact fun h => h
  | cons e es ih => exact fun h => ih h.2

theorem Always.head {P : σ → Prop} {s : σ} {es : List ε} (h : Always step P s es) : P s := by
  cases es with
  | nil => exact h
  | cons e es => exact h.1

theorem Always.mono {P Q : σ → Prop} (hPQ : ∀ s, P s → Q s) {es : List ε} :
    ∀ {s : σ}, Always step P s es → Always step Q s es := by
  induction es with
  | nil => exact fun h => hPQ _ h
  | cons e es ih => exact fun h => ⟨hPQ _ h.1, ih h.2⟩

theorem guarded_append {ok : σ → ε → Prop} {es es' : List ε} :
    ∀ {s : σ}, Guarded step ok s (es ++ es') ↔
      Guarded step ok s es ∧ Guarded step ok (runFrom step s es) es' := by
  induction es with
  | nil => simp [Guarded]
  | cons e es ih =>
    intro s
    rw [List.cons_append, Guarded, Guarded, ih, and_assoc, runFrom_cons]

theorem guarded_congr {ok ok' : σ → ε → Prop} (h : ∀ s e, ok s e ↔ ok' s e) {es : List ε} :
    ∀ {s : σ}, Guarded step ok s es ↔ Guarded step ok' s es := by
  induction es with
  | nil => exact Iff.rfl
  | cons e es ih => exact and_congr (h _ e) ih

/-- A guard on the events alone. -/
theorem guarded_of_forall {ok : ε → Prop} {es : List ε} :
    ∀ {s : σ}, (∀ e ∈ es, ok e) → Guarded step (fun _ e => ok e) s es := by
  induction es with
  | nil => exact fun _ => trivial
  | cons e es ih =>
    exact fun h => ⟨h e List.mem_cons_self, ih fun e' he' => h e' (List.mem_cons_of_mem e he')⟩

/-- A guard that an invariant implies is met throughout. -/
theorem guarded_of_invariant {I : σ → Prop} {ok : σ → ε → Prop} (hok : ∀ s e, I s → ok s e)
    (hstep : ∀ s e, I s → I (step s e)) {es : List ε} :
    ∀ {s : σ}, I s → Guarded step ok s es := by
  induction es with
  | nil => exact fun _ => trivial
  | cons e es ih => exact fun h => ⟨hok _ e h, ih (hstep _ e h)⟩

/-- Guards that agree where an invariant holds, on runs that keep it. -/
theorem guarded_iff_of_invariant {I : σ → Prop} {ok ok' : σ → ε → Prop}
    (hiff : ∀ s e, I s → (ok s e ↔ ok' s e)) (hstep : ∀ s e, I s → ok' s e → I (step s e))
    {es : List ε} : ∀ {s : σ}, I s → (Guarded step ok s es ↔ Guarded step ok' s es) := by
  induction es with
  | nil => exact fun _ => Iff.rfl
  | cons e es ih =>
    intro s h
    constructor
    · exact fun ⟨hok, hg⟩ => ⟨(hiff s e h).mp hok, (ih (hstep s e h ((hiff s e h).mp hok))).mp hg⟩
    · exact fun ⟨hok, hg⟩ => ⟨(hiff s e h).mpr hok, (ih (hstep s e h hok)).mpr hg⟩

/-- A guard that implies another where an invariant holds that it keeps. -/
theorem guarded_mono_of_invariant {I : σ → Prop} {ok ok' : σ → ε → Prop}
    (hok : ∀ s e, I s → ok s e → ok' s e) (hstep : ∀ s e, I s → ok s e → I (step s e))
    {es : List ε} : ∀ {s : σ}, I s → Guarded step ok s es → Guarded step ok' s es := by
  induction es with
  | nil => exact fun _ _ => trivial
  | cons e es ih => exact fun h hg => ⟨hok _ e h hg.1, ih (hstep _ e h hg.1) hg.2⟩

/-- **The invariant rule.**  What guarded events preserve holds in every state of a guarded
run. -/
theorem always_of_guarded {I : σ → Prop} {ok : σ → ε → Prop}
    (hstep : ∀ s e, I s → ok s e → I (step s e)) {es : List ε} :
    ∀ {s : σ}, I s → Guarded step ok s es → Always step I s es := by
  induction es with
  | nil => exact fun h _ => h
  | cons e es ih => exact fun h hg => ⟨h, ih (hstep _ e h hg.1) hg.2⟩

/-- The invariant rule where every event preserves the invariant. -/
theorem always_of_invariant {I : σ → Prop} (hstep : ∀ s e, I s → I (step s e)) {es : List ε} :
    ∀ {s : σ}, I s → Always step I s es := by
  induction es with
  | nil => exact fun h => h
  | cons e es ih => exact fun h => ⟨h, ih (hstep _ e h)⟩

/-- The invariant rule for runs whose states are known to meet `A`. -/
theorem always_of_guarded_of_always {A I : σ → Prop} {ok : σ → ε → Prop}
    (hstep : ∀ s e, I s → A (step s e) → ok s e → I (step s e)) {es : List ε} :
    ∀ {s : σ}, I s → Always step A s es → Guarded step ok s es → Always step I s es := by
  induction es with
  | nil => exact fun h _ _ => h
  | cons e es ih =>
    exact fun h ha hg => ⟨h, ih (hstep _ e h ha.2.head hg.1) ha.2 hg.2⟩

/-- **The exact-guard rule.**  In runs whose events all meet `A`: when moreover an event that
misses its guard breaks the property at once, the property holds throughout a run exactly when
the run is guarded. -/
theorem always_iff_guarded_within {I P : σ → Prop} {A ok : σ → ε → Prop}
    (hsound : ∀ s, I s → P s)
    (hstep : ∀ s e, I s → A s e → ok s e → I (step s e))
    (hbreak : ∀ s e, I s → A s e → ¬ ok s e → ¬ P (step s e)) {es : List ε} :
    ∀ {s : σ}, I s → Guarded step A s es → (Always step P s es ↔ Guarded step ok s es) := by
  induction es with
  | nil => exact fun h _ => ⟨fun _ => trivial, fun _ => hsound _ h⟩
  | cons e es ih =>
    intro s h ha
    by_cases hok : ok s e
    · have hrest := ih (hstep s e h ha.1 hok) ha.2
      exact ⟨fun hp => ⟨hok, hrest.mp hp.2⟩, fun hg => ⟨hsound s h, hrest.mpr hg.2⟩⟩
    · exact ⟨fun hp => absurd hp.2.head (hbreak s e h ha.1 hok), fun hg => absurd hg.1 hok⟩

/-- The exact-guard rule for all runs. -/
theorem always_iff_guarded {I P : σ → Prop} {ok : σ → ε → Prop}
    (hsound : ∀ s, I s → P s)
    (hstep : ∀ s e, I s → ok s e → I (step s e))
    (hbreak : ∀ s e, I s → ¬ ok s e → ¬ P (step s e)) {es : List ε} {s : σ} (h : I s) :
    Always step P s es ↔ Guarded step ok s es :=
  always_iff_guarded_within (A := fun _ _ => True) hsound (fun s e h _ => hstep s e h)
    (fun s e h _ => hbreak s e h) h
    (guarded_of_invariant (I := fun _ => True) (fun _ _ _ => trivial) (fun _ _ _ => trivial) trivial)

/-- The exact-guard rule for a property of the states together with a property of the steps. -/
theorem always_and_guarded_iff {I P : σ → Prop} {Q ok : σ → ε → Prop}
    (hsound : ∀ s, I s → P s)
    (hstep : ∀ s e, I s → ok s e → I (step s e))
    (hok : ∀ s e, I s → ok s e → Q s e)
    (hbreak : ∀ s e, I s → ¬ ok s e → Q s e → ¬ P (step s e)) {es : List ε} :
    ∀ {s : σ}, I s → (Always step P s es ∧ Guarded step Q s es ↔ Guarded step ok s es) := by
  induction es with
  | nil => exact fun h => ⟨fun _ => trivial, fun _ => ⟨hsound _ h, trivial⟩⟩
  | cons e es ih =>
    intro s h
    by_cases hs : ok s e
    · have hrest := ih (hstep s e h hs)
      constructor
      · exact fun ⟨ha, hq⟩ => ⟨hs, hrest.mp ⟨ha.2, hq.2⟩⟩
      · intro hg
        obtain ⟨ha, hq⟩ := hrest.mpr hg.2
        exact ⟨⟨hsound s h, ha⟩, hok s e h hs, hq⟩
    · exact ⟨fun ⟨ha, hq⟩ => absurd ha.2.head (hbreak s e h hs hq.1), fun hg => absurd hg.1 hs⟩

/-! ### Simulation -/

section Simulation

variable {τ : Type*} {step' : τ → ε → τ} {R : σ → τ → Prop}

theorem always_iff_of_simulation {P : σ → Prop} {P' : τ → Prop}
    (hstep : ∀ s t e, R s t → R (step s e) (step' t e)) (hP : ∀ s t, R s t → (P s ↔ P' t))
    {es : List ε} :
    ∀ {s : σ} {t : τ}, R s t → (Always step P s es ↔ Always step' P' t es) := by
  induction es with
  | nil => exact fun h => hP _ _ h
  | cons e es ih => exact fun h => and_congr (hP _ _ h) (ih (hstep _ _ e h))

theorem guarded_iff_of_simulation {ok : σ → ε → Prop} {ok' : τ → ε → Prop}
    (hstep : ∀ s t e, R s t → R (step s e) (step' t e))
    (hok : ∀ s t e, R s t → (ok s e ↔ ok' t e)) {es : List ε} :
    ∀ {s : σ} {t : τ}, R s t → (Guarded step ok s es ↔ Guarded step' ok' t es) := by
  induction es with
  | nil => exact fun _ => Iff.rfl
  | cons e es ih => exact fun h => and_congr (hok _ _ e h) (ih (hstep _ _ e h))

end Simulation

end PcbMill.Run
