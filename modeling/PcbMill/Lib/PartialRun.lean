import Mathlib.Logic.Basic

/-!
# Runs of a step function that may be undefined

An event that has no meaning in the state it comes in ends a run.  `Throughout P` says that this
does not happen and that `P` holds in every state the run passes through, `Admitted ok` that every
event that is reached meets its guard.
-/

namespace PcbMill.PartialRun

variable {σ ε : Type*}

/-- Every event is defined where it comes, and `P` holds in every state. -/
def Throughout (step : σ → ε → Option σ) (P : σ → Prop) : σ → List ε → Prop
  | s, [] => P s
  | s, e :: es => P s ∧ ∃ s', step s e = some s' ∧ Throughout step P s' es

/-- Every event meets its guard in the state it comes in. -/
def Admitted (step : σ → ε → Option σ) (ok : σ → ε → Prop) : σ → List ε → Prop
  | _, [] => True
  | s, e :: es => ok s e ∧ ∀ s', step s e = some s' → Admitted step ok s' es

instance Admitted.decidable {step : σ → ε → Option σ} {ok : σ → ε → Prop}
    [∀ s e, Decidable (ok s e)] : ∀ (s : σ) (es : List ε), Decidable (Admitted step ok s es)
  | _, [] => isTrue trivial
  | s, e :: es =>
    match hs : step s e with
    | none => decidable_of_iff (ok s e) ⟨fun h => ⟨h, fun _ heq => nomatch hs.symm.trans heq⟩,
        fun h => h.1⟩
    | some s' =>
      @decidable_of_iff _ (ok s e ∧ Admitted step ok s' es)
        (and_congr_right fun _ => ⟨fun h _ heq => Option.some.inj (hs.symm.trans heq) ▸ h,
          fun h => h s' hs⟩)
        (@instDecidableAnd _ _ _ (Admitted.decidable s' es))

variable {step : σ → ε → Option σ} {I P Q : σ → Prop} {ok : σ → ε → Prop}

theorem Throughout.mono (h : ∀ s, P s → Q s) {es : List ε} :
    ∀ {s : σ}, Throughout step P s es → Throughout step Q s es := by
  induction es with
  | nil => exact fun hs => h _ hs
  | cons e es ih =>
    rintro s ⟨hs, s', hstep, hrest⟩
    exact ⟨h _ hs, s', hstep, ih hrest⟩

/-- A guard that every event meets in any state. -/
theorem Admitted.of_forall {es : List ε} (h : ∀ e ∈ es, ∀ s, ok s e) {s : σ} :
    Admitted step ok s es := by
  induction es generalizing s with
  | nil => trivial
  | cons e es ih =>
    exact ⟨h e List.mem_cons_self s,
      fun _ _ => ih fun e' he' => h e' (List.mem_cons_of_mem e he')⟩

/-- **The invariant rule.**  What every admitted event is defined on and preserves holds
throughout an admitted run. -/
theorem throughout_of_admitted
    (hstep : ∀ s e, I s → ok s e → ∃ s', step s e = some s' ∧ I s') {es : List ε} :
    ∀ {s : σ}, I s → Admitted step ok s es → Throughout step I s es := by
  induction es with
  | nil => exact fun h _ => h
  | cons e es ih =>
    intro s h hes
    obtain ⟨s', hs', hI⟩ := hstep s e h hes.1
    exact ⟨h, s', hs', ih hI (hes.2 s' hs')⟩

end PcbMill.PartialRun
