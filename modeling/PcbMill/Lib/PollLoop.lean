import Mathlib.Tactic

/-!
# Loops that poll once a tick

A loop tests whether it should go on waiting, and while it should looks for an answer.  Ticks
are counted from its start.  How long it waits is decided by the first test that fails.
-/

namespace PcbMill.PollLoop

/-- How a loop stands after a poll. -/
inductive Poll where
  | waiting
  | answered
  | gaveUp
  deriving DecidableEq

/-- One poll of a loop still waiting. -/
def pollOnce (waits answer : Bool) : Poll :=
  if waits then if answer then .answered else .waiting else .gaveUp

/-- The loop after its poll at tick `k`: `waits` is its test, `answer` what it waits for. -/
def poll (waits answer : ℕ → Bool) : ℕ → Poll
  | 0 => pollOnce (waits 0) (answer 0)
  | k + 1 =>
    match poll waits answer k with
    | .waiting => pollOnce (waits (k + 1)) (answer (k + 1))
    | s => s

/-- Whatever answers it may get, the loop gives up once `n` ticks have passed without one, and not
before. -/
def WaitsFor (answers : Set (ℕ → Bool)) (waits : ℕ → Bool) (n : ℕ) : Prop :=
  ∀ answer ∈ answers, ∀ k,
    poll waits answer k = .gaveUp ↔ n ≤ k ∧ ∀ j < n, answer j = false

variable {waits answer : ℕ → Bool} {n j k : ℕ}

/-- Nothing has ended the loop before tick `k`. -/
def Undecided (waits answer : ℕ → Bool) (k : ℕ) : Prop :=
  ∀ j < k, waits j = true ∧ answer j = false

theorem poll_of_undecided (h : Undecided waits answer (k + 1)) : poll waits answer k = .waiting := by
  induction k with
  | zero =>
    obtain ⟨hwaits, hanswer⟩ := h 0 (by omega)
    simp [poll, pollOnce, hwaits, hanswer]
  | succ k ih =>
    obtain ⟨hwaits, hanswer⟩ := h (k + 1) (by omega)
    simp [poll, pollOnce, ih fun j hj => h j (by omega), hwaits, hanswer]

/-- What the first tick decides stands. -/
theorem poll_of_decided (h : Undecided waits answer j)
    (hdecided : pollOnce (waits j) (answer j) ≠ .waiting) (hk : j ≤ k) :
    poll waits answer k = pollOnce (waits j) (answer j) := by
  induction k, hk using Nat.le_induction with
  | base =>
    cases j with
    | zero => rfl
    | succ j => rw [poll, poll_of_undecided h]
  | succ k hk ih =>
    rw [poll, ih]
    split
    · contradiction
    · rfl

theorem pollOnce_eq_waiting_iff {w a : Bool} :
    pollOnce w a = .waiting ↔ w = true ∧ a = false := by
  cases w <;> cases a <;> simp [pollOnce]

theorem undecided_or_decided (waits answer : ℕ → Bool) (k : ℕ) :
    Undecided waits answer (k + 1) ∨
      ∃ j ≤ k, Undecided waits answer j ∧ pollOnce (waits j) (answer j) ≠ .waiting := by
  by_cases h : ∃ j, j ≤ k ∧ pollOnce (waits j) (answer j) ≠ .waiting
  · classical
    obtain ⟨hle, hdecided⟩ := Nat.find_spec h
    refine .inr ⟨Nat.find h, hle, fun i hi => ?_, hdecided⟩
    have hearlier := Nat.find_min h hi
    exact pollOnce_eq_waiting_iff.mp (by_contra fun hne => hearlier ⟨by omega, hne⟩)
  · refine .inl fun j hj => pollOnce_eq_waiting_iff.mp (by_contra fun hne => h ⟨j, by omega, hne⟩)

/-- **When a loop gives up**: at the first tick at which its test fails. -/
theorem poll_eq_gaveUp_iff : poll waits answer k = .gaveUp ↔
    ∃ j ≤ k, Undecided waits answer j ∧ waits j = false := by
  constructor
  · intro hgaveUp
    obtain hundecided | ⟨j, hj, hbefore, hdecided⟩ := undecided_or_decided waits answer k
    · rw [poll_of_undecided hundecided] at hgaveUp
      cases hgaveUp
    · rw [poll_of_decided hbefore hdecided hj] at hgaveUp
      refine ⟨j, hj, hbefore, ?_⟩
      cases hwaits : waits j with
      | false => rfl
      | true => cases hanswer : answer j <;> simp [pollOnce, hwaits, hanswer] at hgaveUp
  · rintro ⟨j, hj, hbefore, hwaits⟩
    have honce : pollOnce (waits j) (answer j) = .gaveUp := by simp [pollOnce, hwaits]
    rw [poll_of_decided hbefore (by rw [honce]; decide) hj, honce]

/-- **Waiting for `n` ticks**: the test fails at tick `n` for the first time. -/
theorem waitsFor_iff {answers : Set (ℕ → Bool)} (hsilence : (fun _ => false) ∈ answers) :
    WaitsFor answers waits n ↔ (∀ j < n, waits j = true) ∧ waits n = false := by
  constructor
  · intro h
    have hnever := h _ hsilence
    have hbefore : ∀ j < n, waits j = true := by
      intro j hj
      induction j using Nat.strong_induction_on with
      | _ j ih =>
        by_contra hfalse
        have hgaveUp := poll_eq_gaveUp_iff.mpr
          ⟨j, le_rfl, fun i hi => ⟨ih i hi (by omega), rfl⟩, Bool.eq_false_iff.mpr hfalse⟩
        have hle := ((hnever j).mp hgaveUp).1
        omega
    obtain ⟨j, hj, -, hwaits⟩ := poll_eq_gaveUp_iff.mp ((hnever n).mpr ⟨le_rfl, fun _ _ => rfl⟩)
    obtain hlt | rfl := hj.lt_or_eq
    · rw [hbefore j hlt] at hwaits
      cases hwaits
    · exact ⟨hbefore, hwaits⟩
  · rintro ⟨hbefore, hwaits⟩ answer - k
    rw [poll_eq_gaveUp_iff]
    constructor
    · rintro ⟨j, hj, hundecided, hfails⟩
      have hle : n ≤ j := by
        by_contra hlt
        rw [hbefore j (by omega)] at hfails
        cases hfails
      exact ⟨hle.trans hj, fun i hi => (hundecided i (by omega)).2⟩
    · rintro ⟨hle, hanswer⟩
      exact ⟨n, hle, fun i hi => ⟨hbefore i hi, hanswer i hi⟩, hwaits⟩

end PcbMill.PollLoop
