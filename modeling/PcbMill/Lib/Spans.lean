import Mathlib

/-!
# Buffers laid out in a memory

Every key of a set has a span of addresses.  `Packed` says that the spans of the set lie between
two bounds and do not overlap.  Giving one key a span keeps this exactly when the span is within
the bounds and apart from those of the other keys.
-/

namespace PcbMill.Spans

/-- The addresses from `start` on, `size` of them. -/
structure Span where
  start : ℕ
  size : ℕ
  deriving DecidableEq

def Span.stop (a : Span) : ℕ := a.start + a.size

def Span.addresses (a : Span) : Set ℕ := Set.Ico a.start a.stop

/-- The spans do not overlap, compared by their bounds. -/
def Span.Apart (a b : Span) : Prop :=
  a.size = 0 ∨ b.size = 0 ∨ a.stop ≤ b.start ∨ b.stop ≤ a.start

instance (a b : Span) : Decidable (a.Apart b) := inferInstanceAs (Decidable (_ ∨ _))

theorem Span.apart_iff {a b : Span} : a.Apart b ↔ Disjoint a.addresses b.addresses := by
  simp only [Span.Apart, Span.addresses, Span.stop]
  rw [Set.Ico_disjoint_Ico]
  omega

theorem Span.Apart.symm {a b : Span} (h : a.Apart b) : b.Apart a := by
  rw [Span.apart_iff] at h ⊢
  exact h.symm

/-- Shorter spans from the same addresses on. -/
theorem Span.Apart.shorten {a b a' b' : Span} (h : a.Apart b) (ha : a'.start = a.start)
    (ha' : a'.size ≤ a.size) (hb : b'.start = b.start) (hb' : b'.size ≤ b.size) : a'.Apart b' := by
  simp only [Span.Apart, Span.stop] at *
  omega

variable {ι : Type*} {lo hi : ℕ} {live live' : Set ι} {span span' : ι → Span} {i : ι} {a : Span}

/-- The spans of the live keys lie between `lo` and `hi` and are pairwise disjoint. -/
structure Packed (lo hi : ℕ) (live : Set ι) (span : ι → Span) : Prop where
  above : ∀ i ∈ live, lo ≤ (span i).start
  below : ∀ i ∈ live, (span i).stop ≤ hi
  disjoint : live.PairwiseDisjoint fun i => (span i).addresses

/-- A span for key `i`: within the bounds, and apart from those of the other live keys. -/
structure Fits (lo hi : ℕ) (live : Set ι) (span : ι → Span) (i : ι) (a : Span) : Prop where
  above : lo ≤ a.start
  below : a.stop ≤ hi
  apart : ∀ j ∈ live, j ≠ i → a.Apart (span j)

theorem Packed.apart (h : Packed lo hi live span) {i j : ι} (hi' : i ∈ live) (hj : j ∈ live)
    (hne : i ≠ j) : (span i).Apart (span j) :=
  Span.apart_iff.mpr (h.disjoint hi' hj hne)

theorem packed_iff_apart : Packed lo hi live span ↔
    (∀ i ∈ live, lo ≤ (span i).start ∧ (span i).stop ≤ hi) ∧
      ∀ i ∈ live, ∀ j ∈ live, i ≠ j → (span i).Apart (span j) := by
  constructor
  · exact fun h => ⟨fun i hi' => ⟨h.above i hi', h.below i hi'⟩, fun i hi' j hj => h.apart hi' hj⟩
  · exact fun h => ⟨fun i hi' => (h.1 i hi').1, fun i hi' => (h.1 i hi').2,
      fun i hi' j hj hne => Span.apart_iff.mp (h.2 i hi' j hj hne)⟩

/-- Fewer keys, with the spans they had. -/
theorem Packed.mono (h : Packed lo hi live span) (hlive : live' ⊆ live)
    (hspan : ∀ i ∈ live', span' i = span i) : Packed lo hi live' span' := by
  rw [packed_iff_apart]
  constructor
  · intro i hi'
    rw [hspan i hi']
    exact ⟨h.above i (hlive hi'), h.below i (hlive hi')⟩
  · intro i hi' j hj hne
    rw [hspan i hi', hspan j hj]
    exact h.apart (hlive hi') (hlive hj) hne

/-- Other upper bounds that the spans respect. -/
theorem Packed.below_of {hi' : ℕ} (h : Packed lo hi live span)
    (hbelow : ∀ i ∈ live, (span i).stop ≤ hi') : Packed lo hi' live span :=
  ⟨h.above, hbelow, h.disjoint⟩

/-- **One key gets a span.** -/
theorem Packed.insert_iff (h : Packed lo hi live span) (hspan : ∀ j ∈ live, j ≠ i → span' j = span j) :
    Packed lo hi (insert i live) span' ↔ Fits lo hi live span i (span' i) := by
  constructor
  · intro h'
    have hself : i ∈ insert i live := Set.mem_insert i live
    refine ⟨h'.above i hself, h'.below i hself, fun j hj hne => ?_⟩
    rw [← hspan j hj hne]
    exact h'.apart hself (Set.mem_insert_of_mem i hj) hne.symm
  · intro hfits
    have hcases : ∀ j ∈ insert i live, j = i ∨ j ≠ i ∧ j ∈ live ∧ span' j = span j := by
      intro j hj
      by_cases hji : j = i
      · exact .inl hji
      · have hmem := Set.mem_of_mem_insert_of_ne hj hji
        exact .inr ⟨hji, hmem, hspan j hmem hji⟩
    rw [packed_iff_apart]
    constructor
    · intro j hj
      obtain rfl | ⟨-, hmem, hsame⟩ := hcases j hj
      · exact ⟨hfits.above, hfits.below⟩
      · rw [hsame]
        exact ⟨h.above j hmem, h.below j hmem⟩
    · intro j hj k hk hne
      obtain rfl | ⟨hji, hjmem, hjsame⟩ := hcases j hj
      · obtain rfl | ⟨hki, hkmem, hksame⟩ := hcases k hk
        · exact absurd rfl hne
        · rw [hksame]
          exact hfits.apart k hkmem hki
      · rw [hjsame]
        obtain rfl | ⟨-, hkmem, hksame⟩ := hcases k hk
        · exact (hfits.apart j hjmem hji).symm
        · rw [hksame]
          exact h.apart hjmem hkmem hne

end PcbMill.Spans
