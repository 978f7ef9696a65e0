import Mathlib.Tactic

/-!
# A ring read and written one element at a time

Two indices run round an array and no count is kept, so a ring written exactly full has its
indices equal again and reads as empty.  `Holds` says which elements the cells from the tail on
have, for a ring with its last place taken as well, where the indices no longer tell.
-/

namespace PcbMill.RingBuffer

variable {α : Type*} {buffer : ℕ → α} {size head tail : ℕ}

/-- The index after `i`: back to the start at the end of the array. -/
def next (size i : ℕ) : ℕ := if size ≤ i + 1 then 0 else i + 1

/-- How many elements the indices delimit. -/
def held (size head tail : ℕ) : ℕ := if tail ≤ head then head - tail else size - tail + head

/-- The elements the indices delimit, oldest first. -/
def contents (buffer : ℕ → α) (size head tail : ℕ) : List α :=
  (List.range (held size head tail)).map fun i => buffer ((tail + i) % size)

/-- Both indices lie in the array.  The indices of an empty array rest at zero. -/
structure InRing (size head tail : ℕ) : Prop where
  head_lt : head < max 1 size
  tail_lt : tail < max 1 size

theorem InRing.zero (size : ℕ) : InRing size 0 0 := ⟨by simp, by simp⟩

theorem next_lt (size i : ℕ) : next size i < max 1 size := by
  simp only [next]
  split <;> omega

theorem InRing.push (h : InRing size head tail) : InRing size (next size head) tail :=
  ⟨next_lt size head, h.tail_lt⟩

theorem InRing.pop (h : InRing size head tail) : InRing size head (next size tail) :=
  ⟨h.head_lt, next_lt size tail⟩

@[simp] theorem held_self (size i : ℕ) : held size i i = 0 := by simp [held]

@[simp] theorem contents_self (buffer : ℕ → α) (size i : ℕ) : contents buffer size i i = [] := by
  simp [contents]

@[simp] theorem contents_length : (contents buffer size head tail).length = held size head tail := by
  simp [contents]

theorem InRing.held_eq_zero (h : InRing size head tail) : held size head tail = 0 ↔ head = tail := by
  have := h.head_lt
  have := h.tail_lt
  simp only [held]
  split <;> omega

theorem InRing.contents_eq_nil (h : InRing size head tail) :
    contents buffer size head tail = [] ↔ head = tail := by
  rw [← List.length_eq_zero_iff, contents_length, h.held_eq_zero]

theorem InRing.held_lt (h : InRing size head tail) : held size head tail < max 1 size := by
  have := h.head_lt
  have := h.tail_lt
  simp only [held]
  split <;> omega

/-- The head is the tail advanced by what is held. -/
theorem InRing.head_eq (h : InRing size head tail) (hsize : 0 < size) :
    (tail + held size head tail) % size = head := by
  have := h.head_lt
  have := h.tail_lt
  simp only [held]
  split
  · rw [Nat.add_sub_cancel' ‹_›, Nat.mod_eq_of_lt (by omega)]
  · rw [show tail + (size - tail + head) = head + size by omega, Nat.add_mod_right,
      Nat.mod_eq_of_lt (by omega)]

theorem InRing.held_push (h : InRing size head tail) (hroom : held size head tail + 1 < size) :
    held size (next size head) tail = held size head tail + 1 := by
  have := h.head_lt
  have := h.tail_lt
  simp only [held, next] at *
  split_ifs at * <;> omega

theorem InRing.held_pop (h : InRing size head tail) (hne : head ≠ tail) :
    held size head tail = held size head (next size tail) + 1 := by
  have := h.head_lt
  have := h.tail_lt
  simp only [held, next]
  split_ifs <;> omega

/-- A cell in use is not the one at the head, since the offsets from the tail differ. -/
theorem InRing.cell_ne_head (h : InRing size head tail) {i : ℕ} (hi : i < held size head tail) :
    (tail + i) % size ≠ head := by
  have hlt := h.held_lt
  have hhead := h.head_eq (by omega)
  intro hcell
  have hoffset : i ≡ held size head tail [MOD size] :=
    Nat.ModEq.add_left_cancel' tail (hcell.trans hhead.symm)
  exact hi.ne (hoffset.eq_of_lt_of_lt (by omega) (by omega))

/-- The cell at the head is not in use. -/
theorem InRing.contents_store (h : InRing size head tail) (a : α) :
    contents (Function.update buffer head a) size head tail = contents buffer size head tail :=
  List.map_congr_left fun _ hi =>
    Function.update_of_ne (h.cell_ne_head (List.mem_range.mp hi)) _ _

/-- With room for one more, the element at the head comes behind the others. -/
theorem InRing.contents_advance (h : InRing size head tail)
    (hroom : held size head tail + 1 < size) :
    contents buffer size (next size head) tail = contents buffer size head tail ++ [buffer head] := by
  simp only [contents]
  rw [h.held_push hroom, List.range_succ, List.map_append, List.map_singleton,
    h.head_eq (by omega)]

/-- An element written into a ring with room for one more comes behind the others. -/
theorem InRing.contents_push (h : InRing size head tail) (hroom : held size head tail + 1 < size)
    (a : α) : contents (Function.update buffer head a) size (next size head) tail =
      contents buffer size head tail ++ [a] := by
  rw [h.contents_advance hroom, h.contents_store, Function.update_self]

/-- An element written into a ring without room makes it read as empty. -/
theorem InRing.next_eq_of_full (h : InRing size head tail)
    (hfull : ¬ held size head tail + 1 < size) : next size head = tail := by
  have := h.head_lt
  have := h.tail_lt
  simp only [held, next] at *
  split_ifs at * <;> omega

/-- The element read is the oldest one. -/
theorem InRing.contents_pop (h : InRing size head tail) (hne : head ≠ tail) :
    contents buffer size head tail = buffer tail :: contents buffer size head (next size tail) := by
  have := h.head_lt
  have := h.tail_lt
  simp only [contents]
  rw [h.held_pop hne, List.range_succ_eq_map, List.map_cons, List.map_map, Nat.add_zero,
    Nat.mod_eq_of_lt (by omega)]
  congr 1
  refine List.map_congr_left fun i _ => ?_
  show buffer ((tail + (i + 1)) % size) = _
  congr 1
  simp only [next]
  split
  · rw [show tail + (i + 1) = i + size by omega, Nat.add_mod_right, Nat.zero_add]
  · rw [Nat.add_assoc, Nat.add_comm 1 i]

/-! ### Rings filled to the last place -/

/-- The cells from the tail on have the elements of `q`, and the head comes behind them. -/
structure Holds (buffer : ℕ → α) (size head tail : ℕ) (q : List α) : Prop where
  inRing : InRing size head tail
  length_le : q.length ≤ size
  head_eq : head = (tail + q.length) % size
  cell : ∀ i (hi : i < q.length), buffer ((tail + i) % size) = q[i]

theorem next_eq {i : ℕ} (hi : i < size) : next size i = (i + 1) % size := by
  simp only [next]
  split
  · rw [show i + 1 = size by omega, Nat.mod_self]
  · rw [Nat.mod_eq_of_lt (by omega)]

theorem Holds.zero (buffer : ℕ → α) (size : ℕ) : Holds buffer size 0 0 [] where
  inRing := InRing.zero size
  length_le := Nat.zero_le _
  head_eq := (Nat.zero_mod size).symm
  cell := fun i hi => absurd hi (Nat.not_lt_zero i)

variable {q : List α} {a : α}

/-- A cell in use is not the one at the head while there is a place left. -/
theorem Holds.cell_ne_head (h : Holds buffer size head tail q) (hroom : q.length < size) {i : ℕ}
    (hi : i < q.length) : (tail + i) % size ≠ head := by
  intro heq
  have hmod : i ≡ q.length [MOD size] := Nat.ModEq.add_left_cancel' tail (heq.trans h.head_eq)
  exact hi.ne (hmod.eq_of_lt_of_lt (by omega) hroom)

theorem Holds.push (h : Holds buffer size head tail q) (hroom : q.length < size) (a : α) :
    Holds (Function.update buffer head a) size (next size head) tail (q ++ [a]) where
  inRing := h.inRing.push
  length_le := by
    rw [List.length_append, List.length_singleton]
    omega
  head_eq := by
    have hlt := h.inRing.head_lt
    rw [next_eq (by omega), h.head_eq, Nat.mod_add_mod, List.length_append, List.length_singleton,
      Nat.add_assoc]
  cell := by
    intro i hi
    rw [List.length_append, List.length_singleton] at hi
    by_cases hlast : i = q.length
    · subst hlast
      rw [← h.head_eq, Function.update_self, List.getElem_concat_length]
      rfl
    · have hold : i < q.length := by omega
      rw [Function.update_of_ne (h.cell_ne_head hroom hold), List.getElem_append_left hold]
      exact h.cell i hold

/-- The element read is the first, and the rest stays. -/
theorem Holds.pop (h : Holds buffer size head tail (a :: q)) :
    buffer tail = a ∧ Holds buffer size head (next size tail) q := by
  have hlength := h.length_le
  have htail := h.inRing.tail_lt
  rw [List.length_cons] at hlength
  have hnext := next_eq (show tail < size by omega)
  have hshift : ∀ i, (next size tail + i) % size = (tail + (i + 1)) % size := by
    intro i
    rw [hnext, Nat.mod_add_mod, Nat.add_assoc, Nat.add_comm 1 i]
  refine ⟨?_, h.inRing.pop, by omega, ?_, ?_⟩
  · have hfirst := h.cell 0 (by simp)
    rwa [Nat.add_zero, Nat.mod_eq_of_lt (by omega)] at hfirst
  · rw [hshift, h.head_eq, List.length_cons]
  · intro i hi
    rw [hshift, h.cell (i + 1) (by simpa using hi), List.getElem_cons_succ]

/-- As long as the last place is free, the indices tell whether there is an element. -/
theorem Holds.tail_ne_head_iff (h : Holds buffer size head tail q)
    (hroom : q = [] ∨ q.length < size) : tail ≠ head ↔ q ≠ [] := by
  have htail := h.inRing.tail_lt
  have hhead := h.inRing.head_lt
  constructor
  · rintro hne rfl
    apply hne
    have heq := h.head_eq
    rw [List.length_nil, Nat.add_zero] at heq
    rcases Nat.eq_zero_or_pos size with rfl | hpos
    · omega
    · rw [heq, Nat.mod_eq_of_lt (by omega)]
  · intro hq heq
    have hpos := List.length_pos_iff.mpr hq
    have hlt := hroom.resolve_left hq
    exact h.cell_ne_head hlt hpos (by rw [Nat.add_zero, Nat.mod_eq_of_lt (by omega), heq])

end PcbMill.RingBuffer
