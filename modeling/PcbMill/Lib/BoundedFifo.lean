import Mathlib.Data.List.Basic

/-!
# Bounded queues

A queue with a capacity that carries the proof that it is kept.  A write takes what there is
room for, a read gives what there is.
-/

namespace PcbMill

/-- A queue of at most `capacity` elements, oldest first. -/
structure BoundedFifo (α : Type*) where
  items : List α
  capacity : ℕ
  bounded : items.length ≤ capacity

namespace BoundedFifo

variable {α : Type*} (q : BoundedFifo α)

def empty (α : Type*) (capacity : ℕ) : BoundedFifo α :=
  { items := [], capacity := capacity, bounded := Nat.zero_le capacity }

def clear : BoundedFifo α := empty α q.capacity

def space : ℕ := q.capacity - q.items.length

/-- The first elements of `data`, as many as there is room for, join the queue. -/
def write (data : List α) : BoundedFifo α :=
  { items := q.items ++ data.take q.space
    capacity := q.capacity
    bounded := by
      have := q.bounded
      rw [List.length_append, List.length_take, space]
      omega }

/-- The first `n` elements, or as many as there are, leave the queue. -/
def read (n : ℕ) : List α × BoundedFifo α :=
  (q.items.take n,
    { items := q.items.drop n
      capacity := q.capacity
      bounded := by
        have := q.bounded
        rw [List.length_drop]
        omega })

theorem length_write (data : List α) :
    (q.write data).items.length = q.items.length + min data.length q.space := by
  rw [write, List.length_append, List.length_take, Nat.min_comm]

/-- A queue that a write has filled holds its capacity. -/
theorem length_write_of_space_le {data : List α} (h : q.space ≤ data.length) :
    (q.write data).items.length = q.capacity := by
  have := q.bounded
  rw [q.length_write, Nat.min_eq_right h, space]
  omega

end BoundedFifo

end PcbMill
