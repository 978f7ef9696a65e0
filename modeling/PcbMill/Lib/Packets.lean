import Mathlib.Tactic

/-!
# Splitting a byte string into packets

A sender with packets of at most `size` bytes that was asked for `limit` bytes sends its bytes
in full packets and ends with a short one, or with none when the bytes fill the limit.  A sender
without a limit stops with the packet that holds the last byte; of no bytes it makes one empty
packet.
-/

namespace PcbMill.Packets

variable {α : Type*} {size limit : ℕ} {bytes : List α} {packets : List (List α)}

/-- `packets` carries `bytes` in order: all but the last are full, and the last is empty exactly
when the bytes end at a packet boundary before the limit. -/
structure Packeted (size limit : ℕ) (bytes : List α) (packets : List (List α)) : Prop where
  nonempty : packets ≠ []
  flatten : packets.flatten = bytes
  full : ∀ p ∈ packets.dropLast, p.length = size
  empty : packets.getLast? = some [] ↔ bytes.length < limit ∧ size ∣ bytes.length

/-- The last packet is short or reaches the limit. -/
theorem Packeted.single (hlimit : 0 < limit)
    (hend : bytes.length < size ∨ bytes.length = limit) : Packeted size limit bytes [bytes] where
  nonempty := List.cons_ne_nil _ _
  flatten := List.append_nil _
  full := fun p hp => absurd hp List.not_mem_nil
  empty := by
    rw [List.getLast?_singleton, Option.some.injEq, ← List.length_eq_zero_iff]
    constructor
    · intro hzero
      exact ⟨hzero ▸ hlimit, hzero ▸ dvd_zero size⟩
    · rintro ⟨hlt, hdvd⟩
      rcases hend with hshort | hall
      · exact Nat.eq_zero_of_dvd_of_lt hdvd hshort
      · omega

/-- A full packet before the rest. -/
theorem Packeted.cons {p : List α} (h : Packeted size (limit - size) bytes packets)
    (hp : p.length = size) : Packeted size limit (p ++ bytes) (p :: packets) where
  nonempty := List.cons_ne_nil _ _
  flatten := by rw [List.flatten_cons, h.flatten]
  full := by
    intro q hq
    rw [List.dropLast_cons_of_ne_nil h.nonempty] at hq
    rcases List.mem_cons.mp hq with rfl | hq
    · exact hp
    · exact h.full q hq
  empty := by
    have hlast : (p :: packets).getLast? = packets.getLast? := by
      rw [List.getLast?_cons_of_ne_nil h.nonempty]
    rw [hlast, h.empty, List.length_append, hp, Nat.dvd_add_right (dvd_refl size),
      Nat.lt_sub_iff_add_lt']

/-! ### The packets of a sender without a limit -/

/-- The first `k` packets. -/
def firstPackets (size : ℕ) (bytes : List α) (k : ℕ) : List (List α) :=
  (List.range k).map fun i => (bytes.drop (i * size)).take size

/-- The number of packets of `total` bytes. -/
def packetCount (size total : ℕ) : ℕ := (total - 1) / size + 1

theorem firstPackets_succ (size : ℕ) (bytes : List α) (k : ℕ) :
    firstPackets size bytes (k + 1) =
      firstPackets size bytes k ++ [(bytes.drop (k * size)).take size] := by
  rw [firstPackets, List.range_succ, List.map_append]
  rfl

theorem firstPackets_dropLast (size : ℕ) (bytes : List α) (k : ℕ) :
    (firstPackets size bytes (k + 1)).dropLast = firstPackets size bytes k := by
  rw [firstPackets_succ, List.dropLast_concat]

/-- The first packets carry the first bytes. -/
theorem firstPackets_flatten (size : ℕ) (bytes : List α) (k : ℕ) :
    (firstPackets size bytes k).flatten = bytes.take (k * size) := by
  induction k with
  | zero => rw [Nat.zero_mul, List.take_zero]; rfl
  | succ k ih =>
    rw [firstPackets_succ, List.flatten_append, ih, List.flatten_singleton, Nat.succ_mul,
      List.take_add]

/-- As long as the bytes last, packets are full. -/
theorem firstPackets_full {k : ℕ} (hk : k * size ≤ bytes.length) :
    ∀ p ∈ firstPackets size bytes k, p.length = size := by
  intro p hp
  obtain ⟨i, hi, rfl⟩ := List.mem_map.mp hp
  have hnext : (i + 1) * size ≤ k * size := Nat.mul_le_mul_right size (List.mem_range.mp hi)
  rw [Nat.succ_mul] at hnext
  rw [List.length_take, List.length_drop]
  omega

/-- None of the packets up to the last byte is empty, if there are bytes. -/
theorem nil_mem_firstPackets {k : ℕ} (hsize : 0 < size) (hk : k * size < bytes.length ∨ k = 0) :
    [] ∈ firstPackets size bytes (k + 1) ↔ bytes = [] := by
  rw [firstPackets_succ, List.mem_append, List.mem_singleton]
  have hle : k * size ≤ bytes.length := by
    rcases hk with hlt | rfl
    · exact hlt.le
    · rw [Nat.zero_mul]
      exact Nat.zero_le _
  constructor
  · rintro (hmem | hlast)
    · have hfull := firstPackets_full hle [] hmem
      exact absurd hfull hsize.ne
    · have hlength := congrArg List.length hlast
      rw [List.length_take, List.length_drop, List.length_nil] at hlength
      rcases hk with hlt | rfl
      · omega
      · rw [Nat.zero_mul] at hlength
        exact List.length_eq_zero_iff.mp (by omega)
  · rintro rfl
    exact .inr (by simp)

theorem lt_packetCount {k total : ℕ} (hsize : 0 < size) (hk : k * size < total ∨ k = 0) :
    k < packetCount size total := by
  rw [packetCount, Nat.lt_succ_iff, Nat.le_div_iff_mul_le hsize]
  rcases hk with hlt | rfl
  · omega
  · rw [Nat.zero_mul]
    exact Nat.zero_le _

end PcbMill.Packets
