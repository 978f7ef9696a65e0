import PcbMill.Lib.FixedWidth
import PcbMill.Lib.Segment

/-!
# The circular buffer (`circular_buffer.h`, `circular_buffer.c`)

`head == tail` is the only empty test, so a buffer written exactly full reads as empty: the
write lemma below keeps that case apart instead of assuming it away.
-/

namespace PcbMill

open FixedWidth Segment

/-- A byte of memory. -/
abbrev Byte := BitVec 8

/-- `circular_buffer_t`.  The backing array is a store, indexed below `size`. -/
structure CircularBuffer where
  buffer : ℕ → Byte
  size : ℕ
  head : ℕ
  tail : ℕ

def circularBufferInit (dataBuffer : ℕ → Byte) (size : ℕ) : CircularBuffer :=
  { buffer := dataBuffer, size := size, head := 0, tail := 0 }

def circularBufferReset (cb : CircularBuffer) : CircularBuffer := { cb with head := 0, tail := 0 }

def circularBufferCount (cb : CircularBuffer) : ℕ :=
  if cb.tail ≤ cb.head then sub32 cb.head cb.tail
  else add32 (sub32 cb.size cb.tail) cb.head

def circularBufferSpace (cb : CircularBuffer) : ℕ := sub32 cb.size (circularBufferCount cb)

/-- `circular_buffer_read`: the bytes copied to the caller's buffer, whose number is the
returned length, and the buffer after. -/
def circularBufferRead (cb : CircularBuffer) (maxLen : ℕ) : List Byte × CircularBuffer :=
  let available := if cb.tail ≤ cb.head then sub32 cb.head cb.tail
    else add32 (sub32 cb.size cb.tail) cb.head
  let maxLen := if available < maxLen then available else maxLen
  let firstPart := sub32 cb.size cb.tail
  let firstPart := if maxLen < firstPart then maxLen else firstPart
  let secondPart := sub32 maxLen firstPart
  (readSegment cb.buffer cb.tail firstPart ++
      (if 0 < secondPart then readSegment cb.buffer 0 secondPart else []),
    { cb with tail := add32 cb.tail maxLen % cb.size })

/-- The number of bytes `circular_buffer_write` takes: its `write_len` after the clamp to the
free capacity. -/
def circularBufferWriteLen (cb : CircularBuffer) (writeLen : ℕ) : ℕ :=
  let capacity := if cb.tail ≤ cb.head then add32 (sub32 cb.size cb.head) cb.tail
    else sub32 cb.tail cb.head
  if capacity < writeLen then capacity else writeLen

/-- `circular_buffer_write`: whether anything was written, and the buffer after. -/
def circularBufferWrite (cb : CircularBuffer) (data : List Byte) : Bool × CircularBuffer :=
  let writeLen := circularBufferWriteLen cb data.length
  let firstPart := sub32 cb.size cb.head
  let firstPart := if writeLen < firstPart then writeLen else firstPart
  let buffer := writeSegment cb.buffer cb.head (data.take firstPart)
  let secondPart := sub32 writeLen firstPart
  let buffer := if 0 < secondPart
    then writeSegment buffer 0 ((data.drop firstPart).take secondPart) else buffer
  (decide (0 < writeLen), { cb with buffer := buffer, head := add32 cb.head writeLen % cb.size })

/-! ### The bytes held -/

/-- The indices stay inside the backing array, whose size a 32-bit sum of two indices fits. -/
structure CircularBuffer.Wf (cb : CircularBuffer) : Prop where
  size_pos : 0 < cb.size
  size_lt : cb.size < 2 ^ 31
  head_lt : cb.head < cb.size
  tail_lt : cb.tail < cb.size

/-- The bytes held, oldest first. -/
def CircularBuffer.contents (cb : CircularBuffer) : List Byte :=
  (List.range (circularBufferCount cb)).map fun i => cb.buffer ((cb.tail + i) % cb.size)

variable {cb : CircularBuffer}

theorem CircularBuffer.Wf.count_eq (h : cb.Wf) :
    circularBufferCount cb =
      if cb.tail ≤ cb.head then cb.head - cb.tail else cb.size - cb.tail + cb.head := by
  have := h.size_lt
  have := h.head_lt
  have := h.tail_lt
  simp only [circularBufferCount]
  split
  · exact sub32_of_le (by omega) (by omega)
  · rw [sub32_of_le (by omega) (by omega), add32_of_lt (by omega)]

/-- The count is never the size: a full buffer counts as empty. -/
theorem CircularBuffer.Wf.count_lt (h : cb.Wf) : circularBufferCount cb < cb.size := by
  have := h.head_lt
  have := h.tail_lt
  rw [h.count_eq]
  split <;> omega

theorem CircularBuffer.Wf.space_eq (h : cb.Wf) :
    circularBufferSpace cb = cb.size - circularBufferCount cb := by
  have := h.size_lt
  exact sub32_of_le h.count_lt.le (by omega)

theorem CircularBuffer.contents_length : cb.contents.length = circularBufferCount cb := by
  simp [CircularBuffer.contents]

theorem CircularBuffer.contents_eq_nil : cb.contents = [] ↔ circularBufferCount cb = 0 := by
  rw [← List.length_eq_zero_iff, CircularBuffer.contents_length]

/-- The head is the tail advanced by the count. -/
theorem CircularBuffer.Wf.head_eq (h : cb.Wf) :
    cb.head = (cb.tail + circularBufferCount cb) % cb.size := by
  have := h.head_lt
  have := h.tail_lt
  rw [h.count_eq]
  split
  · rw [Nat.mod_eq_of_lt (by omega)]
    omega
  · rw [show cb.tail + (cb.size - cb.tail + cb.head) = cb.head + cb.size by omega,
      Nat.add_mod_right, Nat.mod_eq_of_lt (by omega)]

/-- An advance by less than the size wraps at most once. -/
theorem mod_size_cases {i n size : ℕ} (hi : i < size) (hn : n ≤ size) :
    (i + n) % size = if i + n < size then i + n else i + n - size := by
  split
  · exact Nat.mod_eq_of_lt (by omega)
  · rw [Nat.mod_eq_sub_mod (by omega), Nat.mod_eq_of_lt (by omega)]

/-! ### Reading -/

theorem circularBufferRead_wf (h : cb.Wf) (maxLen : ℕ) : (circularBufferRead cb maxLen).2.Wf :=
  { size_pos := h.size_pos, size_lt := h.size_lt, head_lt := h.head_lt
    tail_lt := Nat.mod_lt _ h.size_pos }

/-- A read of `n` bytes in at most two copies is the first `n` bytes held. -/
theorem readSegment_wrap (h : cb.Wf) {n : ℕ} (hn : n ≤ circularBufferCount cb) :
    readSegment cb.buffer cb.tail (min n (cb.size - cb.tail)) ++
        readSegment cb.buffer 0 (n - (cb.size - cb.tail)) = cb.contents.take n := by
  have hlt := h.count_lt
  have htail := h.tail_lt
  apply List.ext_getElem
  · simp [CircularBuffer.contents]
    omega
  · intro i h₁ h₂
    have hi : i < n := by
      rw [List.length_take] at h₂
      omega
    rw [List.getElem_append]
    split
    · rename_i hfirst
      simp only [readSegment_length] at hfirst
      simp only [getElem_readSegment, List.getElem_take, CircularBuffer.contents,
        List.getElem_map, List.getElem_range, Nat.mod_eq_of_lt (show cb.tail + i < cb.size by omega)]
    · rename_i hsecond
      simp only [readSegment_length] at hsecond
      simp only [getElem_readSegment, readSegment_length, List.getElem_take,
        CircularBuffer.contents, List.getElem_map, List.getElem_range]
      rw [mod_size_cases htail (by omega), if_neg (by omega)]
      congr 1
      omega

/-- A read takes the bytes held, as many as were asked for, in at most two copies. -/
theorem circularBufferRead_eq (h : cb.Wf) {maxLen n : ℕ}
    (hn : min maxLen (circularBufferCount cb) = n) :
    circularBufferRead cb maxLen =
      (readSegment cb.buffer cb.tail (min n (cb.size - cb.tail)) ++
          readSegment cb.buffer 0 (n - (cb.size - cb.tail)),
        { cb with tail := (cb.tail + n) % cb.size }) := by
  have hlt := h.count_lt
  have hsize := h.size_lt
  have htail := h.tail_lt
  have hcount : (if cb.tail ≤ cb.head then sub32 cb.head cb.tail
      else add32 (sub32 cb.size cb.tail) cb.head) = circularBufferCount cb := rfl
  simp only [circularBufferRead, hcount]
  rw [show (if circularBufferCount cb < maxLen then circularBufferCount cb else maxLen) = n by
      split <;> omega, sub32_of_le htail.le (by omega),
    show (if n < cb.size - cb.tail then n else cb.size - cb.tail) =
      min n (cb.size - cb.tail) by split <;> omega,
    sub32_of_le (Nat.min_le_left _ _) (by omega), add32_of_lt (by omega)]
  have hsecond : (if 0 < n - min n (cb.size - cb.tail) then
      readSegment cb.buffer 0 (n - min n (cb.size - cb.tail)) else []) =
        readSegment cb.buffer 0 (n - (cb.size - cb.tail)) := by
    split
    · congr 1
      omega
    · rw [show n - (cb.size - cb.tail) = 0 by omega, readSegment_zero]
  rw [hsecond]

/-- `circular_buffer_read` returns the first bytes held, as many as were asked for. -/
theorem circularBufferRead_bytes (h : cb.Wf) (maxLen : ℕ) :
    (circularBufferRead cb maxLen).1 = cb.contents.take maxLen := by
  rw [circularBufferRead_eq h rfl]
  dsimp only
  rw [readSegment_wrap h (Nat.min_le_right _ _), ← CircularBuffer.contents_length,
    ← List.take_eq_take_min]

theorem circularBufferRead_tail (h : cb.Wf) (maxLen : ℕ) :
    (circularBufferRead cb maxLen).2.tail =
      (cb.tail + min maxLen (circularBufferCount cb)) % cb.size := by
  rw [circularBufferRead_eq h rfl]

theorem circularBufferRead_count (h : cb.Wf) (maxLen : ℕ) :
    circularBufferCount (circularBufferRead cb maxLen).2 =
      circularBufferCount cb - maxLen := by
  have hlt := h.count_lt
  have hc := h.count_eq
  have htail := h.tail_lt
  have hhead := h.head_lt
  rw [(circularBufferRead_wf h maxLen).count_eq, circularBufferRead_tail h,
    mod_size_cases htail (by omega)]
  show (if _ ≤ cb.head then cb.head - _ else cb.size - _ + cb.head) = _
  split at hc <;> split <;> split <;> omega

/-- `circular_buffer_read` leaves the bytes after the ones it returned. -/
theorem circularBufferRead_contents (h : cb.Wf) (maxLen : ℕ) :
    (circularBufferRead cb maxLen).2.contents = cb.contents.drop maxLen := by
  have hlt := h.count_lt
  have htail := h.tail_lt
  apply List.ext_getElem
  · rw [List.length_drop, CircularBuffer.contents_length, CircularBuffer.contents_length,
      circularBufferRead_count h]
  · intro i h₁ h₂
    rw [List.length_drop, CircularBuffer.contents_length] at h₂
    simp only [CircularBuffer.contents, List.getElem_map, List.getElem_range,
      List.getElem_drop, circularBufferRead_tail h]
    show cb.buffer _ = _
    congr 1
    rw [show (circularBufferRead cb maxLen).2.size = cb.size from rfl, Nat.mod_add_mod,
      Nat.min_eq_left (by omega), Nat.add_assoc]

/-! ### Writing -/

theorem circularBufferWriteLen_eq (h : cb.Wf) (n : ℕ) :
    circularBufferWriteLen cb n = min n (cb.size - circularBufferCount cb) := by
  have hsize := h.size_lt
  have hhead := h.head_lt
  have htail := h.tail_lt
  rw [h.count_eq]
  simp only [circularBufferWriteLen]
  split
  · rw [sub32_of_le hhead.le (by omega), add32_of_lt (by omega)]
    split <;> omega
  · rw [sub32_of_le (by omega) (by omega)]
    split <;> omega

theorem circularBufferWrite_wf (h : cb.Wf) (data : List Byte) :
    (circularBufferWrite cb data).2.Wf :=
  { size_pos := h.size_pos, size_lt := h.size_lt, tail_lt := h.tail_lt
    head_lt := Nat.mod_lt _ h.size_pos }

theorem circularBufferWrite_size (data : List Byte) :
    (circularBufferWrite cb data).2.size = cb.size := rfl

theorem circularBufferWrite_head (h : cb.Wf) (data : List Byte) :
    (circularBufferWrite cb data).2.head =
      (cb.head + circularBufferWriteLen cb data.length) % cb.size := by
  have hsize := h.size_lt
  have hhead := h.head_lt
  have hlen := circularBufferWriteLen_eq h data.length
  simp only [circularBufferWrite]
  rw [add32_of_lt (by omega)]

/-- The count after a write, with the wrap to zero of a write that fills the buffer. -/
theorem circularBufferWrite_count (h : cb.Wf) (data : List Byte) :
    circularBufferCount (circularBufferWrite cb data).2 =
      if circularBufferCount cb + circularBufferWriteLen cb data.length = cb.size then 0
      else circularBufferCount cb + circularBufferWriteLen cb data.length := by
  have hlt := h.count_lt
  have hc := h.count_eq
  have htail := h.tail_lt
  have hhead := h.head_lt
  have hlen := circularBufferWriteLen_eq h data.length
  rw [(circularBufferWrite_wf h data).count_eq, circularBufferWrite_head h,
    mod_size_cases hhead (by omega)]
  show (if cb.tail ≤ _ then _ - cb.tail else cb.size - cb.tail + _) = _
  split at hc <;> split <;> split <;> split <;> omega

/-- The cells a write of at most two copies leaves, in terms of the offset from the head. -/
theorem circularBufferWrite_buffer (h : cb.Wf) (data : List Byte) {i : ℕ}
    (hi : i < cb.size) :
    (circularBufferWrite cb data).2.buffer ((cb.head + i) % cb.size) =
      if i < circularBufferWriteLen cb data.length
      then data.getD i (cb.buffer ((cb.head + i) % cb.size))
      else cb.buffer ((cb.head + i) % cb.size) := by
  have hsize := h.size_lt
  have hhead := h.head_lt
  have hlen := circularBufferWriteLen_eq h data.length
  simp only [circularBufferWrite]
  generalize circularBufferWriteLen cb data.length = n at hlen ⊢
  rw [sub32_of_le hhead.le (by omega), show (if n < cb.size - cb.head then n
      else cb.size - cb.head) = min n (cb.size - cb.head) by split <;> omega,
    sub32_of_le (Nat.min_le_left _ _) (by omega), mod_size_cases hhead hi.le]
  by_cases hwrap : cb.head + i < cb.size
  · -- the cell lies in the first copy's range, before the end of the array
    rw [if_pos hwrap]
    have hsecond : ∀ m : ℕ → Byte, (if 0 < n - min n (cb.size - cb.head) then
        writeSegment m 0 ((data.drop (min n (cb.size - cb.head))).take
          (n - min n (cb.size - cb.head))) else m) (cb.head + i) = m (cb.head + i) := by
      intro m
      split
      · rw [writeSegment_of_ge]
        simp only [List.length_take, List.length_drop]
        omega
      · rfl
    rw [hsecond]
    by_cases hin : i < n
    · rw [if_pos hin, writeSegment_of_mem _ _ _ _ (by simp; omega), List.getElem_take,
        List.getD_eq_getElem _ _ (by omega)]
    · rw [if_neg hin, writeSegment_of_ge]
      simp only [List.length_take]
      omega
  · -- the cell lies past the wrap, so only the second copy can reach it
    rw [if_neg hwrap]
    have hfirst : writeSegment cb.buffer cb.head (data.take (min n (cb.size - cb.head)))
        (cb.head + i - cb.size) = cb.buffer (cb.head + i - cb.size) := by
      exact writeSegment_of_lt _ _ (by omega)
    by_cases hin : i < n
    · rw [if_pos (by omega), if_pos hin,
        show cb.head + i - cb.size = 0 + (i - (cb.size - cb.head)) by omega,
        writeSegment_of_mem _ _ _ _ (by simp; omega), List.getElem_take, List.getElem_drop,
        List.getD_eq_getElem _ _ (by omega)]
      congr 1
      omega
    · rw [if_neg hin]
      split
      · rw [writeSegment_of_ge, hfirst]
        simp only [List.length_take, List.length_drop]
        omega
      · exact hfirst

/-- `circular_buffer_write` appends the bytes it takes, unless they fill the buffer: then the
head meets the tail and the buffer reads as empty. -/
theorem circularBufferWrite_contents (h : cb.Wf) (data : List Byte) :
    (circularBufferWrite cb data).2.contents =
      if circularBufferCount cb + circularBufferWriteLen cb data.length = cb.size then []
      else cb.contents ++ data.take (circularBufferWriteLen cb data.length) := by
  have hcount := circularBufferWrite_count h data
  have hlen := circularBufferWriteLen_eq h data.length
  have hlt := h.count_lt
  by_cases hfull : circularBufferCount cb + circularBufferWriteLen cb data.length = cb.size
  · rw [if_pos hfull] at hcount ⊢
    exact CircularBuffer.contents_eq_nil.mpr hcount
  · rw [if_neg hfull] at hcount ⊢
    apply List.ext_getElem
    · rw [CircularBuffer.contents_length, hcount, List.length_append,
        CircularBuffer.contents_length, List.length_take]
      omega
    · intro i h₁ h₂
      rw [CircularBuffer.contents_length, hcount] at h₁
      rw [List.getElem_append]
      simp only [CircularBuffer.contents_length]
      -- the cell of offset `i` from the tail, as an offset from the head
      have hcell : (cb.tail + i) % cb.size = (cb.head + (cb.size + i -
          circularBufferCount cb) % cb.size) % cb.size := by
        rw [Nat.add_mod_mod, h.head_eq, Nat.mod_add_mod,
          show cb.tail + circularBufferCount cb + (cb.size + i - circularBufferCount cb)
            = cb.tail + i + cb.size by omega, Nat.add_mod_right]
      have hbuf := circularBufferWrite_buffer h data
        (Nat.mod_lt (cb.size + i - circularBufferCount cb) h.size_pos)
      rw [← hcell] at hbuf
      simp only [CircularBuffer.contents, List.getElem_map, List.getElem_range,
        show (circularBufferWrite cb data).2.tail = cb.tail from rfl,
        circularBufferWrite_size]
      rw [hbuf]
      by_cases hold : i < circularBufferCount cb
      · rw [dif_pos hold, if_neg]
        rw [Nat.mod_eq_of_lt (by omega)]
        omega
      · have hoff : (cb.size + i - circularBufferCount cb) % cb.size =
            i - circularBufferCount cb := by
          rw [show cb.size + i - circularBufferCount cb = i - circularBufferCount cb + cb.size
            by omega, Nat.add_mod_right, Nat.mod_eq_of_lt (by omega)]
        rw [dif_neg hold, hoff, if_pos (by omega), List.getElem_take,
          List.getD_eq_getElem _ _ (by omega)]

end PcbMill
