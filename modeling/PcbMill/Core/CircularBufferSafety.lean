import PcbMill.Core.CircularFifo
import PcbMill.Lib.Checked

/-!
# The circular buffer with its checks made

The functions of `circular_buffer.c` once more, with every unsigned operation, every remainder and
every block copy checked.  From an initialised buffer no check of any sequence of calls fails, so
the indices, the copies and the 32-bit arithmetic are all in bounds.
-/

namespace PcbMill

open FixedWidth Checked Segment Run

/-! ### The checked functions -/

def circularBufferCountChecked (cb : CircularBuffer) : Option ℕ :=
  if cb.tail ≤ cb.head then checkedSub32 cb.head cb.tail
  else do
    let rest ← checkedSub32 cb.size cb.tail
    checkedAdd32 rest cb.head

def circularBufferSpaceChecked (cb : CircularBuffer) : Option ℕ := do
  let count ← circularBufferCountChecked cb
  checkedSub32 cb.size count

def circularBufferReadChecked (cb : CircularBuffer) (maxLen : ℕ) :
    Option (List Byte × CircularBuffer) := do
  let available ← circularBufferCountChecked cb
  let taken := if available < maxLen then available else maxLen
  let firstPart ← checkedSub32 cb.size cb.tail
  let firstPart := if taken < firstPart then taken else firstPart
  checkedSegment cb.tail firstPart cb.size
  checkedSegment 0 firstPart maxLen
  let first := readSegment cb.buffer cb.tail firstPart
  let secondPart ← checkedSub32 taken firstPart
  let second ← if 0 < secondPart then do
      checkedSegment 0 secondPart cb.size
      checkedSegment firstPart secondPart maxLen
      some (readSegment cb.buffer 0 secondPart)
    else some []
  let tail ← checkedAdd32 cb.tail taken
  let tail ← checkedMod tail cb.size
  some (first ++ second, { cb with tail := tail })

def circularBufferWriteLenChecked (cb : CircularBuffer) (writeLen : ℕ) : Option ℕ := do
  let capacity ← if cb.tail ≤ cb.head then do
      let rest ← checkedSub32 cb.size cb.head
      checkedAdd32 rest cb.tail
    else checkedSub32 cb.tail cb.head
  some (if capacity < writeLen then capacity else writeLen)

def circularBufferWriteChecked (cb : CircularBuffer) (data : List Byte) :
    Option (Bool × CircularBuffer) := do
  let writeLen ← circularBufferWriteLenChecked cb data.length
  let firstPart ← checkedSub32 cb.size cb.head
  let firstPart := if writeLen < firstPart then writeLen else firstPart
  checkedSegment cb.head firstPart cb.size
  checkedSegment 0 firstPart data.length
  let buffer := writeSegment cb.buffer cb.head (data.take firstPart)
  let secondPart ← checkedSub32 writeLen firstPart
  let buffer ← if 0 < secondPart then do
      checkedSegment 0 secondPart cb.size
      checkedSegment firstPart secondPart data.length
      some (writeSegment buffer 0 ((data.drop firstPart).take secondPart))
    else some buffer
  let head ← checkedAdd32 cb.head writeLen
  let head ← checkedMod head cb.size
  some (decide (0 < writeLen), { cb with buffer := buffer, head := head })

/-! ### Calls -/

/-- The bytes of a caller, whose number is a 32-bit length. -/
abbrev CallerData := { data : List Byte // data.length < 2 ^ 32 }

inductive BufferCall where
  | init (dataBuffer : ℕ → Byte) (size : BufferSize)
  | reset
  | count
  | space
  | read (maxLen : BitVec 32)
  | write (data : CallerData)

def bufferStep (cb : CircularBuffer) : BufferCall → CircularBuffer
  | .init dataBuffer size => circularBufferInit dataBuffer size.value
  | .reset => circularBufferReset cb
  | .count => cb
  | .space => cb
  | .read maxLen => (circularBufferRead cb maxLen.toNat).2
  | .write data => (circularBufferWrite cb data.val).2

/-- A call with its checks, which fails when one of them does. -/
def bufferStepChecked (cb : CircularBuffer) : BufferCall → Option CircularBuffer
  | .init dataBuffer size => some (circularBufferInit dataBuffer size.value)
  | .reset => some (circularBufferReset cb)
  | .count => (circularBufferCountChecked cb).map fun _ => cb
  | .space => (circularBufferSpaceChecked cb).map fun _ => cb
  | .read maxLen => (circularBufferReadChecked cb maxLen.toNat).map Prod.snd
  | .write data => (circularBufferWriteChecked cb data.val).map Prod.snd

/-! ### No check fails -/

section Checks

variable {cb : CircularBuffer}

theorem circularBufferCountChecked_eq (h : cb.Wf) :
    circularBufferCountChecked cb = some (circularBufferCount cb) := by
  have hsize := h.size_lt
  have hhead := h.head_lt
  have htail := h.tail_lt
  rw [circularBufferCountChecked, circularBufferCount]
  split
  · exact checkedSub32_of_le ‹_› (by omega)
  · have hrest := sub32_of_le htail.le (show cb.size < 2 ^ 32 by omega)
    rw [checkedSub32_of_le htail.le (by omega)]
    exact checkedAdd32_of_lt (by omega)

theorem circularBufferSpaceChecked_eq (h : cb.Wf) :
    circularBufferSpaceChecked cb = some (circularBufferSpace cb) := by
  have hsize := h.size_lt
  rw [circularBufferSpaceChecked, circularBufferCountChecked_eq h]
  exact checkedSub32_of_le h.count_lt.le (by omega)

theorem circularBufferReadChecked_eq (h : cb.Wf) (maxLen : ℕ) :
    circularBufferReadChecked cb maxLen = some (circularBufferRead cb maxLen) := by
  have hsize := h.size_lt
  have htail := h.tail_lt
  have hlt := h.count_lt
  have hcount : (if cb.tail ≤ cb.head then sub32 cb.head cb.tail
      else add32 (sub32 cb.size cb.tail) cb.head) = circularBufferCount cb := rfl
  simp only [circularBufferReadChecked, circularBufferRead, hcount]
  rw [circularBufferCountChecked_eq h]
  generalize htaken : (if circularBufferCount cb < maxLen then circularBufferCount cb else maxLen) = n
  have hn : n ≤ circularBufferCount cb ∧ n ≤ maxLen := by
    rw [← htaken]
    split <;> omega
  have hfirst := sub32_of_le htail.le (show cb.size < 2 ^ 32 by omega)
  simp only [Option.bind_eq_bind, Option.bind_some, htaken]
  rw [checkedSub32_of_le htail.le (by omega), Option.bind_some, hfirst]
  generalize hk : (if n < cb.size - cb.tail then n else cb.size - cb.tail) = k
  have hkn : k ≤ n ∧ cb.tail + k ≤ cb.size := by
    rw [← hk]
    split <;> omega
  have hsecond := sub32_of_le hkn.1 (show n < 2 ^ 32 by omega)
  rw [checkedSegment_of_le hkn.2, Option.bind_some, checkedSegment_of_le (by omega), Option.bind_some,
    checkedSub32_of_le hkn.1 (by omega), Option.bind_some, hsecond,
    checkedAdd32_of_lt (show cb.tail + n < 2 ^ 32 by omega)]
  by_cases hmore : 0 < n - k
  · rw [if_pos hmore, if_pos hmore, checkedSegment_of_le (by omega), Option.bind_some,
      checkedSegment_of_le (by omega)]
    simp only [Option.bind_some, checkedMod_of_pos h.size_pos]
  · rw [if_neg hmore, if_neg hmore]
    simp only [Option.bind_some, checkedMod_of_pos h.size_pos]

theorem circularBufferWriteLenChecked_eq (h : cb.Wf) (n : ℕ) :
    circularBufferWriteLenChecked cb n = some (circularBufferWriteLen cb n) := by
  have hsize := h.size_lt
  have hhead := h.head_lt
  have htail := h.tail_lt
  rw [circularBufferWriteLenChecked, circularBufferWriteLen]
  by_cases hle : cb.tail ≤ cb.head
  · have hrest := sub32_of_le hhead.le (show cb.size < 2 ^ 32 by omega)
    rw [if_pos hle, if_pos hle, checkedSub32_of_le hhead.le (by omega)]
    simp only [Option.bind_eq_bind, Option.bind_some]
    rw [checkedAdd32_of_lt (by omega)]
    rfl
  · rw [if_neg hle, if_neg hle, checkedSub32_of_le (by omega) (by omega)]
    rfl

theorem circularBufferWriteChecked_eq (h : cb.Wf) (data : List Byte) :
    circularBufferWriteChecked cb data = some (circularBufferWrite cb data) := by
  have hsize := h.size_lt
  have hhead := h.head_lt
  have hlt := h.count_lt
  have hlen := circularBufferWriteLen_eq h data.length
  simp only [circularBufferWriteChecked, circularBufferWrite]
  rw [circularBufferWriteLenChecked_eq h]
  generalize circularBufferWriteLen cb data.length = n at hlen ⊢
  have hfirst := sub32_of_le hhead.le (show cb.size < 2 ^ 32 by omega)
  simp only [Option.bind_eq_bind, Option.bind_some]
  rw [checkedSub32_of_le hhead.le (by omega), Option.bind_some, hfirst]
  generalize hk : (if n < cb.size - cb.head then n else cb.size - cb.head) = k
  have hkn : k ≤ n ∧ cb.head + k ≤ cb.size := by
    rw [← hk]
    split <;> omega
  have hrest : n - k ≤ cb.size := by omega
  have hsecond := sub32_of_le hkn.1 (show n < 2 ^ 32 by omega)
  rw [checkedSegment_of_le hkn.2, Option.bind_some, checkedSegment_of_le (by omega), Option.bind_some,
    checkedSub32_of_le hkn.1 (by omega), Option.bind_some, hsecond,
    checkedAdd32_of_lt (show cb.head + n < 2 ^ 32 by omega)]
  by_cases hmore : 0 < n - k
  · rw [if_pos hmore, if_pos hmore, checkedSegment_of_le (by omega), Option.bind_some,
      checkedSegment_of_le (by omega)]
    simp only [Option.bind_some, checkedMod_of_pos h.size_pos]
  · rw [if_neg hmore, if_neg hmore]
    simp only [Option.bind_some, checkedMod_of_pos h.size_pos]

/-! ### Runs -/

theorem bufferStep_wf (h : cb.Wf) (c : BufferCall) : (bufferStep cb c).Wf := by
  cases c with
  | init dataBuffer size =>
    exact { size_pos := size.pos, size_lt := size.lt, head_lt := size.pos, tail_lt := size.pos }
  | reset => exact { h with head_lt := h.size_pos, tail_lt := h.size_pos }
  | count => exact h
  | space => exact h
  | read maxLen => exact circularBufferRead_wf h _
  | write data => exact circularBufferWrite_wf h _

theorem bufferStepChecked_eq (h : cb.Wf) (c : BufferCall) :
    bufferStepChecked cb c = some (bufferStep cb c) := by
  cases c with
  | init dataBuffer size => rfl
  | reset => rfl
  | count => rw [bufferStepChecked, circularBufferCountChecked_eq h]; rfl
  | space => rw [bufferStepChecked, circularBufferSpaceChecked_eq h]; rfl
  | read maxLen => rw [bufferStepChecked, circularBufferReadChecked_eq h]; rfl
  | write data => rw [bufferStepChecked, circularBufferWriteChecked_eq h]; rfl

end Checks

/-- **Any sequence of calls on an initialised buffer** passes every check of its arithmetic and its
copies, and leaves both indices below the size. -/
theorem circular_buffer_safe (dataBuffer : ℕ → Byte) (size : BufferSize) (cs : List BufferCall) :
    cs.foldlM bufferStepChecked (circularBufferInit dataBuffer size.value) =
        some (runFrom bufferStep (circularBufferInit dataBuffer size.value) cs) ∧
      Always bufferStep (fun cb => cb.head < cb.size ∧ cb.tail < cb.size)
        (circularBufferInit dataBuffer size.value) cs := by
  have hinit : (circularBufferInit dataBuffer size.value).Wf :=
    { size_pos := size.pos, size_lt := size.lt, head_lt := size.pos, tail_lt := size.pos }
  constructor
  · exact foldlM_eq_runFrom (I := CircularBuffer.Wf) (fun cb c h => bufferStepChecked_eq h c)
      (fun cb c h => bufferStep_wf h c) hinit
  · exact (always_of_invariant (I := CircularBuffer.Wf) (fun cb c h => bufferStep_wf h c) hinit).mono
      fun cb h => ⟨h.head_lt, h.tail_lt⟩

end PcbMill
