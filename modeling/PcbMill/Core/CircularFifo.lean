import PcbMill.Core.CircularBuffer
import PcbMill.Lib.BoundedFifo
import PcbMill.Lib.Run

/-!
# The circular buffer as a bounded queue

The buffer runs beside a queue of its declared size.  Its indices cannot tell a full buffer from
an empty one, so the two part with the first write that leaves no room; no other call parts
them.
-/

namespace PcbMill

open FixedWidth Run

/-- A declared size. -/
structure BufferSize where
  value : ℕ
  pos : 0 < value
  lt : value < 2 ^ 31

inductive FifoEvent where
  | init (dataBuffer : ℕ → Byte) (size : BufferSize)
  | reset
  | read (maxLen : ℕ)
  | write (data : List Byte)

structure FifoRun where
  cb : CircularBuffer
  fifo : BoundedFifo Byte
  /-- What the latest read returned, and what it was to return. -/
  got : List Byte
  due : List Byte

def fifoStart (dataBuffer : ℕ → Byte) (size : BufferSize) : FifoRun :=
  { cb := circularBufferInit dataBuffer size.value, fifo := .empty Byte size.value
    got := [], due := [] }

def fifoStep (r : FifoRun) : FifoEvent → FifoRun
  | .init dataBuffer size =>
    { r with cb := circularBufferInit dataBuffer size.value, fifo := .empty Byte size.value }
  | .reset => { r with cb := circularBufferReset r.cb, fifo := r.fifo.clear }
  | .read maxLen =>
    { cb := (circularBufferRead r.cb maxLen).2, fifo := (r.fifo.read maxLen).2
      got := (circularBufferRead r.cb maxLen).1, due := (r.fifo.read maxLen).1 }
  | .write data => { r with cb := (circularBufferWrite r.cb data).2, fifo := r.fifo.write data }

/-- The buffer holds the queue, counts it, and reads return what they should. -/
structure FifoRun.Refines (r : FifoRun) : Prop where
  contents : r.cb.contents = r.fifo.items
  count : circularBufferCount r.cb = r.fifo.items.length
  space : circularBufferSpace r.cb = r.fifo.space
  read : r.got = r.due

/-- The condition on a write: it leaves room in the queue. -/
def LeavesRoom (r : FifoRun) : FifoEvent → Prop
  | .write data => data.length < r.fifo.space
  | _ => True

instance (r : FifoRun) : (e : FifoEvent) → Decidable (LeavesRoom r e)
  | .write _ => inferInstanceAs (Decidable (_ < _))
  | .init _ _ => inferInstanceAs (Decidable True)
  | .reset => inferInstanceAs (Decidable True)
  | .read _ => inferInstanceAs (Decidable True)

/-- The invariant of the runs that meet the condition. -/
structure FifoInv (r : FifoRun) : Prop where
  wf : r.cb.Wf
  size : r.cb.size = r.fifo.capacity
  contents : r.cb.contents = r.fifo.items
  read : r.got = r.due

variable {r : FifoRun}

theorem FifoInv.count (h : FifoInv r) : circularBufferCount r.cb = r.fifo.items.length := by
  rw [← h.contents, CircularBuffer.contents_length]

theorem FifoInv.space (h : FifoInv r) : circularBufferSpace r.cb = r.fifo.space := by
  rw [h.wf.space_eq, h.count, h.size, BoundedFifo.space]

theorem FifoInv.refines (h : FifoInv r) : r.Refines :=
  { contents := h.contents, count := h.count, space := h.space, read := h.read }

/-- With both indices at zero the buffer holds nothing. -/
theorem contents_of_indices_zero {cb : CircularBuffer} (hhead : cb.head = 0) (htail : cb.tail = 0) :
    cb.contents = [] := by
  rw [CircularBuffer.contents_eq_nil, circularBufferCount, hhead, htail, if_pos le_rfl]
  rfl

theorem fifoInv_start (dataBuffer : ℕ → Byte) (size : BufferSize) :
    FifoInv (fifoStart dataBuffer size) where
  wf := { size_pos := size.pos, size_lt := size.lt, head_lt := size.pos, tail_lt := size.pos }
  size := rfl
  contents := contents_of_indices_zero rfl rfl
  read := rfl

/-- What one call keeps. -/
theorem fifoInv_step (r : FifoRun) (e : FifoEvent) (h : FifoInv r) (hok : LeavesRoom r e) :
    FifoInv (fifoStep r e) := by
  cases e with
  | init dataBuffer size =>
    have hstart := fifoInv_start dataBuffer size
    exact { wf := hstart.wf, size := rfl, contents := hstart.contents, read := h.read }
  | reset =>
    exact { wf := { size_pos := h.wf.size_pos, size_lt := h.wf.size_lt
                    head_lt := h.wf.size_pos, tail_lt := h.wf.size_pos }
            size := h.size
            contents := contents_of_indices_zero rfl rfl
            read := h.read }
  | read maxLen =>
    refine { wf := circularBufferRead_wf h.wf maxLen, size := h.size, contents := ?_, read := ?_ }
    · show (circularBufferRead r.cb maxLen).2.contents = r.fifo.items.drop maxLen
      rw [circularBufferRead_contents h.wf, h.contents]
    · show (circularBufferRead r.cb maxLen).1 = r.fifo.items.take maxLen
      rw [circularBufferRead_bytes h.wf, h.contents]
  | write data =>
    refine { wf := circularBufferWrite_wf h.wf data, size := h.size, contents := ?_,
             read := h.read }
    have hok : data.length < r.fifo.space := hok
    have hlen := circularBufferWriteLen_eq h.wf data.length
    have hspace : r.fifo.space = r.cb.size - circularBufferCount r.cb := by
      rw [← h.space, h.wf.space_eq]
    have hlt := h.wf.count_lt
    show (circularBufferWrite r.cb data).2.contents = r.fifo.items ++ data.take r.fifo.space
    rw [circularBufferWrite_contents h.wf, if_neg (by omega), h.contents, hlen, hspace, Nat.min_comm,
      ← List.take_eq_take_min]

/-- The buffer reads as empty after a write that fills it. -/
theorem not_refines_of_filled (r : FifoRun) (e : FifoEvent) (h : FifoInv r)
    (hok : ¬ LeavesRoom r e) : ¬ (fifoStep r e).Refines := by
  cases e with
  | init dataBuffer size => exact absurd trivial hok
  | reset => exact absurd trivial hok
  | read maxLen => exact absurd trivial hok
  | write data =>
    have hfull : r.fifo.space ≤ data.length := Nat.le_of_not_lt hok
    intro hrefines
    have hcount : circularBufferCount (circularBufferWrite r.cb data).2 =
        (r.fifo.write data).items.length := hrefines.count
    have hlt := (circularBufferWrite_wf h.wf data).count_lt
    rw [hcount, r.fifo.length_write_of_space_le hfull] at hlt
    exact absurd h.size (Nat.ne_of_gt hlt)

/-- In every run the buffer is the bounded queue of its declared size exactly when no write
fills it. -/
theorem circularBuffer_refines_iff (dataBuffer : ℕ → Byte) (size : BufferSize)
    (es : List FifoEvent) :
    Always fifoStep FifoRun.Refines (fifoStart dataBuffer size) es ↔
      Guarded fifoStep LeavesRoom (fifoStart dataBuffer size) es :=
  always_iff_guarded (fun _ h => h.refines) fifoInv_step not_refines_of_filled
    (fifoInv_start dataBuffer size)

/-- Four bytes written to an empty buffer of four are not counted. -/
theorem full_buffer_counts_empty :
    ¬ ∀ (dataBuffer : ℕ → Byte) (size : BufferSize) (es : List FifoEvent),
      Always fifoStep FifoRun.Refines (fifoStart dataBuffer size) es := by
  intro h
  have hcount := (h (fun _ => 0#8) { value := 4, pos := by decide, lt := by decide }
    [.write [1#8, 2#8, 3#8, 4#8]]).last.count
  exact absurd hcount (by decide)

end PcbMill
