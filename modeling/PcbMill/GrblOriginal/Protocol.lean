import PcbMill.GrblOriginal.Serial
import PcbMill.Lib.PartialRun

/-!
# The lines of the controller

`protocol_main_loop` reads the bytes the interrupt has put into the receive ring, leaves out
comments, white space and the sign of block delete, and executes what has come together at the end
of a line.  A line longer than the buffer is reported and forgotten, and what follows begins anew.

The interrupt comes between any two statements of `serial_read`, and before each round of the loop.
A reset is not modelled: it ends the loop.
-/

namespace PcbMill

open RingBuffer PartialRun

def lineBufferSize : ℕ := 80

/-- `COMMENT_NONE`, `COMMENT_TYPE_PARENTHESES` and `COMMENT_TYPE_SEMICOLON`. -/
inductive Comment where
  | none
  | parentheses
  | semicolon
  deriving DecidableEq

def isEndOfLine (c : Byte) : Bool := c = 0x0A#8 || c = 0x0D#8

/-- What the loop does with the lines: `protocol_execute_line`, or the report of an overflow. -/
inductive ProtocolOutput where
  | executeLine (line : List Byte)
  | overflow
  deriving DecidableEq

/-- Where the main program is: before a statement of `serial_read`, or of the loop. -/
inductive SerialReadPc where
  | read
  | fetch (tail : ℕ)
  | advance (data : Byte) (tail : ℕ)
  | char (c : Byte)
  deriving DecidableEq

/-- The variables of the loop.  What went into the ring and what was done is recorded. -/
structure ProtocolRun where
  serial : Serial
  line : ℕ → Byte
  charCounter : ℕ
  comment : Comment
  pc : SerialReadPc
  accepted : List Byte
  output : List ProtocolOutput

/-- `line[char_counter]` is written, which must be in the buffer. -/
def setLine (r : ProtocolRun) (c : Byte) : Option ProtocolRun :=
  if r.charCounter < lineBufferSize then
    some { r with line := Function.update r.line r.charCounter c }
  else none

/-- The zero-terminated string in the buffer. -/
def lineString (line : ℕ → Byte) : List Byte :=
  ((List.range lineBufferSize).map line).takeWhile fun c => c ≠ 0#8

def upcase (c : Byte) : Byte :=
  if 0x61#8 ≤ c ∧ c ≤ 0x7A#8 then c - 0x61#8 + 0x41#8 else c

/-- The body of the loop for a byte. -/
def protocolChar (r : ProtocolRun) (c : Byte) : Option ProtocolRun :=
  if isEndOfLine c then
    (setLine r 0#8).map fun r =>
      { r with output := r.output ++ [.executeLine (lineString r.line)],
               comment := .none, charCounter := 0 }
  else if r.comment ≠ .none then
    some (if c = 0x29#8 ∧ r.comment = .parentheses then { r with comment := .none } else r)
  else if c ≤ 0x20#8 then some r
  else if c = 0x2F#8 then some r
  else if c = 0x28#8 then some { r with comment := .parentheses }
  else if c = 0x3B#8 then some { r with comment := .semicolon }
  else if lineBufferSize - 1 ≤ r.charCounter then
    some { r with output := r.output ++ [.overflow], comment := .none, charCounter := 0 }
  else (setLine r (upcase c)).map fun r => { r with charCounter := r.charCounter + 1 }

/-- The next statement of the main program.  A byte that reads as `SERIAL_NO_DATA` ends the loop
like an empty ring, and `serial_read` comes again in the next round of the outer one. -/
def protocolMain (r : ProtocolRun) : Option ProtocolRun :=
  match r.pc with
  | .read =>
    some (if r.serial.serialRxBufferHead = r.serial.serialRxBufferTail then r
      else { r with pc := .fetch r.serial.serialRxBufferTail })
  | .fetch tail =>
    some { r with pc := .advance (r.serial.serialRxBuffer tail) (nextIndex rxBufferSize tail) }
  | .advance data tail =>
    some { r with
      serial := { r.serial with serialRxBufferTail := tail }
      pc := if data = serialNoData then .read else .char data }
  | .char c => protocolChar { r with pc := .read } c

/-- The byte is none of the realtime commands, which do not go into the ring. -/
def isText (data : Byte) : Bool :=
  data ≠ cmdStatusReport && data ≠ cmdCycleStart && data ≠ cmdFeedHold &&
    data ≠ cmdSafetyDoor && data ≠ cmdReset

/-- There is a place left in the receive ring. -/
def Serial.hasRoom (s : Serial) : Bool :=
  nextIndex rxBufferSize s.serialRxBufferHead ≠ s.serialRxBufferTail

/-- The main program goes on, or the interrupt has received a byte. -/
inductive ProtocolEvent where
  | main
  | received (data : Byte)
  deriving DecidableEq

def protocolStep (r : ProtocolRun) : ProtocolEvent → Option ProtocolRun
  | .main => protocolMain r
  | .received data => some { r with
      serial := serialDataReceived r.serial data
      accepted := r.accepted ++ if isText data && r.serial.hasRoom then [data] else [] }

/-- The loop begins with an empty ring. -/
def protocolStart (s : Serial) (line : ℕ → Byte) : ProtocolRun where
  serial := { s with serialRxBufferHead := 0, serialRxBufferTail := 0 }
  line := line
  charCounter := 0
  comment := .none
  pc := .read
  accepted := []
  output := []

/-! ### What the lines are -/

/-- A line without its comments: those in parentheses end at the first closing one, the others with
the line. -/
def stripComments : List Byte → List Byte
  | [] => []
  | c :: cs =>
    if c = 0x28#8 then stripComments (cs.dropWhile (· != 0x29#8)).tail
    else if c = 0x3B#8 then []
    else c :: stripComments cs
termination_by cs => cs.length
decreasing_by
  · rw [List.length_tail]
    exact (Nat.sub_le _ _).trans_lt (Nat.lt_succ_of_le (List.dropWhile_suffix _).length_le)
  · exact Nat.lt_succ_self _

/-- What is executed of a line, were the buffer large enough. -/
def compress (l : List Byte) : List Byte :=
  ((stripComments l).filter fun c => 0x20#8 < c && c ≠ 0x2F#8).map upcase

/-- The overflows of a text: each is at the character the buffer has no place for, which is lost. -/
def overflows (text : List Byte) : ℕ := text.length / lineBufferSize

def lineOutput (l : List Byte) : List ProtocolOutput :=
  List.replicate (overflows (compress l)) .overflow ++
    [.executeLine ((compress l).drop (lineBufferSize * overflows (compress l)))]

/-- The line that is not complete yet. -/
def partialLine (bytes : List Byte) : List Byte := (bytes.splitOnP isEndOfLine).getLastD []

/-- What is done with a stream of bytes. -/
def protocolOutput (bytes : List Byte) : List ProtocolOutput :=
  (bytes.splitOnP isEndOfLine).dropLast.flatMap lineOutput ++
    List.replicate (overflows (compress (partialLine bytes))) .overflow

/-! ### Comments -/

namespace Comment

/-- The kind of comment behind a character. -/
def after (k : Comment) (c : Byte) : Comment :=
  match k with
  | .none => if c = 0x28#8 then .parentheses else if c = 0x3B#8 then .semicolon else .none
  | .parentheses => if c = 0x29#8 then .none else .parentheses
  | .semicolon => .semicolon

/-- What `stripComments` leaves of a text that begins in a comment of the kind. -/
def strip (k : Comment) (l : List Byte) : List Byte :=
  match k with
  | .none => stripComments l
  | .parentheses => stripComments (l.dropWhile (· != 0x29#8)).tail
  | .semicolon => []

/-- The character is outside of comments, and begins none. -/
def keeps (k : Comment) (c : Byte) : Bool := k = .none && c ≠ 0x28#8 && c ≠ 0x3B#8

theorem strip_cons (k : Comment) (c : Byte) (l : List Byte) :
    k.strip (c :: l) = (if k.keeps c then [c] else []) ++ (k.after c).strip l := by
  cases k with
  | none =>
    rw [strip, stripComments, after, keeps]
    by_cases hopen : c = 0x28#8
    · simp [hopen, strip]
    · by_cases hsemi : c = 0x3B#8
      · simp [hsemi, strip]
      · simp [hopen, hsemi, strip]
  | parentheses =>
    by_cases hclose : c = 0x29#8
    · simp [strip, after, keeps, hclose]
    · simp [strip, after, keeps, hclose]
  | semicolon => simp [strip, after, keeps]

theorem strip_concat (k : Comment) (l : List Byte) (c : Byte) : k.strip (l ++ [c]) =
    k.strip l ++ if (l.foldl after k).keeps c then [c] else [] := by
  induction l generalizing k with
  | nil =>
    rw [List.nil_append, strip_cons]
    have hnil : ∀ k : Comment, k.strip [] = [] := by
      intro k
      cases k <;> simp [strip, stripComments]
    rw [hnil, hnil, List.append_nil, List.nil_append, List.foldl_nil]
  | cons b l ih => rw [List.cons_append, strip_cons, ih, strip_cons, List.append_assoc, List.foldl_cons]

end Comment

theorem stripComments_concat (l : List Byte) (c : Byte) : stripComments (l ++ [c]) =
    stripComments l ++ if (l.foldl Comment.after .none).keeps c then [c] else [] :=
  Comment.strip_concat .none l c

/-- The character comes into the line. -/
def isKept (l : List Byte) (c : Byte) : Bool :=
  (l.foldl Comment.after .none).keeps c && 0x20#8 < c && c ≠ 0x2F#8

theorem compress_concat (l : List Byte) (c : Byte) :
    compress (l ++ [c]) = compress l ++ if isKept l c then [upcase c] else [] := by
  rw [compress, compress, stripComments_concat, isKept]
  cases (l.foldl Comment.after .none).keeps c with
  | false => simp
  | true =>
    rw [List.filter_append, List.map_append]
    congr 1
    by_cases hc : (0x20#8 < c && c ≠ 0x2F#8) = true
    · simp_all
    · simp_all

/-! ### The stream -/

theorem splitOnP_concat (bytes : List Byte) (c : Byte) : (bytes ++ [c]).splitOnP isEndOfLine =
    if isEndOfLine c then bytes.splitOnP isEndOfLine ++ [[]]
    else (bytes.splitOnP isEndOfLine).dropLast ++
      [partialLine bytes ++ [c]] := by
  rw [partialLine]
  induction bytes with
  | nil =>
    rw [List.nil_append, List.splitOnP_cons_eq_if_modifyHead, List.splitOnP_nil]
    cases isEndOfLine c <;> rfl
  | cons b bytes ih =>
    rw [List.cons_append, List.splitOnP_cons_eq_if_modifyHead, ih,
      List.splitOnP_cons_eq_if_modifyHead]
    have hne := List.splitOnP_ne_nil isEndOfLine bytes
    cases hsplit : bytes.splitOnP isEndOfLine with
    | nil => exact absurd hsplit hne
    | cons l ls =>
      cases isEndOfLine b <;> cases isEndOfLine c <;> cases ls <;> simp

theorem partialLine_concat (bytes : List Byte) (c : Byte) : partialLine (bytes ++ [c]) =
    if isEndOfLine c then [] else partialLine bytes ++ [c] := by
  rw [partialLine, splitOnP_concat]
  split_ifs
  · exact List.getLastD_concat
  · exact List.getLastD_concat

/-- At the end of a line, what has come together of it is executed. -/
theorem protocolOutput_endOfLine (bytes : List Byte) {c : Byte} (hc : isEndOfLine c = true) :
    protocolOutput (bytes ++ [c]) = protocolOutput bytes ++ [.executeLine
      ((compress (partialLine bytes)).drop
        (lineBufferSize * overflows (compress (partialLine bytes))))] := by
  have hne := List.splitOnP_ne_nil isEndOfLine bytes
  have hlast : bytes.splitOnP isEndOfLine =
      (bytes.splitOnP isEndOfLine).dropLast ++ [partialLine bytes] := by
    rw [partialLine, List.getLastD_eq_getLast?, List.getLast?_eq_some_getLast hne]
    exact (List.dropLast_append_getLast hne).symm
  rw [protocolOutput, splitOnP_concat, partialLine_concat, if_pos hc, if_pos hc,
    List.dropLast_concat, show overflows (compress []) = 0 by simp [compress, stripComments, overflows],
    List.replicate_zero, List.append_nil, hlast, List.flatMap_append, List.flatMap_singleton,
    lineOutput, ← List.append_assoc]
  rfl

/-- Within a line there may be an overflow. -/
theorem protocolOutput_char (bytes : List Byte) {c : Byte} (hc : isEndOfLine c = false) {n : ℕ}
    (hn : overflows (compress (partialLine bytes ++ [c])) =
      overflows (compress (partialLine bytes)) + n) :
    protocolOutput (bytes ++ [c]) = protocolOutput bytes ++ List.replicate n .overflow := by
  have hno : ¬ isEndOfLine c = true := by rw [hc]; exact Bool.false_ne_true
  rw [protocolOutput, splitOnP_concat, partialLine_concat, if_neg hno, if_neg hno,
    List.dropLast_concat, hn, List.replicate_add, ← List.append_assoc]
  rfl

theorem upcase_ne_zero {c : Byte} (hc : 0x20#8 < c) : upcase c ≠ 0#8 := by
  revert c
  decide

theorem ne_zero_of_mem_compress {l : List Byte} {c : Byte} (hc : c ∈ compress l) : c ≠ 0#8 := by
  obtain ⟨b, hb, rfl⟩ := List.mem_map.mp hc
  have hkept := (List.mem_filter.mp hb).2
  simp only [Bool.and_eq_true, decide_eq_true_eq] at hkept
  exact upcase_ne_zero hkept.1

/-! ### The buffer -/

/-- The string up to the terminator. -/
theorem lineString_eq {line : ℕ → Byte} {n : ℕ} (hn : n < lineBufferSize) (hend : line n = 0#8)
    (hne : ∀ c ∈ (List.range n).map line, c ≠ 0#8) :
    lineString line = (List.range n).map line := by
  obtain ⟨k, hk⟩ : ∃ k, lineBufferSize = n + (k + 1) := ⟨lineBufferSize - n - 1, by omega⟩
  rw [lineString, hk, List.range_add, List.map_append,
    List.takeWhile_append_of_pos fun c hc => decide_eq_true (hne c hc), List.range_succ_eq_map,
    List.map_cons, List.map_cons, Nat.add_zero, List.takeWhile_cons, hend]
  exact List.append_nil _

/-- What the variables of the loop say about the line under way. -/
structure ProtocolRun.InLine (r : ProtocolRun) (bytes : List Byte) : Prop where
  output : r.output = protocolOutput bytes
  comment : r.comment = (partialLine bytes).foldl Comment.after .none
  line : (List.range r.charCounter).map r.line = (compress (partialLine bytes)).drop
    (lineBufferSize * overflows (compress (partialLine bytes)))

variable {r r' : ProtocolRun} {bytes : List Byte} {c : Byte}

theorem ProtocolRun.InLine.charCounter (h : r.InLine bytes) :
    r.charCounter = (compress (partialLine bytes)).length % lineBufferSize := by
  have hlength := congrArg List.length h.line
  rw [List.length_map, List.length_range, List.length_drop, overflows] at hlength
  rw [hlength]
  have := Nat.div_add_mod (compress (partialLine bytes)).length lineBufferSize
  omega

theorem ProtocolRun.InLine.charCounter_lt (h : r.InLine bytes) : r.charCounter < lineBufferSize := by
  rw [h.charCounter]
  exact Nat.mod_lt _ (by decide)

/-- A character that does not come into the line. -/
theorem ProtocolRun.InLine.skip (h : r.InLine bytes) (hend : isEndOfLine c = false)
    (hkept : isKept (partialLine bytes) c = false) :
    { r with comment := r.comment.after c }.InLine (bytes ++ [c]) := by
  have hcurrent : partialLine (bytes ++ [c]) = partialLine bytes ++ [c] := by
    rw [partialLine_concat, hend, if_neg Bool.false_ne_true]
  have hcompress : compress (partialLine bytes ++ [c]) = compress (partialLine bytes) := by
    rw [compress_concat, hkept, if_neg Bool.false_ne_true, List.append_nil]
  constructor
  · rw [protocolOutput_char bytes hend (n := 0) (by rw [hcompress, Nat.add_zero]),
      List.replicate_zero, List.append_nil]
    exact h.output
  · rw [hcurrent, List.foldl_append, ← h.comment]
    rfl
  · rw [hcurrent, hcompress]
    exact h.line

/-- The character the buffer has no place for. -/
theorem ProtocolRun.InLine.overflow (h : r.InLine bytes) (hend : isEndOfLine c = false)
    (hkept : isKept (partialLine bytes) c = true) (hfull : lineBufferSize - 1 ≤ r.charCounter)
    (hcomment : r.comment.after c = .none) :
    { r with output := r.output ++ [ProtocolOutput.overflow], comment := .none,
             charCounter := 0 }.InLine (bytes ++ [c]) := by
  have hcurrent : partialLine (bytes ++ [c]) = partialLine bytes ++ [c] := by
    rw [partialLine_concat, hend, if_neg Bool.false_ne_true]
  have hcompress : compress (partialLine bytes ++ [c]) =
      compress (partialLine bytes) ++ [upcase c] := by
    rw [compress_concat, hkept, if_pos rfl]
  have hlength : lineBufferSize * (overflows (compress (partialLine bytes)) + 1) =
      (compress (partialLine bytes)).length + 1 := by
    have hmod := h.charCounter
    have hdiv := Nat.div_add_mod (compress (partialLine bytes)).length lineBufferSize
    rw [overflows]
    simp only [lineBufferSize] at *
    omega
  have hoverflows : overflows (compress (partialLine bytes) ++ [upcase c]) =
      overflows (compress (partialLine bytes)) + 1 := by
    rw [overflows, List.length_append, List.length_singleton, ← hlength]
    exact Nat.mul_div_cancel_left _ (by decide)
  constructor
  · rw [protocolOutput_char bytes hend (hcompress ▸ hoverflows)]
    exact congrArg (· ++ _) h.output
  · rw [hcurrent, List.foldl_append, ← h.comment]
    exact hcomment.symm
  · rw [hcurrent, hcompress, hoverflows, hlength, List.drop_of_length_le]
    · rfl
    · rw [List.length_append, List.length_singleton]

/-- A character that is stored. -/
theorem ProtocolRun.InLine.store (h : r.InLine bytes) (hend : isEndOfLine c = false)
    (hkept : isKept (partialLine bytes) c = true) (hroom : r.charCounter < lineBufferSize - 1)
    (hcomment : r.comment.after c = r.comment) :
    { r with line := Function.update r.line r.charCounter (upcase c),
             charCounter := r.charCounter + 1 }.InLine (bytes ++ [c]) := by
  have hcurrent : partialLine (bytes ++ [c]) = partialLine bytes ++ [c] := by
    rw [partialLine_concat, hend, if_neg Bool.false_ne_true]
  have hcompress : compress (partialLine bytes ++ [c]) =
      compress (partialLine bytes) ++ [upcase c] := by
    rw [compress_concat, hkept, if_pos rfl]
  have hmod := h.charCounter
  have hdiv := Nat.div_add_mod (compress (partialLine bytes)).length lineBufferSize
  have hoverflows : overflows (compress (partialLine bytes) ++ [upcase c]) =
      overflows (compress (partialLine bytes)) := by
    rw [overflows, overflows, List.length_append, List.length_singleton]
    simp only [lineBufferSize] at *
    omega
  constructor
  · rw [protocolOutput_char bytes hend (n := 0) (hcompress ▸ hoverflows),
      List.replicate_zero, List.append_nil]
    exact h.output
  · rw [hcurrent, List.foldl_append, ← h.comment]
    exact hcomment.symm
  · have hbelow : (List.range r.charCounter).map
        (Function.update r.line r.charCounter (upcase c)) = (List.range r.charCounter).map r.line :=
      List.map_congr_left fun i hi => Function.update_of_ne (List.mem_range.mp hi).ne _ _
    rw [hcurrent, hcompress, hoverflows, List.drop_append_of_le_length, ← h.line]
    · show (List.range (r.charCounter + 1)).map
        (Function.update r.line r.charCounter (upcase c)) = _
      rw [List.range_succ, List.map_append, hbelow, List.map_singleton, Function.update_self]
    · rw [overflows]
      exact Nat.mul_div_le _ _

/-- The end of a line. -/
theorem ProtocolRun.InLine.endOfLine (h : r.InLine bytes) (hend : isEndOfLine c = true) :
    { r with
      line := Function.update r.line r.charCounter 0#8
      output := r.output ++
        [ProtocolOutput.executeLine (lineString (Function.update r.line r.charCounter 0#8))]
      comment := .none
      charCounter := 0 }.InLine (bytes ++ [c]) := by
  have hcurrent : partialLine (bytes ++ [c]) = [] := by
    rw [partialLine_concat, hend, if_pos rfl]
  have hnil : compress [] = [] := by rw [compress, stripComments]; rfl
  have hbelow : (List.range r.charCounter).map (Function.update r.line r.charCounter 0#8) =
      (compress (partialLine bytes)).drop
        (lineBufferSize * overflows (compress (partialLine bytes))) := by
    rw [← h.line]
    exact List.map_congr_left fun i hi => Function.update_of_ne (List.mem_range.mp hi).ne _ _
  constructor
  · rw [protocolOutput_endOfLine bytes hend, ← h.output, lineString_eq h.charCounter_lt
      (Function.update_self _ _ _), hbelow]
    intro b hb
    rw [hbelow] at hb
    exact ne_zero_of_mem_compress (List.mem_of_mem_drop hb)
  · rw [hcurrent]
    rfl
  · rw [hcurrent, hnil]
    rfl

/-- The variables of the ring are another part. -/
structure ProtocolRun.SameRing (r r' : ProtocolRun) : Prop where
  serial : r'.serial = r.serial
  pc : r'.pc = r.pc
  accepted : r'.accepted = r.accepted

theorem ProtocolRun.comment_self {k : Comment} (hk : r.comment = k) :
    { r with comment := k } = r := by
  subst hk
  rfl

/-- Within a comment only its end is looked for. -/
theorem protocolChar_comment (hend : isEndOfLine c = false) (hk : r.comment ≠ .none) :
    protocolChar r c = some { r with comment := r.comment.after c } := by
  rw [protocolChar, if_neg (by rw [hend]; exact Bool.false_ne_true), if_pos hk]
  congr 1
  cases hcomment : r.comment with
  | none => exact absurd hcomment hk
  | parentheses =>
    by_cases hclose : c = 0x29#8
    · rw [if_pos ⟨hclose, rfl⟩, Comment.after, if_pos hclose]
    · rw [if_neg fun h => hclose h.1, Comment.after, if_neg hclose, ProtocolRun.comment_self hcomment]
  | semicolon =>
    rw [if_neg fun h => Comment.noConfusion h.2, Comment.after, ProtocolRun.comment_self hcomment]

/-- Outside of comments, a character that does not come into the line may begin one. -/
theorem protocolChar_skip (hend : isEndOfLine c = false) (hk : r.comment = .none)
    (hskip : (Comment.none.keeps c && 0x20#8 < c && c ≠ 0x2F#8) = false) :
    protocolChar r c = some { r with comment := r.comment.after c } := by
  rw [protocolChar, if_neg (by rw [hend]; exact Bool.false_ne_true), if_neg (not_not.mpr hk), hk,
    Comment.after]
  by_cases hspace : c ≤ 0x20#8
  · rw [if_pos hspace, if_neg, if_neg, ProtocolRun.comment_self hk]
    · rintro rfl
      exact absurd hspace (by decide)
    · rintro rfl
      exact absurd hspace (by decide)
  · by_cases hslash : c = 0x2F#8
    · rw [if_neg hspace, if_pos hslash, hslash, if_neg (by decide), if_neg (by decide),
        ProtocolRun.comment_self hk]
    · rw [if_neg hspace, if_neg hslash]
      by_cases hopen : c = 0x28#8
      · rw [if_pos hopen, if_pos hopen]
      · by_cases hsemi : c = 0x3B#8
        · rw [if_neg hopen, if_pos hsemi, if_neg hopen, if_pos hsemi]
        · have hlt : 0x20#8 < c := BitVec.not_le.mp hspace
          simp [Comment.keeps, hlt, hslash, hopen, hsemi] at hskip

/-- The other characters are stored, if there is a place. -/
theorem protocolChar_kept (hend : isEndOfLine c = false) (hk : r.comment = .none)
    (hkept : (Comment.none.keeps c && 0x20#8 < c && c ≠ 0x2F#8) = true) : protocolChar r c =
      if lineBufferSize - 1 ≤ r.charCounter then
        some { r with output := r.output ++ [.overflow], comment := .none, charCounter := 0 }
      else (setLine r (upcase c)).map fun r => { r with charCounter := r.charCounter + 1 } := by
  simp only [Comment.keeps, decide_true, Bool.true_and, Bool.and_eq_true, decide_eq_true_eq] at hkept
  obtain ⟨⟨⟨hopen, hsemi⟩, hlt⟩, hslash⟩ := hkept
  rw [protocolChar, if_neg (by rw [hend]; exact Bool.false_ne_true), if_neg (not_not.mpr hk),
    if_neg (BitVec.not_le.mpr hlt), if_neg hslash, if_neg hopen, if_neg hsemi]

/-- **The body of the loop.**  Whatever the character is, the variables say the same of the line one
character further. -/
theorem ProtocolRun.InLine.char (h : r.InLine bytes) (c : Byte) :
    ∃ r', protocolChar r c = some r' ∧ r'.InLine (bytes ++ [c]) ∧ r.SameRing r' := by
  have hlt := h.charCounter_lt
  cases hend : isEndOfLine c with
  | true =>
    rw [protocolChar, setLine, if_pos hend, if_pos hlt]
    exact ⟨_, rfl, h.endOfLine hend, rfl, rfl, rfl⟩
  | false =>
    have hkept : isKept (partialLine bytes) c =
        (r.comment.keeps c && 0x20#8 < c && c ≠ 0x2F#8) := by
      rw [h.comment]
      rfl
    by_cases hk : r.comment = .none
    · rw [hk] at hkept
      cases hkeeps : (Comment.none.keeps c && 0x20#8 < c && c ≠ 0x2F#8) with
      | false =>
        exact ⟨_, protocolChar_skip hend hk hkeeps, h.skip hend (hkept.trans hkeeps), rfl, rfl, rfl⟩
      | true =>
        have hafter : r.comment.after c = .none := by
          simp only [Comment.keeps, decide_true, Bool.true_and, Bool.and_eq_true,
            decide_eq_true_eq] at hkeeps
          rw [hk, Comment.after, if_neg hkeeps.1.1.1, if_neg hkeeps.1.1.2]
        rw [protocolChar_kept hend hk hkeeps, setLine, if_pos hlt]
        by_cases hfull : lineBufferSize - 1 ≤ r.charCounter
        · rw [if_pos hfull]
          exact ⟨_, rfl, h.overflow hend (hkept.trans hkeeps) hfull hafter, rfl, rfl, rfl⟩
        · rw [if_neg hfull]
          exact ⟨_, rfl, h.store hend (hkept.trans hkeeps) (Nat.lt_of_not_le hfull)
            (hafter.trans hk.symm), rfl, rfl, rfl⟩
    · have hskip : r.comment.keeps c = false := by
        rw [Comment.keeps, decide_eq_false hk]
        rfl
      rw [hskip] at hkept
      exact ⟨_, protocolChar_comment hend hk, h.skip hend hkept, rfl, rfl, rfl⟩

/-! ### The ring -/

/-- The bytes that were accepted and have not come to the loop. -/
def ProtocolRun.pending (r : ProtocolRun) : List Byte :=
  (match r.pc with
    | .char c => [c]
    | _ => []) ++
  contents r.serial.serialRxBuffer rxBufferSize r.serial.serialRxBufferHead
    r.serial.serialRxBufferTail

/-- What holds of the local variables of a call of `serial_read`. -/
def SerialReadPc.Sound (s : Serial) : SerialReadPc → Prop
  | .read => True
  | .fetch tail => tail = s.serialRxBufferTail ∧ s.serialRxBufferHead ≠ tail
  | .advance data tail => data = s.serialRxBuffer s.serialRxBufferTail ∧
      tail = next rxBufferSize s.serialRxBufferTail ∧
      s.serialRxBufferHead ≠ s.serialRxBufferTail
  | .char c => c ≠ serialNoData

/-- The bytes up to those pending have come to the loop. -/
structure ProtocolRun.Sound (r : ProtocolRun) : Prop where
  ring : InRing rxBufferSize r.serial.serialRxBufferHead r.serial.serialRxBufferTail
  pc : r.pc.Sound r.serial
  lines : ∃ consumed, r.accepted = consumed ++ r.pending ∧
    r.InLine (consumed.filter fun c => c ≠ serialNoData)

theorem protocolStart_sound (s : Serial) (line : ℕ → Byte) : (protocolStart s line).Sound where
  ring := InRing.zero _
  pc := trivial
  lines := by
    refine ⟨[], ?_, ?_⟩
    · exact (contents_self _ _ _).symm
    · constructor <;> simp [protocolStart, protocolOutput, partialLine, compress, stripComments,
        overflows]

/-- The receive ring has not changed. -/
structure Serial.SameReceive (s s' : Serial) : Prop where
  buffer : s'.serialRxBuffer = s.serialRxBuffer
  head : s'.serialRxBufferHead = s.serialRxBufferHead
  tail : s'.serialRxBufferTail = s.serialRxBufferTail

theorem Serial.SameReceive.sound {s s' : Serial} {pc : SerialReadPc} (h : s.SameReceive s')
    (hpc : pc.Sound s) : pc.Sound s' := by
  cases pc with
  | read => trivial
  | fetch tail =>
    rw [SerialReadPc.Sound, h.head, h.tail]
    exact hpc
  | advance data tail =>
    rw [SerialReadPc.Sound, h.buffer, h.head, h.tail]
    exact hpc
  | char c => exact hpc

/-- A realtime command does not go into the ring. -/
theorem serialDataReceived_command (s : Serial) {data : Byte} (h : isText data = false) :
    s.SameReceive (serialDataReceived s data) := by
  simp only [serialDataReceived, mcReset]
  split_ifs <;> first | exact ⟨rfl, rfl, rfl⟩ | simp_all [isText]

theorem serialDataReceived_text (s : Serial) {data : Byte} (h : isText data = true) :
    serialDataReceived s data =
      if s.hasRoom then
        { s with
          serialRxBuffer := Function.update s.serialRxBuffer s.serialRxBufferHead data
          serialRxBufferHead := nextIndex rxBufferSize s.serialRxBufferHead }
      else s := by
  simp only [isText, Bool.and_eq_true, decide_eq_true_eq] at h
  obtain ⟨⟨⟨⟨hstatus, hstart⟩, hhold⟩, hdoor⟩, hreset⟩ := h
  rw [serialDataReceived, if_neg hstatus, if_neg hstart, if_neg hhold, if_neg hdoor, if_neg hreset,
    Serial.hasRoom]
  simp only [decide_eq_true_eq]

namespace ProtocolRun.Sound

/-- Every statement of the main program is defined, and a byte that it takes out of the ring is the
next one. -/
theorem main (h : r.Sound) : ∃ r', protocolMain r = some r' ∧ r'.Sound := by
  obtain ⟨hring, hpc, consumed, haccepted, hline⟩ := h
  rw [ProtocolRun.pending] at haccepted
  rw [protocolMain]
  cases hat : r.pc with
  | read =>
    rw [hat] at haccepted
    by_cases hempty : r.serial.serialRxBufferHead = r.serial.serialRxBufferTail
    · rw [if_pos hempty]
      exact ⟨r, rfl, hring, hpc, consumed, by rw [ProtocolRun.pending, hat]; exact haccepted, hline⟩
    · rw [if_neg hempty]
      exact ⟨_, rfl, hring, ⟨rfl, hempty⟩, consumed, haccepted, hline.output, hline.comment,
        hline.line⟩
  | fetch tail =>
    rw [hat] at haccepted hpc
    obtain ⟨htail, hne⟩ := hpc
    refine ⟨_, rfl, hring, ⟨by rw [htail], ?_, ?_⟩, consumed, haccepted, hline.output,
      hline.comment, hline.line⟩
    · rw [htail]
      exact nextIndex_eq (by decide) hring.tail_lt
    · rw [← htail]
      exact hne
  | advance data tail =>
    rw [hat] at haccepted hpc
    obtain ⟨hdata, htail, hne⟩ := hpc
    rw [List.nil_append, hring.contents_pop hne, ← hdata, ← htail] at haccepted
    have hnext : InRing rxBufferSize r.serial.serialRxBufferHead tail := htail ▸ hring.pop
    by_cases hnone : data = serialNoData
    · refine ⟨_, rfl, hnext, ?_, consumed ++ [data], ?_, ?_⟩
      · rw [if_pos hnone]
        trivial
      · rw [haccepted, ProtocolRun.pending, if_pos hnone, List.append_assoc]
        rfl
      · rw [List.filter_append, List.filter_cons_of_neg (by simpa using hnone), List.filter_nil,
          List.append_nil]
        exact ⟨hline.output, hline.comment, hline.line⟩
    · refine ⟨_, rfl, hnext, ?_, consumed, ?_, hline.output, hline.comment, hline.line⟩
      · rw [if_neg hnone]
        exact hnone
      · rw [haccepted, ProtocolRun.pending, if_neg hnone]
        rfl
  | char c =>
    rw [hat] at haccepted hpc
    have hread : { r with pc := SerialReadPc.read }.InLine (consumed.filter fun c => c ≠ serialNoData) :=
      ⟨hline.output, hline.comment, hline.line⟩
    obtain ⟨r', hr', hline', hsame⟩ := hread.char c
    refine ⟨r', hr', ?_, ?_, consumed ++ [c], ?_, ?_⟩
    · rw [hsame.serial]
      exact hring
    · rw [hsame.pc]
      trivial
    · rw [hsame.accepted, ProtocolRun.pending, hsame.pc, hsame.serial, haccepted,
        List.append_assoc]
      rfl
    · rw [List.filter_append, List.filter_cons_of_pos, List.filter_nil]
      · exact hline'
      · exact decide_eq_true (show c ≠ serialNoData from hpc)

/-- The interrupt puts the byte behind the others, if it is text and there is room. -/
theorem received (h : r.Sound) (data : Byte) :
    ∃ r', protocolStep r (.received data) = some r' ∧ r'.Sound := by
  obtain ⟨hring, hpc, consumed, haccepted, hline⟩ := h
  refine ⟨_, rfl, ?_⟩
  cases htext : isText data with
  | false =>
    have hsame := serialDataReceived_command r.serial htext
    refine ⟨?_, hsame.sound hpc, consumed, ?_, hline.output, hline.comment, hline.line⟩
    · rw [hsame.head, hsame.tail]
      exact hring
    · rw [Bool.false_and, if_neg Bool.false_ne_true, List.append_nil, haccepted,
        ProtocolRun.pending, ProtocolRun.pending, hsame.buffer, hsame.head, hsame.tail]
  | true =>
    rw [serialDataReceived_text r.serial htext]
    cases hroom : r.serial.hasRoom with
    | false =>
      rw [if_neg Bool.false_ne_true]
      exact ⟨hring, hpc, consumed, by simpa using haccepted, hline.output, hline.comment,
        hline.line⟩
    | true =>
      have hnext : nextIndex rxBufferSize r.serial.serialRxBufferHead =
          next rxBufferSize r.serial.serialRxBufferHead := nextIndex_eq (by decide) hring.head_lt
      have hne : next rxBufferSize r.serial.serialRxBufferHead ≠ r.serial.serialRxBufferTail := by
        rw [← hnext]
        exact of_decide_eq_true hroom
      have hfree : held rxBufferSize r.serial.serialRxBufferHead r.serial.serialRxBufferTail + 1 <
          rxBufferSize := by
        by_contra hfull
        exact hne (hring.next_eq_of_full hfull)
      rw [if_pos rfl, hnext]
      refine ⟨hring.push, ?_, consumed, ?_, hline.output, hline.comment, hline.line⟩
      · cases hat : r.pc with
        | read => trivial
        | fetch tail =>
          rw [hat] at hpc
          exact ⟨hpc.1, hpc.1 ▸ hne⟩
        | advance byte tail =>
          rw [hat] at hpc
          exact ⟨hpc.1.trans (Function.update_of_ne hpc.2.2.symm _ _).symm, hpc.2.1, hne⟩
        | char c =>
          rw [hat] at hpc
          exact hpc
      · rw [Bool.true_and, if_pos rfl, haccepted, ProtocolRun.pending, ProtocolRun.pending,
          hring.contents_push hfree]
        simp only [List.append_assoc]

end ProtocolRun.Sound

/-- **The lines of the controller.**  However the interrupt comes between the statements of the main
program, the loop never writes beyond its buffer, and what has been executed are the lines of the
bytes received, but for those still in the ring and for each 0xFF, which is read as no data.  A
reset would end the loop. -/
theorem protocol_lines (s : Serial) (line : ℕ → Byte) (events : List ProtocolEvent)
    (h : ∀ e ∈ events, e ≠ .received cmdReset) :
    Throughout protocolStep
      (fun r => r.charCounter < lineBufferSize ∧
        ∃ consumed, r.accepted = consumed ++ r.pending ∧
          r.output = protocolOutput (consumed.filter fun c => c ≠ serialNoData))
      (protocolStart s line) events := by
  have hall : Admitted protocolStep (fun _ e => e ≠ .received cmdReset) (protocolStart s line)
      events := Admitted.of_forall fun e he _ => h e he
  refine (throughout_of_admitted (I := ProtocolRun.Sound) ?_ (protocolStart_sound s line) hall).mono ?_
  · intro r e hsound _
    cases e with
    | main => exact hsound.main
    | received data => exact hsound.received data
  · rintro r hsound
    obtain ⟨consumed, haccepted, hline⟩ := hsound.lines
    exact ⟨hline.charCounter_lt, consumed, haccepted, hline.output⟩

/-- `g1 (a)x;b`, with a status report asked for in between, and read as it comes. -/
def protocolEvents : List ProtocolEvent :=
  ([0x67, 0x31, 0x20, 0x28, 0x61, 0x3F, 0x29, 0x78, 0x3B, 0x62, 0x0A] : List Byte).flatMap
    fun c => [.received c, .main, .main, .main, .main]

theorem protocol_lines_run : Throughout protocolStep
    (fun r => r.charCounter < lineBufferSize ∧
      ∃ consumed, r.accepted = consumed ++ r.pending ∧
        r.output = protocolOutput (consumed.filter fun c => c ≠ serialNoData))
    (protocolStart (serialStart []).serial fun _ => 0#8) protocolEvents :=
  protocol_lines _ _ _ (by decide)

/-- The line of these bytes is `G1X`. -/
example : lineOutput [0x67, 0x31, 0x20, 0x28, 0x61, 0x29, 0x78, 0x3B, 0x62] =
    [.executeLine [0x47, 0x31, 0x58]] := by
  simp [lineOutput, compress, stripComments, overflows, lineBufferSize, upcase]

end PcbMill
