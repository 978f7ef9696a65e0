import PcbMill.Core.CircularBuffer
import PcbMill.Lib.Numeral
import PcbMill.Lib.Reading

/-!
# Formatted diagnostics (`diagnostics.c`)

`diag_printf` reads its format byte by byte, and for each conversion the next argument.  The format
lies in a memory that goes on behind its NUL.  The reference takes the format apart into pieces,
each with the argument it prints, and says what text a piece has.

The negation of the most negative `int` overflows, which leaves `n` undefined: `overflow` is what
it leaves.
-/

namespace PcbMill

open Numeral

/-- The byte of a character. -/
abbrev ascii (c : Char) : Byte := BitVec.ofNat 8 c.toNat

/-- The bytes of a string before its NUL. -/
structure CString where
  bytes : List Byte
  nonzero : 0#8 ∉ bytes

/-- An argument, as `va_arg` finds it. -/
inductive DiagArg where
  | int (n : BitVec 32)
  | str (s : CString)

/-- `diag_print`, on the memory from `s` on. -/
def diagPrint : List Byte → List Byte
  | [] => []
  | c :: s => if c = 0#8 then [] else c :: diagPrint s

/-- The string `digits`. -/
def diagDigit (uppercase : Bool) (d : ℕ) : Byte :=
  ((List.range 10).map (ascii '0' + BitVec.ofNat 8 ·) ++
    (List.range 6).map ((if uppercase then ascii 'A' else ascii 'a') + BitVec.ofNat 8 ·)).getD d 0#8

/-- The first loop of `diag_putnum`, with `room` places left in `buf`: none if it overflows. -/
def diagPutnumLoop (uppercase : Bool) (base : ℕ) : ℕ → ℕ → List Byte → Option (List Byte)
  | 0, num, buf => if num = 0 then some buf else none
  | room + 1, num, buf =>
    if num = 0 then some buf
    else diagPutnumLoop uppercase base room (num / base) (buf ++ [diagDigit uppercase (num % base)])

/-- `diag_putnum`: the bytes sent. -/
def diagPutnum (num : BitVec 32) (base : ℕ) (uppercase : Bool) : Option (List Byte) :=
  if num = 0#32 then some [ascii '0']
  else (diagPutnumLoop uppercase base 32 num.toNat []).map List.reverse

/-- The case `'d'`. -/
def diagDecimal (overflow n : BitVec 32) : Option (List Byte) :=
  if n.slt 0#32 then
    (diagPutnum (if n = BitVec.intMin 32 then overflow else -n) 10 false).map (ascii '-' :: ·)
  else diagPutnum n 10 false

/-- The `switch` of `diag_printf`: the bytes sent and the arguments left, unless there is no argument
of the type asked for. -/
def diagConvert (overflow : BitVec 32) (c : Byte) (args : List DiagArg) :
    Option (List Byte × List DiagArg) :=
  if c = ascii 'c' then
    match args with
    | .int n :: args => some ([n.setWidth 8], args)
    | _ => none
  else if c = ascii 's' then
    match args with
    | .str s :: args => some (diagPrint (s.bytes ++ [0#8]), args)
    | _ => none
  else if c = ascii 'd' then
    match args with
    | .int n :: args => (diagDecimal overflow n).map (·, args)
    | _ => none
  else if c = ascii 'x' then
    match args with
    | .int n :: args => (diagPutnum n 16 false).map (·, args)
    | _ => none
  else if c = ascii '%' then some ([ascii '%'], args)
  else some ([c], args)

/-- `diag_printf` from its loop on, with `fmt` at a place of the memory `m`: the bytes sent, unless
an argument is missing. -/
def diagPrintfLoop (overflow : BitVec 32) (m : ℕ → Byte) :
    ℕ → ℕ → List DiagArg → List Byte → Reading (Option (List Byte))
  | 0, _, _, _ => .running
  | fuel + 1, fmt, args, sent =>
    .after [fmt] <|
      if m fmt = 0#8 then .pure (some sent)
      else if m fmt ≠ ascii '%' then
        diagPrintfLoop overflow m fuel (fmt + 1) args (sent ++ [m fmt])
      else
        .after [fmt + 1] <|
          match diagConvert overflow (m (fmt + 1)) args with
          | none => .pure none
          | some (text, args) => diagPrintfLoop overflow m fuel (fmt + 2) args (sent ++ text)

/-- The format, its NUL and what lies behind it. -/
def formatMemory (fmt : CString) (beyond : ℕ → Byte) (i : ℕ) : Byte :=
  (fmt.bytes ++ [0#8]).getD i (beyond i)

def diagPrintf (overflow : BitVec 32) (fmt : CString) (beyond : ℕ → Byte) (args : List DiagArg)
    (fuel : ℕ) : Reading (Option (List Byte)) :=
  diagPrintfLoop overflow (formatMemory fmt beyond) fuel 0 args []

/-! ### The reference -/

/-- A piece of a text: a byte of the format, a conversion with its argument, or a `%` with nothing
behind it. -/
inductive Piece where
  | raw (c : Byte)
  | char (n : BitVec 32)
  | string (s : CString)
  | decimal (n : BitVec 32)
  | hex (n : BitVec 32)
  | lone

def digitByte (d : ℕ) : Byte := ascii (Nat.digitChar d)

def Piece.text : Piece → List Byte
  | .raw c => [c]
  | .char n => [n.setWidth 8]
  | .string s => s.bytes
  | .decimal n =>
    (if n.toInt < 0 then [ascii '-'] else []) ++ numeral digitByte 10 n.toInt.natAbs
  | .hex n => numeral digitByte 16 n.toNat
  | .lone => []

/-- What the character behind a `%` stands for. -/
def conversion (c : Byte) (args : List DiagArg) : Option (Piece × List DiagArg) :=
  if c = ascii 'c' then
    match args with
    | .int n :: args => some (.char n, args)
    | _ => none
  else if c = ascii 's' then
    match args with
    | .str s :: args => some (.string s, args)
    | _ => none
  else if c = ascii 'd' then
    match args with
    | .int n :: args => some (.decimal n, args)
    | _ => none
  else if c = ascii 'x' then
    match args with
    | .int n :: args => some (.hex n, args)
    | _ => none
  else some (.raw c, args)

/-- The pieces of a format, if the arguments match it. -/
def pieces : List Byte → List DiagArg → Option (List Piece)
  | [], _ => some []
  | c :: fmt, args =>
    if c ≠ ascii '%' then (pieces fmt args).map (.raw c :: ·)
    else
      match fmt with
      | [] => some [.lone]
      | c :: fmt =>
        match conversion c args with
        | none => none
        | some (p, args) => (pieces fmt args).map (p :: ·)

/-- The text is sent, and the format is read up to its NUL at most. -/
def DiagPrintfOk (overflow : BitVec 32) (fmt : CString) (beyond : ℕ → Byte) (args : List DiagArg)
    (text : List Byte) : Prop :=
  ∃ fuel, (diagPrintf overflow fmt beyond args fuel).value = some (some text) ∧
    (diagPrintf overflow fmt beyond args fuel).Within (fmt.bytes.length + 1)

/-! ### The conversions -/

theorem diagPrint_eq (s : CString) : diagPrint (s.bytes ++ [0#8]) = s.bytes := by
  have hprint : ∀ bytes : List Byte, 0#8 ∉ bytes → diagPrint (bytes ++ [0#8]) = bytes := by
    intro bytes
    induction bytes with
    | nil => exact fun _ => rfl
    | cons c bytes ih =>
      intro hnonzero
      rw [List.mem_cons, not_or] at hnonzero
      rw [List.cons_append, diagPrint, if_neg (Ne.symm hnonzero.1), ih hnonzero.2]
  exact hprint s.bytes s.nonzero

theorem diagDigit_eq {d : ℕ} (h : d < 16) : diagDigit false d = digitByte d := by
  interval_cases d <;> rfl

theorem digitByte_injOn : Set.InjOn digitByte (Set.Iio 16) := by
  have hinj : ∀ d < 16, ∀ d' < 16, digitByte d = digitByte d' → d = d' := by decide
  exact fun d hd d' hd' h => hinj d hd d' hd' h

/-- The loop has room for the digits of any number below the power of the base. -/
theorem diagPutnumLoop_eq {base : ℕ} (hbase : 1 < base) (hle : base ≤ 16) (room : ℕ) :
    ∀ (num : ℕ) (buf : List Byte), num < base ^ room →
      diagPutnumLoop false base room num buf =
        some (buf ++ (Nat.digits base num).map digitByte) := by
  induction room with
  | zero =>
    intro num buf hnum
    obtain rfl : num = 0 := by simpa using hnum
    rw [diagPutnumLoop, if_pos rfl, Nat.digits_zero, List.map_nil, List.append_nil]
  | succ room ih =>
    intro num buf hnum
    rw [diagPutnumLoop]
    split
    · rw [‹num = 0›, Nat.digits_zero, List.map_nil, List.append_nil]
    · have hlt : num / base < base ^ room := Nat.div_lt_of_lt_mul (by rwa [← Nat.pow_succ'])
      have hdigit : num % base < 16 := (Nat.mod_lt _ (by omega)).trans_le hle
      rw [ih _ _ hlt, Nat.digits_eq_cons_digits_div hbase ‹num ≠ 0›, List.map_cons,
        List.append_assoc, List.singleton_append, diagDigit_eq hdigit]

/-- `diag_putnum` sends the numeral, for every number. -/
theorem diagPutnum_eq {base : ℕ} (hbase : 1 < base) (hle : base ≤ 16) (num : BitVec 32) :
    diagPutnum num base false = some (numeral digitByte base num.toNat) := by
  have hroom : num.toNat < base ^ 32 := num.isLt.trans_le (Nat.pow_le_pow_left hbase 32)
  simp only [diagPutnum]
  split
  · rw [‹num = 0#32›]
    rfl
  · have hne : num.toNat ≠ 0 := fun h => ‹num ≠ 0#32› (BitVec.eq_of_toNat_eq h)
    rw [diagPutnumLoop_eq hbase hle 32 _ _ hroom, Option.map_some, List.nil_append, numeral,
      digitList, if_neg hne]

/-- What the code sends for a piece. -/
def Piece.sent (overflow : BitVec 32) : Piece → List Byte
  | .decimal n =>
    if n = BitVec.intMin 32 then ascii '-' :: numeral digitByte 10 overflow.toNat
    else (Piece.decimal n).text
  | p => p.text

theorem toNat_neg_of_toInt_neg {n : BitVec 32} (h : n.toInt < 0) :
    (-n).toNat = n.toInt.natAbs := by
  rw [BitVec.toInt_eq_toNat_cond] at h ⊢
  rw [BitVec.toNat_neg]
  have := n.isLt
  split_ifs at h ⊢ <;> omega

theorem toNat_of_toInt_nonneg {n : BitVec 32} (h : ¬ n.toInt < 0) : n.toNat = n.toInt.natAbs := by
  rw [BitVec.toInt_eq_toNat_cond] at h ⊢
  have := n.isLt
  split_ifs at h ⊢ <;> omega

theorem diagDecimal_eq (overflow n : BitVec 32) :
    diagDecimal overflow n = some ((Piece.decimal n).sent overflow) := by
  simp only [diagDecimal, Piece.sent, Piece.text, diagPutnum_eq (show 1 < 10 by decide) (by decide)]
  rw [BitVec.slt_eq_decide, BitVec.toInt_zero]
  by_cases hneg : n.toInt < 0
  · rw [if_pos (decide_eq_true hneg), if_pos hneg]
    by_cases hmin : n = BitVec.intMin 32
    · rw [if_pos hmin, if_pos hmin, Option.map_some]
    · rw [if_neg hmin, if_neg hmin, Option.map_some, toNat_neg_of_toInt_neg hneg,
        List.singleton_append]
  · have hmin : n ≠ BitVec.intMin 32 := fun h => hneg (by rw [h]; decide)
    rw [if_neg (by simpa using hneg), if_neg hneg, if_neg hmin, toNat_of_toInt_nonneg hneg,
      List.nil_append]

/-- The `switch` sends the piece and takes its argument. -/
theorem diagConvert_eq (overflow : BitVec 32) {c : Byte} {args args' : List DiagArg} {p : Piece}
    (h : conversion c args = some (p, args')) :
    diagConvert overflow c args = some (p.sent overflow, args') := by
  simp only [conversion, diagConvert] at h ⊢
  by_cases hc : c = ascii 'c'
  · rw [if_pos hc] at h ⊢
    split at h
    · cases h
      rfl
    · cases h
  by_cases hs : c = ascii 's'
  · rw [if_neg hc, if_pos hs] at h ⊢
    split at h
    · cases h
      rw [diagPrint_eq]
      rfl
    · cases h
  by_cases hd : c = ascii 'd'
  · rw [if_neg hc, if_neg hs, if_pos hd] at h ⊢
    split at h
    · cases h
      rw [diagDecimal_eq, Option.map_some]
    · cases h
  by_cases hx : c = ascii 'x'
  · rw [if_neg hc, if_neg hs, if_neg hd, if_pos hx] at h ⊢
    split at h
    · cases h
      rw [diagPutnum_eq (by decide) (by decide), Option.map_some]
      rfl
    · cases h
  · rw [if_neg hc, if_neg hs, if_neg hd, if_neg hx] at h ⊢
    cases h
    split
    · rw [‹c = ascii '%'›]
      rfl
    · rfl

/-! ### The loop -/

/-- The bytes of `fmt` and a NUL lie in the memory from `i` on. -/
def LiesAt (m : ℕ → Byte) : ℕ → List Byte → Prop
  | i, [] => m i = 0#8
  | i, c :: fmt => m i = c ∧ LiesAt m (i + 1) fmt

theorem liesAt_of_getElem {m : ℕ → Byte} (fmt : List Byte) :
    ∀ i, (∀ k (hk : k < (fmt ++ [0#8]).length), m (i + k) = (fmt ++ [0#8])[k]) → LiesAt m i fmt := by
  induction fmt with
  | nil => exact fun i h => h 0 Nat.one_pos
  | cons c fmt ih =>
    intro i h
    refine ⟨h 0 (Nat.succ_pos _), ih _ fun k hk => ?_⟩
    rw [Nat.add_right_comm, Nat.add_assoc]
    exact h (k + 1) (by simpa using hk)

theorem formatMemory_liesAt (fmt : CString) (beyond : ℕ → Byte) :
    LiesAt (formatMemory fmt beyond) 0 fmt.bytes := by
  apply liesAt_of_getElem
  intro k hk
  rw [formatMemory, Nat.zero_add, List.getD_eq_getElem _ _ hk]

variable {overflow : BitVec 32} {m : ℕ → Byte} {fmt : List Byte} {args : List DiagArg}
  {ps : List Piece}

theorem diagPrintfLoop_nul (fuel : ℕ) {i : ℕ} (sent : List Byte) (h : m i = 0#8) :
    diagPrintfLoop overflow m (fuel + 1) i args sent = .after [i] (.pure (some sent)) := by
  rw [diagPrintfLoop, if_pos h]

theorem diagPrintfLoop_raw (fuel : ℕ) {i : ℕ} (sent : List Byte) (hnul : m i ≠ 0#8)
    (h : m i ≠ ascii '%') :
    diagPrintfLoop overflow m (fuel + 1) i args sent =
      .after [i] (diagPrintfLoop overflow m fuel (i + 1) args (sent ++ [m i])) := by
  rw [diagPrintfLoop, if_neg hnul, if_pos h]

theorem diagPrintfLoop_conversion (fuel : ℕ) {i : ℕ} (sent : List Byte) {p : Piece}
    {args' : List DiagArg} (h : m i = ascii '%') (hp : conversion (m (i + 1)) args = some (p, args')) :
    diagPrintfLoop overflow m (fuel + 1) i args sent =
      .after [i] (.after [i + 1]
        (diagPrintfLoop overflow m fuel (i + 2) args' (sent ++ p.sent overflow))) := by
  have hnul : m i ≠ 0#8 := by
    rw [h]
    decide
  rw [diagPrintfLoop, if_neg hnul, if_neg (not_not.mpr h), diagConvert_eq overflow hp]

theorem conversion_ne_lone {c : Byte} {p : Piece} {args' : List DiagArg}
    (h : conversion c args = some (p, args')) : p ≠ .lone := by
  simp only [conversion] at h
  split_ifs at h
  · split at h <;> cases h
    exact nofun
  · split at h <;> cases h
    exact nofun
  · split at h <;> cases h
    exact nofun
  · split at h <;> cases h
    exact nofun
  · cases h
    exact nofun

/-- What a format with its first piece `p` begins with. -/
theorem pieces_cons {p : Piece} (h : pieces fmt args = some (p :: ps)) :
    (∃ c fmt', fmt = c :: fmt' ∧ c ≠ ascii '%' ∧ p = .raw c ∧ pieces fmt' args = some ps) ∨
      (fmt = [ascii '%'] ∧ p = .lone ∧ ps = []) ∨
      ∃ d fmt' args', fmt = ascii '%' :: d :: fmt' ∧ conversion d args = some (p, args') ∧
        pieces fmt' args' = some ps := by
  unfold pieces at h
  split at h
  · cases h
  · split_ifs at h with hc
    · rw [Option.map_eq_some_iff] at h
      obtain ⟨ps', hps', heq⟩ := h
      obtain ⟨rfl, rfl⟩ := List.cons.inj heq
      exact .inl ⟨_, _, rfl, hc, rfl, hps'⟩
    · obtain rfl := not_not.mp hc
      split at h
      · obtain ⟨rfl, rfl⟩ := List.cons.inj (Option.some.inj h)
        exact .inr (.inl ⟨rfl, rfl, rfl⟩)
      · split at h
        · cases h
        · rename_i hp
          rw [Option.map_eq_some_iff] at h
          obtain ⟨ps', hps', heq⟩ := h
          obtain ⟨rfl, rfl⟩ := List.cons.inj heq
          exact .inr (.inr ⟨_, _, _, rfl, hp, hps'⟩)

theorem eq_nil_of_pieces_nil (h : pieces fmt args = some []) : fmt = [] := by
  unfold pieces at h
  split at h
  · rfl
  · split_ifs at h
    · obtain ⟨_, _, heq⟩ := Option.map_eq_some_iff.mp h
      cases heq
    · split at h
      · cases h
      · split at h
        · cases h
        · obtain ⟨_, _, heq⟩ := Option.map_eq_some_iff.mp h
          cases heq

theorem eq_percent_of_pieces_lone (h : pieces fmt args = some (.lone :: ps)) :
    fmt = [ascii '%'] := by
  obtain ⟨_, _, _, _, heq, _⟩ | ⟨hfmt, -, -⟩ | ⟨_, _, _, _, hconversion, _⟩ := pieces_cons h
  · cases heq
  · exact hfmt
  · exact absurd rfl (conversion_ne_lone hconversion)

/-- A round of the loop over a piece that is not a lone `%`: it is sent, and the `w` places of the
format that spell it are read. -/
theorem diagPrintfLoop_round (overflow : BitVec 32) {i : ℕ} {p : Piece}
    (h : pieces fmt args = some (p :: ps)) (hp : p ≠ .lone) (hm : LiesAt m i fmt)
    (hnonzero : 0#8 ∉ fmt) :
    ∃ fmt' args' w, pieces fmt' args' = some ps ∧ LiesAt m (i + w) fmt' ∧ 0#8 ∉ fmt' ∧
      fmt.length = w + fmt'.length ∧ ∃ is : List ℕ, (∀ j ∈ is, j < i + w) ∧
        ∀ fuel sent, diagPrintfLoop overflow m (fuel + 1) i args sent =
          .after is (diagPrintfLoop overflow m fuel (i + w) args' (sent ++ p.sent overflow)) := by
  obtain ⟨c, fmt', rfl, hc, rfl, hps⟩ | ⟨-, rfl, -⟩ | ⟨d, fmt', args', rfl, hd, hps⟩ :=
    pieces_cons h
  · obtain ⟨hi, hm⟩ := hm
    rw [List.mem_cons, not_or] at hnonzero
    refine ⟨fmt', args, 1, hps, hm, hnonzero.2, Nat.add_comm _ _, [i], by simp, ?_⟩
    intro fuel sent
    rw [diagPrintfLoop_raw fuel sent (hi ▸ Ne.symm hnonzero.1) (hi ▸ hc), hi]
    rfl
  · exact absurd rfl hp
  · obtain ⟨hi, hi', hm⟩ := hm
    rw [List.mem_cons, List.mem_cons, not_or, not_or] at hnonzero
    refine ⟨fmt', args', 2, hps, hm, hnonzero.2.2, by simp; omega, [i, i + 1], by simp, ?_⟩
    intro fuel sent
    rw [diagPrintfLoop_conversion fuel sent hi (hi' ▸ hd)]
    rfl

/-- At a place from `n` on the loop reads there. -/
theorem not_within_from {n i : ℕ} (hi : n ≤ i) (sent : List Byte) (fuel : ℕ) :
    ¬ (diagPrintfLoop overflow m fuel i args sent).Within n := by
  cases fuel with
  | zero => exact Reading.not_within_running
  | succ fuel =>
    rw [diagPrintfLoop, Reading.within_after]
    exact fun h => absurd (h.1 i (List.mem_singleton.mpr rfl)) (by omega)

/-- **The loop** over a format without a lone `%` sends its pieces, and reads the format up to its
NUL. -/
theorem diagPrintfLoop_pieces (overflow : BitVec 32) (ps : List Piece) :
    ∀ (fmt : List Byte) (args : List DiagArg) (i : ℕ) (sent : List Byte) (fuel : ℕ),
      pieces fmt args = some ps → Piece.lone ∉ ps → LiesAt m i fmt → 0#8 ∉ fmt →
      ps.length < fuel →
      (diagPrintfLoop overflow m fuel i args sent).value =
          some (some (sent ++ ps.flatMap (Piece.sent overflow))) ∧
        (diagPrintfLoop overflow m fuel i args sent).Within (i + fmt.length + 1) := by
  induction ps with
  | nil =>
    intro fmt args i sent fuel h _ hm _ hfuel
    obtain ⟨k, rfl⟩ : ∃ k, fuel = k + 1 := ⟨fuel - 1, by omega⟩
    obtain rfl := eq_nil_of_pieces_nil h
    rw [diagPrintfLoop_nul k sent hm, List.flatMap_nil, List.append_nil]
    exact ⟨rfl, by simp⟩
  | cons p ps ih =>
    intro fmt args i sent fuel h hlone hm hnonzero hfuel
    obtain ⟨k, rfl⟩ : ∃ k, fuel = k + 1 := ⟨fuel - 1, by omega⟩
    rw [List.mem_cons, not_or] at hlone
    rw [List.length_cons] at hfuel
    obtain ⟨fmt', args', w, hps, hm', hnonzero', hlength, is, his, hround⟩ :=
      diagPrintfLoop_round overflow h (Ne.symm hlone.1) hm hnonzero
    obtain ⟨hvalue, hwithin⟩ :=
      ih fmt' args' (i + w) (sent ++ p.sent overflow) k hps hlone.2 hm' hnonzero' (by omega)
    rw [hround, hlength, ← Nat.add_assoc]
    refine ⟨?_, ?_⟩
    · rw [Reading.value_after, hvalue, List.append_assoc, List.flatMap_cons]
    · rw [Reading.within_after]
      exact ⟨fun j hj => (his j hj).trans (by omega), hwithin⟩

/-- A lone `%` takes the loop past the NUL, which it prints, and on from there. -/
theorem diagPrintfLoop_lone (overflow : BitVec 32) (ps : List Piece) :
    ∀ (fmt : List Byte) (args : List DiagArg) (i : ℕ) (sent : List Byte) (fuel : ℕ),
      pieces fmt args = some ps → Piece.lone ∈ ps → LiesAt m i fmt → 0#8 ∉ fmt →
      ¬ (diagPrintfLoop overflow m fuel i args sent).Within (i + fmt.length + 1) := by
  induction ps with
  | nil => exact fun _ _ _ _ _ _ hlone => absurd hlone List.not_mem_nil
  | cons p ps ih =>
    intro fmt args i sent fuel h hlone hm hnonzero hwithin
    cases fuel with
    | zero => exact Reading.not_within_running hwithin
    | succ k =>
      by_cases hp : p = .lone
      · subst hp
        obtain rfl := eq_percent_of_pieces_lone h
        obtain ⟨hi, hnul⟩ := hm
        have hconversion : conversion (m (i + 1)) args = some (.raw 0#8, args) := by
          rw [show m (i + 1) = 0#8 from hnul]
          rfl
        rw [diagPrintfLoop_conversion k sent hi hconversion, Reading.within_after,
          Reading.within_after] at hwithin
        exact not_within_from le_rfl _ k hwithin.2.2
      · obtain ⟨fmt', args', w, hps, hm', hnonzero', hlength, is, -, hround⟩ :=
          diagPrintfLoop_round overflow h hp hm hnonzero
        rw [hround, hlength, ← Nat.add_assoc, Reading.within_after] at hwithin
        exact ih fmt' args' (i + w) _ k hps
          ((List.mem_cons.mp hlone).resolve_left (Ne.symm hp)) hm' hnonzero' hwithin.2

theorem diagPrintfLoop_settled (fuel : ℕ) :
    ∀ (i : ℕ) (args : List DiagArg) (sent : List Byte),
      Reading.Settled (diagPrintfLoop overflow m fuel i args sent)
        (diagPrintfLoop overflow m (fuel + 1) i args sent) := by
  induction fuel with
  | zero => exact fun _ _ _ => Reading.settled_running _
  | succ fuel ih =>
    intro i args sent
    rw [diagPrintfLoop, diagPrintfLoop]
    apply Reading.Settled.after
    split_ifs
    · exact Reading.Settled.refl _
    · exact ih _ _ _
    · apply Reading.Settled.after
      split
      · exact Reading.Settled.refl _
      · exact ih _ _ _

/-! ### The texts -/

theorem text_intMin :
    (Piece.decimal (BitVec.intMin 32)).text = ascii '-' :: numeral digitByte 10 (2 ^ 31) := rfl

/-- What is sent is the text, but for the most negative number. -/
theorem sent_eq_text_iff (overflow : BitVec 32) (p : Piece) :
    p.sent overflow = p.text ↔
      (p = .decimal (BitVec.intMin 32) → overflow = BitVec.intMin 32) := by
  cases p with
  | decimal n =>
    by_cases hn : n = BitVec.intMin 32
    · subst hn
      have hinj : Function.Injective (numeral digitByte 10) :=
        numeral_injective (by decide) (digitByte_injOn.mono (Set.Iio_subset_Iio (by decide)))
      rw [Piece.sent, if_pos rfl, text_intMin, List.cons.injEq, hinj.eq_iff]
      constructor
      · exact fun h _ => BitVec.eq_of_toNat_eq h.2
      · exact fun h => ⟨rfl, congrArg BitVec.toNat (h rfl)⟩
    · rw [Piece.sent, if_neg hn]
      exact iff_of_true rfl fun h => absurd (Piece.decimal.inj h) hn
  | _ => exact iff_of_true rfl nofun

/-- No number takes more digits than the most negative one. -/
theorem sent_length_le (overflow : BitVec 32) (p : Piece) :
    (p.sent overflow).length ≤ p.text.length := by
  by_cases hp : p = .decimal (BitVec.intMin 32)
  · subst hp
    have hshort : (numeral digitByte 10 overflow.toNat).length ≤ 10 :=
      (numeral_length_le_iff (by decide) (by decide)).mpr (overflow.isLt.trans (by decide))
    have hlong : ¬ (numeral digitByte 10 (2 ^ 31)).length ≤ 9 := by
      rw [numeral_length_le_iff (by decide) (by decide)]
      decide
    rw [text_intMin, Piece.sent, if_pos rfl, List.length_cons, List.length_cons]
    omega
  · rw [(sent_eq_text_iff overflow p).mpr fun h => absurd h hp]

theorem not_diagPrintfOk_of_lone {fmt : CString} (h : pieces fmt.bytes args = some ps)
    (hlone : Piece.lone ∈ ps) (overflow : BitVec 32) (beyond : ℕ → Byte) (text : List Byte) :
    ¬ DiagPrintfOk overflow fmt beyond args text := by
  rintro ⟨fuel, -, hwithin⟩
  have hm := formatMemory_liesAt fmt beyond
  refine diagPrintfLoop_lone overflow ps fmt.bytes args 0 [] fuel h hlone hm fmt.nonzero ?_
  rw [Nat.zero_add]
  exact hwithin

/-- Without a lone `%` the loop ends, with the text that is sent and no other. -/
theorem diagPrintfOk_iff_sent {fmt : CString} (h : pieces fmt.bytes args = some ps)
    (hlone : Piece.lone ∉ ps) (overflow : BitVec 32) (beyond : ℕ → Byte) (text : List Byte) :
    DiagPrintfOk overflow fmt beyond args text ↔ ps.flatMap (Piece.sent overflow) = text := by
  have hm := formatMemory_liesAt fmt beyond
  have hrun := fun fuel =>
    diagPrintfLoop_pieces overflow ps fmt.bytes args 0 [] fuel h hlone hm fmt.nonzero
  constructor
  · rintro ⟨fuel, hvalue, -⟩
    have hlong := (hrun (fuel + ps.length + 1) (by omega)).1
    have hsettled := Reading.settled_le
      (fun fuel => diagPrintfLoop_settled fuel 0 args [])
      (show fuel ≤ fuel + ps.length + 1 by omega)
      (show (diagPrintf overflow fmt beyond args fuel).value.isSome = true by rw [hvalue]; rfl)
    have hsame := congrArg Reading.value hsettled
    rw [hlong, List.nil_append] at hsame
    exact Option.some.inj (Option.some.inj (hsame.trans hvalue))
  · rintro rfl
    have hend := hrun (ps.length + 1) (by omega)
    rw [List.nil_append, Nat.zero_add] at hend
    exact ⟨ps.length + 1, hend⟩

theorem sent_eq_text_of_pieces (overflow : BitVec 32) (ps : List Piece) :
    ps.flatMap (Piece.sent overflow) = ps.flatMap Piece.text ↔
      (Piece.decimal (BitVec.intMin 32) ∈ ps → overflow = BitVec.intMin 32) := by
  rw [flatMap_eq_iff fun p _ => sent_length_le overflow p]
  constructor
  · exact fun hall hmem => (sent_eq_text_iff overflow _).mp (hall _ hmem) rfl
  · exact fun hmin p hp => (sent_eq_text_iff overflow p).mpr fun heq => hmin (heq ▸ hp)

/-- **`diag_printf` follows its reference** exactly when the format does not end in a lone `%`, and
does not print the most negative number unless its negation happens to leave it as it is. -/
theorem diag_printf_iff (overflow : BitVec 32) (fmt : CString) (beyond : ℕ → Byte)
    (args : List DiagArg) (ps : List Piece) (h : pieces fmt.bytes args = some ps) :
    DiagPrintfOk overflow fmt beyond args (ps.flatMap Piece.text) ↔
      Piece.lone ∉ ps ∧
        (Piece.decimal (BitVec.intMin 32) ∈ ps → overflow = BitVec.intMin 32) := by
  by_cases hlone : Piece.lone ∈ ps
  · exact iff_of_false (not_diagPrintfOk_of_lone h hlone overflow beyond _)
      fun hok => hok.1 hlone
  · rw [diagPrintfOk_iff_sent h hlone, sent_eq_text_of_pieces]
    exact (and_iff_right hlone).symm

/-- A number and a per cent sign. -/
theorem diag_printf_iff_percent :
    DiagPrintfOk 0#32 ⟨[ascii '%', ascii 'd', ascii '%', ascii '%'], by decide⟩ (fun _ => 0#8)
      [.int (-5#32)] [ascii '-', ascii '5', ascii '%'] := by
  refine (diag_printf_iff 0#32 ⟨[ascii '%', ascii 'd', ascii '%', ascii '%'], by decide⟩
    (fun _ => 0#8) [.int (-5#32)] [.decimal (-5#32), .raw (ascii '%')] rfl).mpr ⟨?_, fun h => ?_⟩
  · simp
  · simp at h
    exact absurd h (by decide)

/-- A lone `%` prints the NUL, and what lies behind it. -/
theorem diag_printf_lone :
    (diagPrintf 0#32 ⟨[ascii '%'], by decide⟩ (fun i => if i = 2 then ascii 'A' else 0#8) []
        4).value = some (some [0#8, ascii 'A']) ∧
      ∀ text, ¬ DiagPrintfOk 0#32 ⟨[ascii '%'], by decide⟩
        (fun i => if i = 2 then ascii 'A' else 0#8) [] text :=
  ⟨rfl, not_diagPrintfOk_of_lone rfl (List.mem_singleton.mpr rfl) _ _⟩

end PcbMill
