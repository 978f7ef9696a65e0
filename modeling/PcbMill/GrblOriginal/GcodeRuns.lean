import PcbMill.GrblOriginal.GcodeWords
import PcbMill.Lib.Run

/-!
# Lines one after another

While the coordinate data can be read, a line that is refused leaves everything as it was, and all
of the data can still be read behind a line that is not.

The commands G54 to G59 are told from the bit of their modal group, which the mask of eight bits
does not reach: they select a coordinate system without loading it.
-/

namespace PcbMill.Gcode

open Run GcodeNumber

universe u

variable {α : Type u}

/-! ### What a word can set -/

/-- There are six coordinate systems to select. -/
def Setting.InRange : Setting α → Prop
  | .coordSelect i => i < nCoordinateSystem
  | _ => True

theorem gMeaning_inRange {n k : ℕ} {m : Meaning α} (h : gMeaning n k = some m) :
    m.setting.InRange := by
  rw [gMeaning.eq_def] at h
  split at h
  case h_39 => cases h
  all_goals
    cases h
    simp [Setting.InRange, nCoordinateSystem]

theorem mMeaning_inRange {n k : ℕ} {m : Meaning α} (h : mMeaning n k = some m) :
    m.setting.InRange := by
  rw [mMeaning.eq_def] at h
  split at h
  case h_10 => cases h
  all_goals
    cases h
    trivial

theorem Parse.block_enter (q : Parse α) (m : Meaning α) :
    (q.enter m).block = (m.setting.set q).block := by
  rw [Parse.enter, Parse.claim]
  split_ifs <;> cases m.setting.place <;> rfl

variable [GcodeNumber α] {s : ParserState α} {p q : Parse α} {m : Meaning α} {line w : List Byte}

theorem valueSetting_inRange {letter : Byte} {x : α} {v : Setting α}
    (h : valueSetting letter x = some v) : v.InRange := by
  rw [valueSetting.eq_def] at h
  split at h
  case h_14 => cases h
  all_goals
    cases h
    trivial

theorem wordMeaning_inRange (h : wordMeaning w = some m) : m.setting.InRange := by
  obtain ⟨⟨letter, x⟩, -, h⟩ := Option.bind_eq_some_iff.mp h
  simp only [meaning] at h
  split_ifs at h
  · exact gMeaning_inRange h
  · exact mMeaning_inRange h
  · obtain ⟨v, hv, rfl⟩ := Option.map_eq_some_iff.mp h
    exact valueSetting_inRange (Option.filter_eq_some_iff.mp hv).1

/-- What holds at the beginning of a line and is kept by its words. -/
theorem gcParse_induction {P : Parse α → Prop} (h : gcParse s line = .ok p)
    (hstart : P (parseStart s)) (henter : ∀ ws : List (List Byte), line = ws.flatten →
      (∀ w ∈ ws, IsWord α w) → ∀ w ∈ ws, ∀ m, wordMeaning w = some m →
        ∀ q, q.refuses m = false → P q → P (q.enter m)) : P p := by
  obtain ⟨ws, rfl, hws⟩ := exists_words line.length _ p line le_rfl h
  obtain ⟨ms, hms, hfits, rfl⟩ := gcParse_words hws h
  have hkeep : ∀ m ∈ ms, ∀ q, q.refuses m = false → P q → P (q.enter m) := by
    intro m hm
    have hmem : some m ∈ ws.map wordMeaning := hms ▸ List.mem_map_of_mem hm
    obtain ⟨w, hw, hmeaning⟩ := List.mem_map.mp hmem
    exact henter ws rfl hws w hw m hmeaning
  have hfree : ∀ m ∈ ms, (parseStart s).refuses m = false := fun m _ => refuses_parseStart s m
  clear hms h
  generalize parseStart s = q at hstart hfree ⊢
  induction ms generalizing q with
  | nil => exact hstart
  | cons m ms ih =>
    obtain ⟨hfirst, hrest⟩ := List.pairwise_cons.mp hfits
    obtain ⟨hm, hlater⟩ := List.forall_mem_cons.mp hfree
    refine ih hrest (fun m' hm' => hkeep m' (List.mem_cons_of_mem m hm')) _
      (hkeep m List.mem_cons_self q hm hstart) fun m' hm' => ?_
    exact (q.refuses_enter_eq_false m m').mpr ⟨hlater m' hm', hfirst m' hm'⟩

theorem coordSelect_lt (h : gcParse s line = .ok p) (hs : s.modal.coordSelect < nCoordinateSystem) :
    p.block.modal.coordSelect < nCoordinateSystem := by
  refine gcParse_induction (P := fun q => q.block.modal.coordSelect < nCoordinateSystem) h hs ?_
  intro ws _ _ w _ m hm q _ hq
  have hrange := wordMeaning_inRange hm
  rw [q.block_enter]
  cases hset : m.setting with
  | coordSelect i =>
    rw [hset] at hrange
    exact hrange
  | _ => exact hq

/-! ### What the checks leave as it is -/

/-- The commands of a line, which the checks do not change. -/
def Parse.commands {α : Type*} (p : Parse α) : Modal × NonModal :=
  (p.block.modal, p.block.nonModalCommand)

theorem bind_eq_ok {ε : Type*} {β γ : Type u} {r : Except ε β} {f : β → Except ε γ} {c : γ} :
    (r >>= f) = .ok c ↔ ∃ b, r = .ok b ∧ f b = .ok c := by
  constructor
  · intro h
    cases r with
    | error e => cases h
    | ok b => exact ⟨b, rfl, h⟩
  · rintro ⟨b, rfl, h⟩
    exact h

theorem map_eq_ok {ε β γ : Type*} {r : Except ε β} {f : β → γ} {c : γ} :
    r.map f = .ok c ↔ ∃ b, r = .ok b ∧ f b = c := by
  constructor
  · intro h
    cases r with
    | error e => cases h
    | ok b => exact ⟨b, rfl, Except.ok.inj h⟩
  · rintro ⟨b, rfl, rfl⟩
    rfl

omit [GcodeNumber α] in
theorem commands_dropAxisCommand (p : Parse α) : (dropAxisCommand p).commands = p.commands := by
  rw [dropAxisCommand]
  split_ifs <;> rfl

variable {p' : Parse α} {store store' : CoordStore α}

omit [GcodeNumber α] in
theorem withStore_eq_ok {β : Type*} {r : Except GcodeError β} {b : β}
    (h : withStore store r = .ok b) : r = .ok b := by
  cases r <;> cases h
  rfl

theorem checkFeedRate_commands (h : checkFeedRate s p = .ok p') : p'.commands = p.commands := by
  rw [checkFeedRate] at h
  split at h
  · split_ifs at h
    cases h
    rfl
  · obtain rfl := Except.ok.inj h
    split_ifs <;> rfl

omit [GcodeNumber α] in
theorem checkDwell_commands (h : checkDwell p = .ok p') : p'.commands = p.commands := by
  rw [checkDwell] at h
  split_ifs at h <;> cases h <;> rfl

theorem checkModes_commands (h : checkModes s p = .ok p') : p'.commands = p.commands := by
  rw [checkModes] at h
  obtain ⟨p1, h1, h⟩ := bind_eq_ok.mp h
  obtain ⟨p2, h2, h⟩ := bind_eq_ok.mp h
  obtain ⟨p3, h3, h⟩ := bind_eq_ok.mp h
  have hline : p1.commands = p.commands := by
    rw [checkLineNumber, implicitAxisCommand] at h1
    split_ifs at h1 <;> cases h1 <;> rfl
  have hspeed : (keepSpindleSpeed s p2).commands = p2.commands := by
    rw [keepSpindleSpeed]
    split_ifs <;> rfl
  have hxyz : p'.commands = p3.commands := by
    rw [checkToolLength, convertXyz] at h
    split_ifs at h <;> cases h <;> rfl
  rw [hxyz, checkDwell_commands h3, hspeed, checkFeedRate_commands h2, hline]

theorem commands_setTarget (s : ParserState α) (data : Axes α) (p : Parse α) :
    (setTarget s data p).commands = p.commands := by
  rw [setTarget]
  split_ifs <;> rfl

theorem checkSetCoordinateData_commands {data : Axes α} {c : Checked α}
    (h : checkSetCoordinateData s store data p = .ok c) : c.parse.commands = p.commands := by
  simp only [checkSetCoordinateData] at h
  split_ifs at h
  all_goals
    obtain ⟨data', -, rfl⟩ := map_eq_ok.mp h
    rfl

theorem checkNonModal_commands {data : Axes α} {c : Checked α}
    (h : checkNonModal s store data p = .ok c) : c.parse.commands = p.commands := by
  rw [checkNonModal] at h
  split at h
  · exact checkSetCoordinateData_commands h
  · split_ifs at h
    cases h
    rfl
  · obtain ⟨data', -, rfl⟩ := map_eq_ok.mp h
    exact (commands_dropAxisCommand _).trans (commands_setTarget s data p)
  · obtain ⟨data', -, rfl⟩ := map_eq_ok.mp h
    exact (commands_dropAxisCommand _).trans (commands_setTarget s data p)
  · split_ifs at h
    cases h
    exact commands_setTarget s data p
  · cases h
    exact commands_setTarget s data p

theorem checkArc_commands (h : checkArc s p = .ok p') : p'.commands = p.commands := by
  simp only [checkArc, checkArcRadius, checkArcCentre] at h
  split_ifs at h <;> cases h <;> rfl

/-- What the check of the motion mode makes of a line. -/
theorem checkMotion_eq_ok (h : checkMotion s p = .ok p') :
    p' = p ∨ p' = dropAxisCommand p ∨ checkArc s p = .ok p' := by
  cases hmotion : p.block.modal.motion <;> simp only [checkMotion, hmotion] at h <;>
    split_ifs at h <;> first | contradiction | cases h | skip
  all_goals first
    | exact Or.inl rfl
    | exact Or.inr (Or.inl rfl)
    | exact Or.inr (Or.inr h)

theorem checkMotion_commands (h : checkMotion s p = .ok p') : p'.commands = p.commands := by
  obtain rfl | rfl | h := checkMotion_eq_ok h
  · rfl
  · exact commands_dropAxisCommand p
  · exact checkArc_commands h

theorem gcCheck_commands {c : Checked α} (h : gcCheck s store p = .ok c) :
    c.parse.commands = p.commands := by
  rw [gcCheck] at h
  obtain ⟨p1, h1, h⟩ := bind_eq_ok.mp h
  obtain ⟨data, -, h⟩ := bind_eq_ok.mp h
  obtain ⟨c1, h2, h⟩ := bind_eq_ok.mp h
  obtain ⟨p2, h3, h⟩ := bind_eq_ok.mp h
  cases h
  obtain ⟨p3, h4, h5⟩ := bind_eq_ok.mp (withStore_eq_ok h3)
  have hunused : p2.commands = p3.commands := by
    simp only [checkUnused] at h5
    split_ifs at h5 <;> cases h5 <;> rfl
  show p2.commands = p.commands
  rw [hunused, checkMotion_commands h4, checkNonModal_commands h2,
    checkModes_commands (withStore_eq_ok h1)]

/-! ### Refused lines -/

/-- A check that fails leaves the store as it is. -/
def KeepsStore {α β : Type*} (store : CoordStore α) (r : StoreCheck α β) : Prop :=
  ∀ status store', r = .error (status, store') → store' = store

section KeepsStore

omit [GcodeNumber α]

theorem keepsStore_withStore {β : Type*} (store : CoordStore α) (r : Except GcodeError β) :
    KeepsStore store (withStore store r) := by
  intro status store' h
  cases r <;> cases h
  rfl

theorem keepsStore_ok {β : Type*} (store : CoordStore α) (b : β) :
    KeepsStore store (.ok b : StoreCheck α β) := by
  intro status store' h
  cases h

theorem keepsStore_error {β : Type*} (store : CoordStore α) (status : GcodeError) :
    KeepsStore store (.error (status, store) : StoreCheck α β) := by
  intro status' store' h
  cases h
  rfl

theorem keepsStore_guard {β : Type*} {c : Prop} [Decidable c] (status : GcodeError)
    {r : StoreCheck α β} (hr : ¬c → KeepsStore store r) :
    KeepsStore store (if c then .error (status, store) else r) := by
  by_cases hc : c
  · rw [if_pos hc]
    exact keepsStore_error store status
  · rw [if_neg hc]
    exact hr hc

theorem KeepsStore.bind {β γ : Type u} {r : StoreCheck α β} {f : β → StoreCheck α γ}
    (hr : KeepsStore store r) (hf : ∀ b, r = .ok b → KeepsStore store (f b)) :
    KeepsStore store (r >>= f) := by
  intro status store' h
  cases r with
  | error e =>
    cases h
    exact hr status store' rfl
  | ok b => exact hf b rfl status store' h

theorem KeepsStore.map {β γ : Type*} {r : StoreCheck α β} (hr : KeepsStore store r) (f : β → γ) :
    KeepsStore store (r.map f) := by
  intro status store' h
  cases r with
  | error e =>
    cases h
    exact hr status store' rfl
  | ok b => cases h

theorem isSome_settingsWriteCoordData {i : ℕ} (h : (store i).isSome) (j : ℕ) (data : Axes α) :
    (settingsWriteCoordData store j data i).isSome := by
  rw [settingsWriteCoordData]
  by_cases heq : i = j
  · rw [heq, Function.update_self]
    rfl
  · rwa [Function.update_of_ne heq]

end KeepsStore

theorem readCoordData_eq_ok {i : ℕ} (h : (store i).isSome) :
    ∃ data, readCoordData store i = .ok data := by
  obtain ⟨data, hdata⟩ := Option.isSome_iff_exists.mp h
  exact ⟨data, by rw [readCoordData, hdata]⟩

theorem keepsStore_readCoordData {i : ℕ} (h : (store i).isSome) :
    KeepsStore store (readCoordData store i) := by
  obtain ⟨data, hdata⟩ := readCoordData_eq_ok h
  rw [hdata]
  exact keepsStore_ok store data

/-- All of the coordinate data can be read, and a coordinate system is selected that exists. -/
structure Readable (g : Interpreter α) : Prop where
  data : ∀ i < nCoordinateSystem + 2, (g.store i).isSome
  select : g.gcState.modal.coordSelect < nCoordinateSystem

/-- The mask of eight bits never reaches the group of G54 to G59. -/
theorem checkCoordSystem_eq (s : ParserState α) (store : CoordStore α) (p : Parse α) :
    checkCoordSystem s store p = .ok s.coordSystem := by
  have hbit : bitIstrue p.commandWords (bit modalGroupG12) = false := by
    rw [bitIstrue_bit _ (by decide)]
    rfl
  rw [checkCoordSystem, hbit]
  rfl

theorem keepsStore_checkSetCoordinateData {data : Axes α}
    (hdata : ∀ i < nCoordinateSystem + 2, (store i).isSome)
    (hp : p.block.modal.coordSelect < nCoordinateSystem) :
    KeepsStore store (checkSetCoordinateData s store data p) := by
  rw [checkSetCoordinateData]
  refine keepsStore_guard _ fun _ => keepsStore_guard _ fun _ => keepsStore_guard _ fun hlarge =>
    keepsStore_guard _ fun _ => ?_
  refine (keepsStore_readCoordData (hdata _ ?_)).map _
  rw [Nat.not_lt] at hlarge
  split_ifs
  · omega
  · exact Nat.lt_add_right 2 hp

theorem keepsStore_checkNonModal {data : Axes α}
    (hdata : ∀ i < nCoordinateSystem + 2, (store i).isSome)
    (hp : p.block.modal.coordSelect < nCoordinateSystem) :
    KeepsStore store (checkNonModal s store data p) := by
  rw [checkNonModal]
  split
  · exact keepsStore_checkSetCoordinateData hdata hp
  · split_ifs
    · exact keepsStore_error store _
    · exact keepsStore_ok store _
  · exact (keepsStore_readCoordData (hdata _ (by decide))).map _
  · exact (keepsStore_readCoordData (hdata _ (by decide))).map _
  · split_ifs
    · exact keepsStore_ok store _
    · exact keepsStore_error store _
  · exact keepsStore_ok store _

theorem keepsStore_gcCheck (hdata : ∀ i < nCoordinateSystem + 2, (store i).isSome)
    (hp : p.block.modal.coordSelect < nCoordinateSystem) :
    KeepsStore store (gcCheck s store p) := by
  rw [gcCheck]
  refine (keepsStore_withStore store _).bind fun p1 h1 => ?_
  have hselect : p1.block.modal.coordSelect < nCoordinateSystem := by
    have hmodal : p1.block.modal = p.block.modal :=
      congrArg Prod.fst (checkModes_commands (withStore_eq_ok h1))
    rw [hmodal]
    exact hp
  rw [checkCoordSystem_eq]
  refine (keepsStore_ok store _).bind fun data _ => ?_
  refine (keepsStore_checkNonModal hdata hselect).bind fun c _ => ?_
  exact (keepsStore_withStore store _).bind fun p2 _ => keepsStore_ok store _

variable {g : Interpreter α} {c : Checked α} {e : Surroundings α}

/-- The calls of the settings of a line. -/
def settingsCalls (s : ParserState α) (b : ParserBlock α) : List (McCall α) :=
  let keepsSpeed := same s.spindleSpeed b.values.s
  (if keepsSpeed = false ∧ s.modal.spindle ≠ .disable then
      [.spindleRun s.modal.spindle b.values.s] else []) ++
    (if s.modal.spindle = b.modal.spindle then [] else
      [.spindleRun b.modal.spindle (if keepsSpeed then s.spindleSpeed else b.values.s)]) ++
    (if s.modal.coolant = b.modal.coolant then [] else [.coolantRun b.modal.coolant]) ++
    if b.nonModalCommand = .dwell then [.dwell b.values.p] else []

theorem executeSettings_eq (g : Interpreter α) (b : ParserBlock α) : executeSettings g b =
    { gcState := { g.gcState with
        modal := { g.gcState.modal with
          feedRate := b.modal.feedRate, spindle := b.modal.spindle, coolant := b.modal.coolant }
        spindleSpeed := if same g.gcState.spindleSpeed b.values.s then g.gcState.spindleSpeed
          else b.values.s
        feedRate := b.values.f
        tool := b.values.t
        lineNumber := b.values.n }
      store := g.store
      calls := g.calls ++ settingsCalls g.gcState b } := by
  simp only [executeSettings, settingsCalls, Interpreter.call]
  split_ifs <;> simp_all

theorem executeModes_eq (s : ParserState α) (c : Checked α) : executeModes s c =
    { s with
      modal := { s.modal with
        planeSelect := c.parse.block.modal.planeSelect
        units := c.parse.block.modal.units
        toolLength := if c.parse.axisCommand = .toolLengthOffset then
          c.parse.block.modal.toolLength else s.modal.toolLength
        coordSelect := c.parse.block.modal.coordSelect
        distance := c.parse.block.modal.distance }
      toolLengthOffset := if c.parse.axisCommand = .toolLengthOffset then
          if c.parse.block.modal.toolLength = .enableDynamic then
            c.parse.block.values.xyz toolLengthOffsetAxis else 0
        else s.toolLengthOffset
      coordSystem := if s.modal.coordSelect = c.parse.block.modal.coordSelect then s.coordSystem
        else c.coordinateData } := by
  simp only [executeModes]
  split_ifs <;> simp_all

theorem executeSettings_store (g : Interpreter α) (b : ParserBlock α) :
    (executeSettings g b).store = g.store := by
  rw [executeSettings_eq]

theorem executeModes_coordSelect (s : ParserState α) (c : Checked α) :
    (executeModes s c).modal.coordSelect = c.parse.block.modal.coordSelect := by
  rw [executeModes_eq]

theorem readable_executeNonModal (h : Readable g) : Readable (executeNonModal g c) := by
  rw [executeNonModal]
  split
  · exact ⟨fun i hi => isSome_settingsWriteCoordData (h.data i hi) _ _, h.select⟩
  · split_ifs <;> exact ⟨h.data, h.select⟩
  · split_ifs <;> exact ⟨h.data, h.select⟩
  · exact ⟨fun i hi => isSome_settingsWriteCoordData (h.data i hi) _ _, h.select⟩
  · exact ⟨fun i hi => isSome_settingsWriteCoordData (h.data i hi) _ _, h.select⟩
  · exact ⟨h.data, h.select⟩
  · exact ⟨h.data, h.select⟩
  · exact h

omit [GcodeNumber α] in
theorem readable_executeMotion (h : Readable g) : Readable (executeMotion e g c) := by
  simp only [executeMotion]
  split_ifs <;> exact ⟨h.data, h.select⟩

theorem readable_executeFlow (h : Readable g) (flow : ProgramFlow) :
    (executeFlow e g flow).1 = none ∧ Readable (executeFlow e g flow).2 := by
  cases flow with
  | running => exact ⟨rfl, h.data, h.select⟩
  | paused =>
    simp only [executeFlow]
    split_ifs <;> exact ⟨trivial, h.data, h.select⟩
  | completed =>
    obtain ⟨data, hread⟩ := readCoordData_eq_ok (h.data 0 (by decide))
    simp only [executeFlow]
    split_ifs
    · exact ⟨rfl, h.data, (by decide : 0 < 6)⟩
    · simp only [Interpreter.call, hread]
      exact ⟨trivial, h.data, (by decide : 0 < 6)⟩

theorem readable_gcExecute (h : Readable g)
    (hc : c.parse.block.modal.coordSelect < nCoordinateSystem) :
    (gcExecute e g c).1 = none ∧ Readable (gcExecute e g c).2 := by
  refine readable_executeFlow (readable_executeMotion (readable_executeNonModal ⟨?_, ?_⟩)) _
  · show ∀ i < nCoordinateSystem + 2, ((executeSettings g c.parse.block).store i).isSome
    rw [executeSettings_store]
    exact h.data
  · show (executeModes _ c).modal.coordSelect < nCoordinateSystem
    rw [executeModes_coordSelect]
    exact hc

/-- A line is accepted, or leaves everything as it was. -/
theorem gcExecuteLine_cases (h : Readable g) (e : Surroundings α) (line : List Byte) :
    (∃ p c, gcParse g.gcState line = .ok p ∧ gcCheck g.gcState g.store p = .ok c ∧
      gcExecuteLine e g line = gcExecute e g c ∧
        c.parse.block.modal.coordSelect < nCoordinateSystem) ∨
    ∃ status, gcExecuteLine e g line = (some status, g) := by
  rw [gcExecuteLine]
  cases hp : gcParse g.gcState line with
  | error status => exact Or.inr ⟨status, rfl⟩
  | ok p =>
    have hselect := coordSelect_lt hp h.select
    cases hc : gcCheck g.gcState g.store p with
    | error r =>
      obtain ⟨status, store⟩ := r
      have hstore := keepsStore_gcCheck h.data hselect status store hc
      refine Or.inr ⟨status, ?_⟩
      simp only [hc, hstore]
    | ok c =>
      have hmodal : c.parse.block.modal = p.block.modal := congrArg Prod.fst (gcCheck_commands hc)
      exact Or.inl ⟨p, c, rfl, hc, by simp only [hc], by rw [hmodal]; exact hselect⟩

theorem readable_gcInit (hdata : ∀ i < nCoordinateSystem + 2, (g.store i).isSome) :
    Readable (gcInit g) := by
  obtain ⟨data, hread⟩ := readCoordData_eq_ok (hdata 0 (by decide))
  rw [gcInit, hread]
  exact ⟨hdata, (by decide : 0 < 6)⟩

theorem readable_gcStep (h : Readable g) (ev : GcodeEvent α) : Readable (gcStep g ev) := by
  cases ev with
  | line e line =>
    obtain ⟨p, c, -, -, hexec, hselect⟩ | ⟨status, hrefused⟩ := gcExecuteLine_cases h e line
    · rw [gcStep, hexec]
      exact (readable_gcExecute h hselect).2
    · rw [gcStep, hrefused]
      exact h
  | syncPosition position => exact ⟨h.data, h.select⟩
  | init => exact readable_gcInit h.data

/-- G10 writes the offsets, M2 and M30 load them. -/
def Setting.loadsOffsets {α : Type*} : Setting α → Bool
  | .nonModal .setCoordinateData => true
  | .programFlow (some .completed) => true
  | _ => false

def wordLoads (α : Type*) [GcodeNumber α] (w : List Byte) : Bool :=
  (wordMeaning (α := α) w).any fun m => m.setting.loadsOffsets

/-- A line, in whatever words, without G10, M2 and M30. -/
def LoadsNothing (α : Type*) [GcodeNumber α] (line : List Byte) : Prop :=
  ∀ ws : List (List Byte), line = ws.flatten → (∀ w ∈ ws, IsWord α w) →
    ∀ w ∈ ws, wordLoads α w = false

def GcodeEvent.KeepsOffsets : GcodeEvent α → Prop
  | .line _ line => LoadsNothing α line
  | .syncPosition _ => True
  | .init => False

theorem loadsNothing_flatten {ws : List (List Byte)} (hws : ∀ w ∈ ws, IsWord α w)
    (h : ∀ w ∈ ws, wordLoads α w = false) : LoadsNothing α ws.flatten := by
  intro ws' hflat hws'
  rw [← words_unique hws hws' hflat]
  exact h

theorem loadsNothing_parse (hline : LoadsNothing α line) (h : gcParse s line = .ok p)
    (hs : s.modal.programFlow = .running) :
    p.block.nonModalCommand ≠ .setCoordinateData ∧ p.block.modal.programFlow ≠ .completed := by
  refine gcParse_induction (P := fun q => q.block.nonModalCommand ≠ .setCoordinateData ∧
    q.block.modal.programFlow ≠ .completed) h ⟨?_, ?_⟩ ?_
  · exact (by decide : NonModal.noAction ≠ .setCoordinateData)
  · show s.modal.programFlow ≠ .completed
    rw [hs]
    decide
  · intro ws hflat hws w hw m hm q _ hq
    have hloads : m.setting.loadsOffsets = false := by
      have hword := hline ws hflat hws w hw
      rw [wordLoads, hm] at hword
      exact hword
    rw [q.block_enter]
    cases hset : m.setting with
    | nonModal command =>
      rw [hset] at hloads
      refine ⟨?_, hq.2⟩
      rintro rfl
      cases hloads
    | programFlow flow =>
      rw [hset] at hloads
      refine ⟨hq.1, ?_⟩
      cases flow with
      | none => exact hq.2
      | some flow =>
        rintro rfl
        cases hloads
    | _ => exact hq

/-- The coordinate system a word selects. -/
def wordSelects (α : Type*) [GcodeNumber α] (w : List Byte) : Option ℕ :=
  (wordMeaning (α := α) w).bind fun m => match m.setting with
    | .coordSelect i => some i
    | _ => none

/-- The coordinate system that is selected behind a line: the one of its last word that selects
one, or else the one before. -/
def selectedBehind (α : Type*) [GcodeNumber α] (ws : List (List Byte)) (i : ℕ) : ℕ :=
  ws.foldl (fun i w => (wordSelects α w).getD i) i

theorem enter_coordSelect (hm : wordMeaning w = some m) (q : Parse α) :
    (q.enter m).block.modal.coordSelect =
      (wordSelects α w).getD q.block.modal.coordSelect := by
  rw [wordSelects, hm, Option.bind_some, q.block_enter]
  cases m.setting <;> rfl

theorem gcParse_coordSelect {ws : List (List Byte)} (hws : ∀ w ∈ ws, IsWord α w)
    (h : gcParse s ws.flatten = .ok p) :
    p.block.modal.coordSelect = selectedBehind α ws s.modal.coordSelect := by
  obtain ⟨ms, hms, -, rfl⟩ := gcParse_words hws h
  show _ = selectedBehind α ws (parseStart s).block.modal.coordSelect
  clear h hws
  generalize parseStart s = q
  induction ws generalizing ms q with
  | nil =>
    cases ms with
    | nil => rfl
    | cons m ms => cases hms
  | cons w ws ih =>
    cases ms with
    | nil => cases hms
    | cons m ms =>
      obtain ⟨hm, hrest⟩ := List.cons.inj hms
      rw [List.foldl_cons, ih ms hrest, enter_coordSelect hm]
      rfl

theorem checkNonModal_coordinateData {data : Axes α}
    (h : checkNonModal s store data p = .ok c) : c.coordinateData = data := by
  rw [checkNonModal] at h
  split at h
  · simp only [checkSetCoordinateData] at h
    split_ifs at h
    all_goals
      obtain ⟨data', -, rfl⟩ := map_eq_ok.mp h
      rfl
  · split_ifs at h
    cases h
    rfl
  · obtain ⟨data', -, rfl⟩ := map_eq_ok.mp h
    rfl
  · obtain ⟨data', -, rfl⟩ := map_eq_ok.mp h
    rfl
  · split_ifs at h
    cases h
    rfl
  · cases h
    rfl

/-- The offsets a line is checked with are those in force, whatever system it selects. -/
theorem gcCheck_coordinateData (h : gcCheck s store p = .ok c) :
    c.coordinateData = s.coordSystem := by
  rw [gcCheck] at h
  obtain ⟨p1, -, h⟩ := bind_eq_ok.mp h
  obtain ⟨data, hdata, h⟩ := bind_eq_ok.mp h
  obtain ⟨c1, hc1, h⟩ := bind_eq_ok.mp h
  obtain ⟨p2, -, h⟩ := bind_eq_ok.mp h
  rw [checkCoordSystem_eq] at hdata
  cases h
  cases hdata
  have hkept : c1.coordinateData = s.coordSystem := checkNonModal_coordinateData hc1
  exact hkept

theorem executeSettings_coordSystem (g : Interpreter α) (b : ParserBlock α) :
    (executeSettings g b).gcState.coordSystem = g.gcState.coordSystem := by
  rw [executeSettings_eq]

theorem executeModes_coordSystem (h : c.coordinateData = s.coordSystem) :
    (executeModes s c).coordSystem = s.coordSystem := by
  rw [executeModes_eq, h]
  exact ite_self _

theorem executeNonModal_coordSystem (h : c.parse.block.nonModalCommand ≠ .setCoordinateData) :
    (executeNonModal g c).gcState.coordSystem = g.gcState.coordSystem := by
  rw [executeNonModal]
  split
  · contradiction
  · split_ifs <;> rfl
  · split_ifs <;> rfl
  · rfl
  · rfl
  · rfl
  · rfl
  · rfl

omit [GcodeNumber α] in
theorem executeMotion_coordSystem (e : Surroundings α) (g : Interpreter α) (c : Checked α) :
    (executeMotion e g c).gcState.coordSystem = g.gcState.coordSystem := by
  simp only [executeMotion]
  split_ifs <;> rfl

theorem executeNonModal_modal :
    (executeNonModal g c).gcState.modal = g.gcState.modal := by
  rw [executeNonModal]
  split
  · rfl
  · split_ifs <;> rfl
  · split_ifs <;> rfl
  · rfl
  · rfl
  · rfl
  · rfl
  · rfl

omit [GcodeNumber α] in
theorem executeMotion_coordSelect (e : Surroundings α) (g : Interpreter α) (c : Checked α) :
    (executeMotion e g c).gcState.modal.coordSelect = g.gcState.modal.coordSelect := by
  simp only [executeMotion]
  split_ifs <;> rfl

theorem executeFlow_coordSystem {flow : ProgramFlow} (h : flow ≠ .completed) :
    (executeFlow e g flow).2.gcState.coordSystem = g.gcState.coordSystem ∧
      (executeFlow e g flow).2.gcState.modal.programFlow = .running ∧
      (executeFlow e g flow).2.gcState.modal.coordSelect = g.gcState.modal.coordSelect := by
  cases flow with
  | running => exact ⟨rfl, rfl, rfl⟩
  | paused =>
    simp only [executeFlow]
    split_ifs <;> simp [Interpreter.call]
  | completed => contradiction

/-- What a line without G10, M2 and M30 keeps, and what it selects if it is carried out. -/
theorem keepsOffsets_line (hline : LoadsNothing α line)
    (hg : g.gcState.modal.programFlow = .running) :
    (gcExecuteLine e g line).2.gcState.coordSystem = g.gcState.coordSystem ∧
      (gcExecuteLine e g line).2.gcState.modal.programFlow = .running ∧
      ((gcExecuteLine e g line).1 = none → ∀ ws : List (List Byte), line = ws.flatten →
        (∀ w ∈ ws, IsWord α w) → (gcExecuteLine e g line).2.gcState.modal.coordSelect =
          selectedBehind α ws g.gcState.modal.coordSelect) := by
  rw [gcExecuteLine]
  cases hp : gcParse g.gcState line with
  | error status => exact ⟨rfl, hg, fun hok => nomatch hok⟩
  | ok p =>
    obtain ⟨hnonModal, hflow⟩ := loadsNothing_parse hline hp hg
    cases hc : gcCheck g.gcState g.store p with
    | error r =>
      simp only [hc]
      exact ⟨trivial, hg, fun hok => nomatch hok⟩
    | ok c =>
      have hcommands := gcCheck_commands hc
      have hmodal : c.parse.block.modal = p.block.modal := congrArg Prod.fst hcommands
      have hcommand : c.parse.block.nonModalCommand = p.block.nonModalCommand :=
        congrArg Prod.snd hcommands
      rw [← hcommand] at hnonModal
      rw [← hmodal] at hflow
      have hdata : c.coordinateData = (executeSettings g c.parse.block).gcState.coordSystem := by
        rw [executeSettings_coordSystem]
        exact gcCheck_coordinateData hc
      simp only [hc, gcExecute]
      obtain ⟨hsystem, hrunning, hselect⟩ := executeFlow_coordSystem (e := e)
        (g := executeMotion e (executeNonModal { executeSettings g c.parse.block with
          gcState := executeModes (executeSettings g c.parse.block).gcState c } c) c) hflow
      refine ⟨?_, hrunning, fun _ ws hflat hws => ?_⟩
      · rw [hsystem, executeMotion_coordSystem, executeNonModal_coordSystem hnonModal]
        exact (executeModes_coordSystem hdata).trans (executeSettings_coordSystem g _)
      · rw [hflat] at hp
        rw [hselect, executeMotion_coordSelect, executeNonModal_modal]
        show (executeModes _ c).modal.coordSelect = _
        rw [executeModes_coordSelect, hmodal, gcParse_coordSelect hws hp]

/-- **Selecting a coordinate system does not load it.**  Without G10, M2 and M30 the offsets are
those `gc_init` loaded throughout, which are those of G54, and every line that is carried out
selects the system its words name. -/
theorem selection_loads_nothing (g : Interpreter α) (events : List (GcodeEvent α))
    (hevents : ∀ ev ∈ events, ev.KeepsOffsets) :
    Always gcStep (fun g' => g'.gcState.coordSystem = (gcInit g).gcState.coordSystem ∧
      ∀ (e : Surroundings α) (ws : List (List Byte)),
        (∀ w ∈ ws, IsWord α w ∧ wordLoads α w = false) →
          (gcExecuteLine e g' ws.flatten).1 = none →
            (gcExecuteLine e g' ws.flatten).2.gcState.modal.coordSelect =
              selectedBehind α ws g'.gcState.modal.coordSelect) (gcInit g) events := by
  have hstep : ∀ (g' : Interpreter α) (ev : GcodeEvent α),
      (g'.gcState.coordSystem = (gcInit g).gcState.coordSystem ∧
        g'.gcState.modal.programFlow = .running) → ev.KeepsOffsets →
      (gcStep g' ev).gcState.coordSystem = (gcInit g).gcState.coordSystem ∧
        (gcStep g' ev).gcState.modal.programFlow = .running := by
    intro g' ev h hev
    cases ev with
    | line e line =>
      obtain ⟨hsystem, hrunning, -⟩ := keepsOffsets_line (e := e) hev h.2
      exact ⟨hsystem.trans h.1, hrunning⟩
    | syncPosition position => exact h
    | init => exact hev.elim
  have hstart : (gcInit g).gcState.modal.programFlow = .running := by
    rw [gcInit]
    split <;> rfl
  have hguarded : Guarded gcStep (fun _ ev => ev.KeepsOffsets) (gcInit g) events :=
    guarded_of_forall hevents
  refine (always_of_guarded hstep ⟨rfl, hstart⟩ hguarded).mono fun g' h => ⟨h.1, ?_⟩
  intro e ws hws hok
  have hwords : ∀ w ∈ ws, IsWord α w := fun w hw => (hws w hw).1
  have hline : LoadsNothing α ws.flatten :=
    loadsNothing_flatten hwords fun w hw => (hws w hw).2
  exact (keepsOffsets_line hline h.2).2.2 hok ws rfl hwords

/-- `G55`, where the offsets of a system are its index. -/
theorem selection_loads_nothing_run :
    Always gcStep (fun g' => g'.gcState.coordSystem =
        (gcInit (α := ℚ) ⟨parserZero, fun i => some fun _ => i, []⟩).gcState.coordSystem ∧
      ∀ (e : Surroundings ℚ) (ws : List (List Byte)),
        (∀ w ∈ ws, IsWord ℚ w ∧ wordLoads ℚ w = false) →
          (gcExecuteLine e g' ws.flatten).1 = none →
            (gcExecuteLine e g' ws.flatten).2.gcState.modal.coordSelect =
              selectedBehind ℚ ws g'.gcState.modal.coordSelect)
      (gcInit ⟨parserZero, fun i => some fun _ => i, []⟩)
      [.line ⟨false, id⟩ [[0x47#8, 0x35#8, 0x35#8]].flatten] ∧
    (runFrom gcStep (gcInit (α := ℚ) ⟨parserZero, fun i => some fun _ => i, []⟩)
      [.line ⟨false, id⟩ [[0x47#8, 0x35#8, 0x35#8]].flatten]).gcState.modal.coordSelect = 1 := by
  have hline : LoadsNothing ℚ [[0x47#8, 0x35#8, 0x35#8]].flatten :=
    loadsNothing_flatten (by decide +kernel) (by decide +kernel)
  refine ⟨selection_loads_nothing _ _ ?_, by decide +kernel⟩
  intro ev hev
  obtain rfl := List.mem_singleton.mp hev
  exact hline

end PcbMill.Gcode
