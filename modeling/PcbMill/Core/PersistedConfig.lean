import PcbMill.Core.CircularBuffer
import PcbMill.Lib.DurableWrites

/-!
# The persisted configuration (`configuration_hal.c`, the check in `main`)

A record is valid by the two bytes of its key, and `config_reset` writes the key before the
version it vouches for.  A power cut between two of its writes leaves a record whose first
bytes are new and whose last are whatever was there.
-/

namespace PcbMill

open DurableWrites

/-- The contents of the EEPROM. -/
abbrev Eeprom := ℕ → Byte

def persistKeyHigh : Byte := 0xAA#8
def persistKeyLow : Byte := 0x55#8

/-- `CONFIG_INVALID_VERSION`. -/
def configInvalidVersion : BitVec 32 := ~~~0#32

/-- `config_interface_t`. -/
structure ConfigInterface where
  version : BitVec 32

def at24c32ReadByte (m : Eeprom) (memAddr : ℕ) : Byte := m memAddr

def at24c32WriteByte (m : Eeprom) (memAddr : ℕ) (data : Byte) : Eeprom :=
  Function.update m memAddr data

/-- The four parts of a version put together. -/
def configVersion (majorHigh majorLow minorHigh minorLow : Byte) : BitVec 32 :=
  majorHigh.setWidth 32 <<< 24 ||| majorLow.setWidth 32 <<< 16 ||| minorHigh.setWidth 32 <<< 8 |||
    minorLow.setWidth 32

def configGetVersion (m : Eeprom) : BitVec 32 :=
  let keyHigh := at24c32ReadByte m 0
  let keyLow := at24c32ReadByte m 1
  if keyHigh ≠ persistKeyHigh ∨ keyLow ≠ persistKeyLow then configInvalidVersion
  else configVersion (at24c32ReadByte m 2) (at24c32ReadByte m 3) (at24c32ReadByte m 4)
    (at24c32ReadByte m 5)

/-- `((version >> shift) & 0xFF)` as a byte. -/
def versionByte (version : BitVec 32) (shift : ℕ) : Byte := (version >>> shift &&& 0xFF#32).setWidth 8

/-- The writes of `config_reset`, in their order. -/
def configResetWrites (version : BitVec 32) : List (ℕ × Byte) :=
  [(0, persistKeyHigh), (1, persistKeyLow), (2, versionByte version 24), (3, versionByte version 16),
    (4, versionByte version 8), (5, versionByte version 0)]

/-- `config_reset`: whether the version reads back, and the EEPROM after. -/
def configReset (m : Eeprom) (config : ConfigInterface) : Bool × Eeprom :=
  let m := (configResetWrites config.version).foldl (fun m w => at24c32WriteByte m w.1 w.2) m
  (configGetVersion m == config.version, m)

/-- The configuration check of `main`: whether the device goes on, and the EEPROM after. -/
def mainConfigurationCheck (m : Eeprom) (config : ConfigInterface) : Bool × Eeprom :=
  if configGetVersion m = configInvalidVersion then configReset m config else (true, m)

/-! ### Power cuts -/

/-- The EEPROM when the power fails after `k` of the writes. -/
def tornReset (m : Eeprom) (version : BitVec 32) (k : ℕ) : Eeprom :=
  applyWrites m ((configResetWrites version).take k)

/-- The next start-up finds no valid version, the valid one from before, or the new one. -/
def CrashSafe (m : Eeprom) (version : BitVec 32) (k : ℕ) : Prop :=
  let found := configGetVersion (tornReset m version k)
  found = configInvalidVersion ∨
    (found = configGetVersion m ∧ configGetVersion m ≠ configInvalidVersion) ∨ found = version

/-- The key is right after `k` writes: a byte of it that is not written yet has been so before. -/
def KeyStands (m : Eeprom) (k : ℕ) : Prop :=
  (0 < k ∨ m 0 = persistKeyHigh) ∧ (1 < k ∨ m 1 = persistKeyLow)

instance (m : Eeprom) (k : ℕ) : Decidable (KeyStands m k) := inferInstanceAs (Decidable (_ ∧ _))

/-- The byte of the version at each address of the record. -/
def recordByte (version : BitVec 32) (addr : ℕ) : Byte := versionByte version (8 * (5 - addr))

/-- The condition on a power cut after `k` writes: once the key is right, the bytes of the version
still to be written are the new ones already, or those written were so before under a right key,
or all four read 0xFF now, the invalid version. -/
def ResetOk (m : Eeprom) (version : BitVec 32) (k : ℕ) : Prop :=
  KeyStands m k →
    (∀ addr, 2 ≤ addr → addr ≤ 5 → k ≤ addr → m addr = recordByte version addr) ∨
    (KeyStands m 0 ∧ ∀ addr, 2 ≤ addr → addr ≤ 5 → addr < k → recordByte version addr = m addr) ∨
    ∀ addr, 2 ≤ addr → addr ≤ 5 → (if addr < k then recordByte version addr else m addr) = 0xFF#8

/-! ### Versions by their bytes -/

theorem versionByte_configVersion (a b c d : Byte) :
    versionByte (configVersion a b c d) 24 = a ∧ versionByte (configVersion a b c d) 16 = b ∧
      versionByte (configVersion a b c d) 8 = c ∧ versionByte (configVersion a b c d) 0 = d := by
  refine ⟨?_, ?_, ?_, ?_⟩ <;>
  · apply BitVec.eq_of_getLsbD_eq
    intro i hi
    interval_cases i <;> simp [versionByte, configVersion]

theorem configVersion_versionByte (version : BitVec 32) :
    configVersion (versionByte version 24) (versionByte version 16) (versionByte version 8)
      (versionByte version 0) = version := by
  apply BitVec.eq_of_getLsbD_eq
  intro i hi
  interval_cases i <;> simp [versionByte, configVersion]

/-- The version bytes of a record, put together. -/
def recordVersion (m : Eeprom) : BitVec 32 := configVersion (m 2) (m 3) (m 4) (m 5)

variable {m m' : Eeprom} {version : BitVec 32} {k : ℕ}

theorem recordVersion_eq_iff :
    recordVersion m = recordVersion m' ↔ ∀ addr, 2 ≤ addr → addr ≤ 5 → m addr = m' addr := by
  constructor
  · intro heq addr hlo hhi
    obtain ⟨h2, h3, h4, h5⟩ := versionByte_configVersion (m 2) (m 3) (m 4) (m 5)
    obtain ⟨h2', h3', h4', h5'⟩ := versionByte_configVersion (m' 2) (m' 3) (m' 4) (m' 5)
    simp only [recordVersion] at heq
    interval_cases addr
    · rw [← h2, ← h2', heq]
    · rw [← h3, ← h3', heq]
    · rw [← h4, ← h4', heq]
    · rw [← h5, ← h5', heq]
  · intro h
    rw [recordVersion, h 2 (by omega) (by omega), h 3 (by omega) (by omega), h 4 (by omega) (by omega),
      h 5 (by omega) (by omega), recordVersion]

theorem recordVersion_recordByte (version : BitVec 32) :
    recordVersion (recordByte version) = version := configVersion_versionByte version

theorem recordVersion_invalid : recordVersion (fun _ => 0xFF#8) = configInvalidVersion := by decide

theorem configGetVersion_eq (m : Eeprom) :
    configGetVersion m = if KeyStands m 0 then recordVersion m else configInvalidVersion := by
  have hwrong : (at24c32ReadByte m 0 ≠ persistKeyHigh ∨ at24c32ReadByte m 1 ≠ persistKeyLow) ↔
      ¬ KeyStands m 0 := by
    simp only [at24c32ReadByte, KeyStands, Nat.not_lt_zero, false_or, not_and_or]
  by_cases hkey : KeyStands m 0
  · rw [if_pos hkey]
    exact if_neg fun h => hwrong.mp h hkey
  · rw [if_neg hkey]
    exact if_pos (hwrong.mpr hkey)

/-! ### What a power cut leaves -/

theorem tornReset_key (m : Eeprom) (version : BitVec 32) (k : ℕ) :
    KeyStands (tornReset m version k) 0 ↔ KeyStands m k := by
  have hnodup : ((configResetWrites version).map Prod.fst).Nodup := by
    simp [configResetWrites]
  have hhigh := applyWrites_take_getElem _ hnodup m k 0 (by simp [configResetWrites])
  have hlow := applyWrites_take_getElem _ hnodup m k 1 (by simp [configResetWrites])
  simp only [configResetWrites, List.getElem_cons_zero, List.getElem_cons_succ] at hhigh hlow
  simp only [KeyStands, tornReset, configResetWrites]
  rw [hhigh, hlow]
  by_cases h0 : 0 < k <;> by_cases h1 : 1 < k <;> simp [h0, h1]

theorem tornReset_version (m : Eeprom) (version : BitVec 32) (k : ℕ) {addr : ℕ} (hlo : 2 ≤ addr)
    (hhi : addr ≤ 5) :
    tornReset m version k addr = if addr < k then recordByte version addr else m addr := by
  have hnodup : ((configResetWrites version).map Prod.fst).Nodup := by
    simp [configResetWrites]
  have hcell := applyWrites_take_getElem _ hnodup m k addr (by simp [configResetWrites]; omega)
  interval_cases addr <;> exact hcell

theorem recordVersion_tornReset (m : Eeprom) (version : BitVec 32) (k : ℕ) :
    recordVersion (tornReset m version k) =
      recordVersion fun addr => if addr < k then recordByte version addr else m addr :=
  recordVersion_eq_iff.mpr fun _ hlo hhi => tornReset_version m version k hlo hhi

/-- The torn version is the new one when what is not written yet agrees with it. -/
theorem torn_eq_new_iff : recordVersion (tornReset m version k) = version ↔
    ∀ addr, 2 ≤ addr → addr ≤ 5 → k ≤ addr → m addr = recordByte version addr := by
  rw [recordVersion_tornReset]
  nth_rewrite 2 [← recordVersion_recordByte version]
  rw [recordVersion_eq_iff]
  refine forall_congr' fun addr => forall_congr' fun _ => forall_congr' fun _ => ?_
  split_ifs with hk
  · exact ⟨fun _ hle => absurd hk (by omega), fun _ => rfl⟩
  · exact ⟨fun heq _ => heq, fun h => h (by omega)⟩

/-- It is the old one when what is written already agreed with that. -/
theorem torn_eq_old_iff : recordVersion (tornReset m version k) = recordVersion m ↔
    ∀ addr, 2 ≤ addr → addr ≤ 5 → addr < k → recordByte version addr = m addr := by
  rw [recordVersion_tornReset, recordVersion_eq_iff]
  refine forall_congr' fun addr => forall_congr' fun _ => forall_congr' fun _ => ?_
  split_ifs with hk
  · exact ⟨fun heq _ => heq, fun h => h hk⟩
  · exact ⟨fun _ hlt => absurd hlt hk, fun _ => rfl⟩

theorem torn_eq_invalid_iff : recordVersion (tornReset m version k) = configInvalidVersion ↔
    ∀ addr, 2 ≤ addr → addr ≤ 5 → (if addr < k then recordByte version addr else m addr) = 0xFF#8 := by
  rw [recordVersion_tornReset, ← recordVersion_invalid, recordVersion_eq_iff]

/-- All six writes done, the new version reads back. -/
theorem configReset_reads_back (m : Eeprom) (config : ConfigInterface) :
    (configReset m config).1 = true ∧ configGetVersion (configReset m config).2 = config.version := by
  have hall : (configReset m config).2 = tornReset m config.version 6 := rfl
  have hkey : KeyStands (tornReset m config.version 6) 0 :=
    (tornReset_key m config.version 6).mpr ⟨.inl (by decide), .inl (by decide)⟩
  have hversion : configGetVersion (tornReset m config.version 6) = config.version := by
    rw [configGetVersion_eq, if_pos hkey, torn_eq_new_iff]
    intro addr _ hhi hle
    omega
  refine ⟨?_, hall ▸ hversion⟩
  show (configGetVersion (tornReset m config.version 6) == config.version) = true
  rw [hversion, beq_self_eq_true]

/-- **Power cuts in `config_reset`.**  After any number of writes over any contents, the next
start-up finds no version, the one before or the new one exactly under the condition. -/
theorem reset_crashSafe_iff (m : Eeprom) (version : BitVec 32) (k : ℕ) :
    CrashSafe m version k ↔ ResetOk m version k := by
  have hfound := configGetVersion_eq (tornReset m version k)
  simp only [CrashSafe, ResetOk]
  by_cases hkey : KeyStands m k
  · rw [if_pos ((tornReset_key m version k).mpr hkey)] at hfound
    rw [hfound, torn_eq_invalid_iff, torn_eq_new_iff]
    have hold : (recordVersion (tornReset m version k) = configGetVersion m ∧
        configGetVersion m ≠ configInvalidVersion) ↔
        KeyStands m 0 ∧ recordVersion (tornReset m version k) = recordVersion m ∧
          recordVersion m ≠ configInvalidVersion := by
      rw [configGetVersion_eq m]
      split_ifs with hbefore
      · exact ⟨fun h => ⟨hbefore, h⟩, fun h => h.2⟩
      · exact ⟨fun h => absurd rfl h.2, fun h => absurd h.1 hbefore⟩
    rw [hold, ← torn_eq_old_iff, ← torn_eq_invalid_iff]
    constructor
    · rintro (hinvalid | ⟨hbefore, heq, -⟩ | hnew) -
      · exact .inr (.inr hinvalid)
      · exact .inr (.inl ⟨hbefore, heq⟩)
      · exact .inl hnew
    · intro h
      rcases h hkey with hnew | ⟨hbefore, heq⟩ | hinvalid
      · exact .inr (.inr hnew)
      · by_cases hvalid : recordVersion m = configInvalidVersion
        · exact .inl (heq.trans hvalid)
        · exact .inr (.inl ⟨hbefore, heq, hvalid⟩)
      · exact .inl hinvalid
  · rw [if_neg fun h => hkey ((tornReset_key m version k).mp h)] at hfound
    exact ⟨fun _ h => absurd h hkey, fun _ => .inl hfound⟩

/-- A torn record that is taken for another version is never reset again. -/
theorem torn_record_stays {m : Eeprom} {version : BitVec 32} {k : ℕ}
    (htorn : ¬ ResetOk m version k) (config : ConfigInterface) :
    mainConfigurationCheck (tornReset m version k) config = (true, tornReset m version k) := by
  rw [← reset_crashSafe_iff] at htorn
  exact if_neg fun hinvalid => htorn (.inl hinvalid)

/-- A blank EEPROM, and the power fails after the first byte of the version. -/
theorem blank_reset_tears :
    ¬ ∀ (m : Eeprom) (version : BitVec 32) (k : ℕ), CrashSafe m version k := by
  intro h
  have hsafe := h (fun _ => 0xFF#8) 0x10000#32 3
  revert hsafe
  simp only [CrashSafe]
  decide

end PcbMill
