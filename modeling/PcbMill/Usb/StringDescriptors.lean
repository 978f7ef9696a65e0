import Mathlib.Data.List.TakeWhile
import PcbMill.Lib.Utf16le
import PcbMill.Usb.InData

/-!
# String descriptors

`usb_descriptor_string` over any table of strings, in the half-words it puts into
`descriptor_str`.  The header is one half-word, with the length in its low byte and the type in
its high one; for the list of languages they are the other way round.
-/

namespace PcbMill

open Utf16le Segment

/-- A string of the table, without the zero that ends it. -/
abbrev AsciiString := { str : List Byte // ∀ c ∈ str, 0 < c.toNat ∧ c.toNat < 128 }

/-- `strlen` -/
def strlen (str : List Byte) : ℕ := (str.takeWhile (· ≠ 0#8)).length

/-- The half-words `usb_descriptor_string` puts into `descriptor_str`. -/
def descriptorStr (table : List AsciiString) (index : Byte) : Option (List (BitVec 16)) :=
  if index = 0#8 then some [2#16 <<< 8 ||| usbDescriptorTypeString.setWidth 16, 0x0409#16]
  else if h : index.toNat < table.length then
    let str := table[index.toNat].val
    let len := if 31 < strlen str then 31 else strlen str
    some ((usbDescriptorTypeString.setWidth 16 <<< 8 ||| BitVec.ofNat 16 (2 * len + 2)) ::
      (str.take len).map (·.setWidth 16))
  else none

/-- `usb_descriptor_string`: the bytes from the pointer it returns on, if it returns one. -/
def usbDescriptorStringOf (table : List AsciiString) (index : Byte) : Option (List Byte) :=
  (descriptorStr table index).map (·.flatMap unitBytes)

/-- The case of `process_get_descriptor` for strings: the first byte is taken for the length. -/
def processGetStringDescriptor (table : List AsciiString) (s : Usb) (request : UsbControlRequest) :
    Bool × Usb :=
  match usbDescriptorStringOf table (u16Low request.wValue) with
  | none => (false, s)
  | some bytes =>
    usbEpInitiateControlResponse (s.store ⟨.descriptorStr, 0⟩ bytes) request
      ⟨.descriptorStr, 0⟩ (bytes.getD 0 0#8).toNat

/-- `string_descriptor_arr` -/
def stringDescriptorTable : List AsciiString :=
  [⟨[0x09#8, 0x04#8], by decide⟩,
    ⟨"ST".toList.map fun c => BitVec.ofNat 8 c.toNat, by decide⟩,
    ⟨"PCB Mill".toList.map fun c => BitVec.ofNat 8 c.toNat, by decide⟩,
    ⟨"9876543210".toList.map fun c => BitVec.ofNat 8 c.toNat, by decide⟩,
    ⟨"PCB Mill".toList.map fun c => BitVec.ofNat 8 c.toNat, by decide⟩]

theorem usbDescriptorStringOf_table (index : Byte) :
    usbDescriptorStringOf stringDescriptorTable index = usbDescriptorString index := by
  revert index
  decide +kernel

/-- The firmware answers from its own table. -/
theorem processGetDescriptor_string {request : UsbControlRequest}
    (h : u16High request.wValue = usbDescriptorTypeString) (s : Usb) :
    processGetDescriptor s request = processGetStringDescriptor stringDescriptorTable s request := by
  rw [processGetDescriptor, processGetStringDescriptor, usbDescriptorStringOf_table, h]
  rfl

/-! ### What a descriptor says -/

/-- The descriptor has its own length, the type of a string, and the text of the table, or for
index 0 the one language. -/
structure DescribesString (table : List AsciiString) (index : Byte) (bytes : List Byte) : Prop where
  bLength : bytes.head?.map BitVec.toNat = some bytes.length
  bDescriptorType : bytes[1]? = some usbDescriptorTypeString
  payload : if index = 0#8 then units (bytes.drop 2) = some [0x0409#16]
    else decode (bytes.drop 2) =
      (table[index.toNat]?).map fun str => (str.val.take 31).map BitVec.toNat

/-- A device-to-host request for the string. -/
structure GetsString (request : UsbControlRequest) (index : Byte) : Prop where
  index_eq : u16Low request.wValue = index
  direction : usbRequestDirection request.bmRequestType = 1
  length_pos : 0 < request.wLength.toNat

/-- Whoever asks for the string gets these bytes, as many as were asked for, from any state of EP0 in
which a request is handed over. -/
def SendsDescriptor (table : List AsciiString) (index : Byte) (bytes : List Byte) : Prop :=
  ∀ (s : Usb) (e : Ep0) (request : UsbControlRequest), Ep0Refines s e → e.reg.vtrx = false →
    e.control.controlCompleteCb = none → GetsString request index →
      (processGetStringDescriptor table s request).1 = true ∧
        ∃ packets s', hostReadData request.wLength.toNat 2 0
            (processGetStringDescriptor table s request).2 = some (packets, s') ∧
          packets.flatten = bytes.take request.wLength.toNat

/-- A descriptor is built and sent for the indices of the table, and it is well formed. -/
def StringDescriptorOk (table : List AsciiString) (index : Byte) : Prop :=
  (∀ bytes, usbDescriptorStringOf table index = some bytes → index.toNat < table.length ∧
    DescribesString table index bytes ∧ SendsDescriptor table index bytes) ∧
  (usbDescriptorStringOf table index = none → table.length ≤ index.toNat ∧
    ∀ s request, u16Low request.wValue = index →
      processGetStringDescriptor table s request = (false, s))

variable {table : List AsciiString} {index : Byte}

theorem strlen_ascii (str : AsciiString) : strlen str.val = str.val.length := by
  have hall : str.val.takeWhile (· ≠ 0#8) = str.val := by
    rw [List.takeWhile_eq_self_iff]
    intro c hc
    have hpos := (str.property c hc).1
    refine decide_eq_true fun hzero => ?_
    rw [hzero] at hpos
    exact absurd hpos (by decide)
  rw [strlen, hall]

/-- The header of a text: its length below, its type above. -/
theorem unitBytes_header : ∀ len < 32,
    unitBytes (usbDescriptorTypeString.setWidth 16 <<< 8 ||| BitVec.ofNat 16 (2 * len + 2)) =
      [BitVec.ofNat 8 (2 * len + 2), usbDescriptorTypeString] := by decide

theorem flatMap_unitBytes_length (us : List (BitVec 16)) :
    (us.flatMap unitBytes).length = 2 * us.length := by
  induction us with
  | nil => rfl
  | cons u us ih =>
    rw [List.flatMap_cons, List.length_append, ih, List.length_cons]
    show 2 + _ = _
    ring

/-- The descriptor of a text of the table. -/
theorem usbDescriptorStringOf_text (hne : index ≠ 0#8) (hlt : index.toNat < table.length) :
    usbDescriptorStringOf table index =
      some (BitVec.ofNat 8 (2 * ((table[index.toNat].val.take 31).length) + 2) ::
        usbDescriptorTypeString ::
          ((table[index.toNat].val.take 31).map (·.setWidth 16)).flatMap unitBytes) := by
  have hlen : (if 31 < strlen table[index.toNat].val then 31 else strlen table[index.toNat].val) =
      (table[index.toNat].val.take 31).length := by
    rw [strlen_ascii, List.length_take]
    split <;> omega
  have htake : table[index.toNat].val.take (table[index.toNat].val.take 31).length =
      table[index.toNat].val.take 31 := by
    rw [List.length_take, ← List.take_eq_take_min]
  rw [usbDescriptorStringOf, descriptorStr, if_neg hne, dif_pos hlt]
  dsimp only
  rw [hlen, htake, Option.map_some, List.flatMap_cons, unitBytes_header _ (by simp)]
  rfl

theorem usbDescriptorStringOf_none (hne : index ≠ 0#8) (hle : table.length ≤ index.toNat) :
    usbDescriptorStringOf table index = none := by
  rw [usbDescriptorStringOf, descriptorStr, if_neg hne, dif_neg (by omega)]
  rfl

/-- The descriptor of a text is well formed. -/
theorem describesString_text (hne : index ≠ 0#8) (hlt : index.toNat < table.length) :
    ∃ bytes, usbDescriptorStringOf table index = some bytes ∧ DescribesString table index bytes ∧
      bytes.length ≤ 64 := by
  have hshort : (table[index.toNat].val.take 31).length ≤ 31 := List.length_take_le _ _
  have hlength : (((table[index.toNat].val.take 31).map
      (·.setWidth 16)).flatMap unitBytes).length = 2 * (table[index.toNat].val.take 31).length := by
    rw [flatMap_unitBytes_length, List.length_map]
  refine ⟨_, usbDescriptorStringOf_text hne hlt, ⟨?_, rfl, ?_⟩, ?_⟩
  · rw [List.length_cons, List.length_cons, hlength]
    simp only [List.head?_cons, Option.map_some, Option.some.injEq, BitVec.toNat_ofNat]
    omega
  · rw [if_neg hne]
    have hplain : ∀ u ∈ (table[index.toNat].val.take 31).map (·.setWidth 16),
        (u : BitVec 16).toNat < 0xD800 := by
      intro u hu
      obtain ⟨c, hc, rfl⟩ := List.mem_map.mp hu
      have hascii := (table[index.toNat].property c (List.mem_of_mem_take hc)).2
      rw [BitVec.toNat_setWidth_of_le (by decide)]
      omega
    rw [List.drop_succ_cons, List.drop_succ_cons, List.drop_zero, decode_flatMap hplain,
      List.map_map, List.getElem?_eq_getElem hlt, Option.map_some]
    exact congrArg some
      (List.map_congr_left fun c _ => BitVec.toNat_setWidth_of_le (by decide))
  · rw [List.length_cons, List.length_cons, hlength]
    omega

/-- A host that asks for a descriptor that says its own length gets it. -/
theorem sendsDescriptor {bytes : List Byte} (hbytes : usbDescriptorStringOf table index = some bytes)
    (hdescribes : DescribesString table index bytes) (hshort : bytes.length ≤ 64) :
    SendsDescriptor table index bytes := by
  intro s e request hrefines hquiet hcb hgets
  have hfirst : (bytes.getD 0 0#8).toNat = bytes.length := by
    have hlength := hdescribes.bLength
    cases bytes with
    | nil => rfl
    | cons b rest => simpa using hlength
  have hprocess : processGetStringDescriptor table s request =
      usbEpInitiateControlResponse (s.store ⟨.descriptorStr, 0⟩ bytes) request
        ⟨.descriptorStr, 0⟩ bytes.length := by
    rw [processGetStringDescriptor, hgets.index_eq, hbytes, ← hfirst]
  rw [hprocess]
  refine ⟨usbEpInitiateControlResponse_fst _ _ _ _, ?_⟩
  have hstore := hrefines.store ⟨.descriptorStr, 0⟩ bytes
  obtain ⟨packets, s', hread, hexactly⟩ := response_read_exactly hstore hquiet
    ⟨.descriptorStr, 0⟩ bytes.length hgets.direction hgets.length_pos
    (fun f hf => by rw [hcb] at hf; cases hf)
    (show min bytes.length request.wLength.toNat / 64 < 2 by omega)
  refine ⟨packets, s', hread, ?_⟩
  have hload := Usb.load_store s (p := ⟨.descriptorStr, 0⟩) rfl bytes
  have htake : ((s.store ⟨.descriptorStr, 0⟩ bytes).load ⟨.descriptorStr, 0⟩ bytes.length).take
      request.wLength.toNat = (s.store ⟨.descriptorStr, 0⟩ bytes).load ⟨.descriptorStr, 0⟩
        (min request.wLength.toNat bytes.length) := by
    exact take_readSegment _ _ _ _
  rw [hload] at htake
  rw [hexactly.packeted.flatten, htake, Nat.min_comm]

/-- **String descriptors** are well formed, and sent whole, exactly for the indices of texts: the one
of the language list is not. -/
theorem string_descriptor_ok_iff (table : List AsciiString) (index : Byte) :
    StringDescriptorOk table index ↔ index ≠ 0#8 := by
  constructor
  · rintro ⟨hbuilt, -⟩ rfl
    obtain ⟨-, hdescribes, -⟩ := hbuilt [0x03#8, 0x02#8, 0x09#8, 0x04#8] rfl
    exact absurd hdescribes.bLength (by decide)
  · intro hne
    obtain hlt | hle := Nat.lt_or_ge index.toNat table.length
    · obtain ⟨bytes, hbytes, hdescribes, hshort⟩ := describesString_text hne hlt
      refine ⟨fun bytes' hbytes' => ?_, fun hnone => ?_⟩
      · obtain rfl : bytes = bytes' := Option.some.inj (hbytes.symm.trans hbytes')
        exact ⟨hlt, hdescribes, sendsDescriptor hbytes hdescribes hshort⟩
      · rw [hbytes] at hnone
        cases hnone
    · have hnone := usbDescriptorStringOf_none hne hle
      refine ⟨fun bytes hbytes => ?_, fun _ => ⟨hle, fun s request hindex => ?_⟩⟩
      · rw [hnone] at hbytes
        cases hbytes
      · rw [processGetStringDescriptor, hindex, hnone]

/-- The list of languages says it has three bytes, and is of type 2. -/
theorem language_descriptor_malformed :
    ¬ ∀ (table : List AsciiString) (index : Byte), StringDescriptorOk table index := by
  intro h
  obtain ⟨-, hdescribes, -⟩ := (h stringDescriptorTable 0#8).1
    [0x03#8, 0x02#8, 0x09#8, 0x04#8] rfl
  exact absurd hdescribes.bDescriptorType (by decide)

end PcbMill
