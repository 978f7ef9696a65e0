import PcbMill.Lib.Conservation
import PcbMill.Usb.Cdc

/-!
# The CDC interface as a pipe

What the application and the host see of the bulk endpoints: a receive side of a ring and one
packet in the packet memory, a transmit side of one packet, and the four streams that go
through.  The ring is exactly one packet long and a full ring reads as empty, so a packet that
fills it vanishes, and so does everything a re-armed or re-queued endpoint still held.  Each
operation either keeps a stream whole or drops the bytes of one packet.
-/

namespace PcbMill

open Run Conservation

/-! ### Actions and events -/

/-- The calls of the application, from the main loop or from a callback, and the transactions
of the host. -/
inductive CdcAction where
  | read (bufsize : ℕ)
  | write (buffer : List Byte)
  | flush
  | arrive (packet : List Byte)
  | poll
  deriving DecidableEq, Repr

/-- An iteration of the interrupt handler on the bulk endpoint comes with what the application
does in its receive callback and in its transmit callback, where they are defined. -/
inductive CdcEvent where
  | act (a : CdcAction)
  | irq (rxCb txCompleteCb : Option (List CdcAction))
  deriving DecidableEq, Repr

/-! ### The pipe -/

/-- `received` and `sending` are the packets the two descriptors describe, whether or not the
endpoint is in use. -/
@[ext]
structure CdcPipe where
  reg : EpView
  ring : List Byte
  received : List Byte
  sending : List Byte
  accepted : List Byte
  returned : List Byte
  written : List Byte
  sent : List Byte
  deriving DecidableEq

namespace CdcPipe

/-- The packet not yet handled. -/
def pending (c : CdcPipe) : List Byte := if c.reg.vtrx then c.received else []

/-- The transfer in flight. -/
def inFlight (c : CdcPipe) : List Byte := if c.reg.tx = .valid then c.sending else []

/-- `usb_cdc_read_ep`: an empty ring arms the receiver and clears the received count. -/
def rearm (c : CdcPipe) : CdcPipe :=
  if c.ring = [] then { c with reg := { c.reg with rx := .valid }, received := [] } else c

def read (c : CdcPipe) (bufsize : ℕ) : CdcPipe :=
  { c.rearm with
    returned := c.returned ++ c.ring.take bufsize
    ring := c.ring.drop bufsize }

/-- A write is flushed at once, over whatever was in flight.  One that fills the ring is taken
and never sent. -/
def write (c : CdcPipe) (buffer : List Byte) : CdcPipe :=
  if buffer.length < usbCdcEpBufferSize then
    if buffer = [] then c
    else { c with
      reg := { c.reg with tx := .valid }, sending := buffer, written := c.written ++ buffer }
  else { c with written := c.written ++ buffer.take usbCdcEpBufferSize }

def arrive (c : CdcPipe) (packet : List Byte) : CdcPipe :=
  if c.reg.rx = .valid ∧ packet.length ≤ usbCdcEpBufferSize then
    { c with
      reg := { c.reg with rx := .nak, vtrx := true, setup := false }
      received := packet, accepted := c.accepted ++ packet }
  else c

def poll (c : CdcPipe) : CdcPipe :=
  if c.reg.tx = .valid then
    { c with reg := { c.reg with tx := .nak, vttx := true }, sent := c.sent ++ c.sending }
  else c

def act (c : CdcPipe) : CdcAction → CdcPipe
  | .read bufsize => c.read bufsize
  | .write buffer => c.write buffer
  | .flush => c
  | .arrive packet => c.arrive packet
  | .poll => c.poll

/-- The received packet goes to the ring, which is empty; a full packet leaves it empty. -/
def store (c : CdcPipe) : CdcPipe :=
  { c with
    reg := { c.reg with vtrx := false }
    ring := if c.received.length = usbCdcEpBufferSize then [] else c.received
    received := [] }

/-- What the receive callback does; it is not called on an empty ring. -/
def rxScript (c : CdcPipe) (rxCb : Option (List CdcAction)) : List CdcAction :=
  if c.ring = [] then [] else rxCb.getD []

/-- The state the receive callback leaves. -/
def called (c : CdcPipe) (rxCb : Option (List CdcAction)) : CdcPipe :=
  runFrom act c.store (c.store.rxScript rxCb)

def irqRx (c : CdcPipe) (rxCb : Option (List CdcAction)) : CdcPipe :=
  if c.reg.vtrx then (c.called rxCb).rearm else c

/-- The completion of a transfer is acknowledged. -/
def complete (c : CdcPipe) : CdcPipe := { c with reg := { c.reg with vttx := false } }

def irqTx (c : CdcPipe) (vttx : Bool) (txCompleteCb : Option (List CdcAction)) : CdcPipe :=
  if vttx then runFrom act c.complete (txCompleteCb.getD []) else c

def step (c : CdcPipe) : CdcEvent → CdcPipe
  | .act a => c.act a
  | .irq rxCb txCompleteCb => (c.irqRx rxCb).irqTx c.reg.vttx txCompleteCb

/-! ### Well-formed pipes -/

/-- The receiver is armed on an empty ring only, and a packet waits in front of an empty
ring. -/
structure Wf (c : CdcPipe) : Prop where
  setup : c.reg.setup = false
  armed : c.reg.rx = .valid → c.ring = [] ∧ c.received = []
  unhandled : c.reg.vtrx → c.ring = []
  size : c.received.length ≤ usbCdcEpBufferSize
  sending : c.reg.tx = .valid → c.sending ≠ []

variable {c : CdcPipe}

theorem Wf.rearm (h : c.Wf) : c.rearm.Wf := by
  simp only [CdcPipe.rearm]
  split
  · rename_i hring
    exact ⟨h.setup, fun _ => ⟨hring, rfl⟩, fun _ => hring, Nat.zero_le _, h.sending⟩
  · exact h

@[simp] theorem rearm_ring : c.rearm.ring = c.ring := by
  simp only [rearm]
  split <;> rfl

@[simp] theorem rearm_returned : c.rearm.returned = c.returned := by
  simp only [rearm]
  split <;> rfl

theorem Wf.read (h : c.Wf) (bufsize : ℕ) : (c.read bufsize).Wf := by
  have hrearm := h.rearm
  have hdrop : c.rearm.ring = [] → c.ring.drop bufsize = [] := by
    intro hring
    rw [← rearm_ring, hring, List.drop_nil]
  exact
    { setup := hrearm.setup
      armed := fun hrx => ⟨hdrop (hrearm.armed hrx).1, (hrearm.armed hrx).2⟩
      unhandled := fun hv => hdrop (hrearm.unhandled hv)
      size := hrearm.size
      sending := hrearm.sending }

theorem Wf.write (h : c.Wf) (buffer : List Byte) : (c.write buffer).Wf := by
  simp only [CdcPipe.write]
  split
  · split
    · exact h
    · rename_i hne
      exact { h with sending := fun _ => hne }
  · exact ⟨h.setup, h.armed, h.unhandled, h.size, h.sending⟩

theorem Wf.arrive (h : c.Wf) (packet : List Byte) : (c.arrive packet).Wf := by
  simp only [CdcPipe.arrive]
  split
  · rename_i htake
    exact ⟨rfl, fun hrx => (nomatch hrx), fun _ => (h.armed htake.1).1, htake.2, h.sending⟩
  · exact h

theorem Wf.poll (h : c.Wf) : c.poll.Wf := by
  simp only [CdcPipe.poll]
  split
  · exact { h with sending := fun htx => nomatch htx }
  · exact h

theorem Wf.act (h : c.Wf) (a : CdcAction) : (c.act a).Wf := by
  cases a with
  | read bufsize => exact h.read bufsize
  | write buffer => exact h.write buffer
  | flush => exact h
  | arrive packet => exact h.arrive packet
  | poll => exact h.poll

theorem Wf.run (h : c.Wf) (script : List CdcAction) : (runFrom CdcPipe.act c script).Wf := by
  induction script generalizing c with
  | nil => exact h
  | cons a script ih => exact ih (h.act a)

/-- When the receiver has been armed again over the packet, the packet is empty. -/
theorem Wf.store (h : c.Wf) : c.store.Wf where
  setup := h.setup
  armed := by
    intro hrx
    refine ⟨?_, rfl⟩
    show (if c.received.length = usbCdcEpBufferSize then [] else c.received) = []
    rw [(h.armed hrx).2]
    exact ite_self []
  unhandled := fun hv => nomatch hv
  size := Nat.zero_le _
  sending := h.sending

theorem Wf.complete (h : c.Wf) : c.complete.Wf :=
  ⟨h.setup, h.armed, h.unhandled, h.size, h.sending⟩

theorem Wf.irqRx (h : c.Wf) (rxCb : Option (List CdcAction)) : (c.irqRx rxCb).Wf := by
  simp only [CdcPipe.irqRx]
  split
  · exact (h.store.run _).rearm
  · exact h

/-! ### The receive stream -/

/-- The bytes the host had accepted are those returned, held in the ring and pending. -/
def RxIntact (c : CdcPipe) : Prop := c.returned ++ c.ring ++ c.pending = c.accepted

/-- `usb_cdc_read_ep` finds data in the ring or no packet to clear. -/
def RearmOk (c : CdcPipe) : Prop := c.ring = [] → c.pending = []

def RxActOk (c : CdcPipe) : CdcAction → Prop
  | .read _ => c.RearmOk
  | _ => True

def RxIrqOk (c : CdcPipe) (rxCb : Option (List CdcAction)) : Prop :=
  (c.received.length ≠ usbCdcEpBufferSize ∧
    Guarded act RxActOk c.store (c.store.rxScript rxCb)) ∧ (c.called rxCb).RearmOk

/-- No handled packet is full, and no call of `usb_cdc_read_ep` clears a packet. -/
def RxEventOk (c : CdcPipe) : CdcEvent → Prop
  | .act a => c.RxActOk a
  | .irq rxCb txCompleteCb =>
    (c.reg.vtrx → c.RxIrqOk rxCb) ∧
      (c.reg.vttx → Guarded act RxActOk (c.irqRx rxCb).complete (txCompleteCb.getD []))

structure RxAccount (lost : ℕ) (c : CdcPipe) : Prop where
  wf : c.Wf
  account : Accounts c.accepted (c.returned ++ c.ring ++ c.pending) lost

theorem RxAccount.intact_iff {k : ℕ} (h : RxAccount k c) : c.RxIntact ↔ k = 0 :=
  h.account.intact_iff

theorem RxAccount.rearm {k : ℕ} (h : RxAccount k c) : Loses RxAccount k c.rearm c.RearmOk := by
  have hwf := h.wf.rearm
  simp only [CdcPipe.rearm] at hwf ⊢
  split at hwf
  · rename_i hring
    rw [if_pos hring]
    refine Loses.some (d := c.pending) ⟨hwf, ?_⟩ ?_
    · have hpending : pending { c with reg := { c.reg with rx := .valid }, received := [] } = [] :=
        ite_self []
      rw [hpending, List.append_nil]
      exact h.account.drop
    · exact ⟨fun hp _ => hp, fun hok => hok hring⟩
  · rename_i hring
    rw [if_neg hring]
    exact .none h fun hnil => absurd hnil hring

/-- Reading moves bytes from the ring to the caller. -/
theorem RxAccount.read {k : ℕ} (h : RxAccount k c) (bufsize : ℕ) :
    Loses RxAccount k (c.read bufsize) c.RearmOk := by
  obtain ⟨k', hrearm, hle, hiff⟩ := h.rearm
  refine ⟨k', ⟨h.wf.read bufsize, ?_⟩, hle, hiff⟩
  have haccount := hrearm.account
  rw [rearm_returned, rearm_ring] at haccount
  have hmoved : c.returned ++ c.ring.take bufsize ++ c.ring.drop bufsize = c.returned ++ c.ring := by
    rw [List.append_assoc, List.take_append_drop]
  show Accounts c.rearm.accepted
    (c.returned ++ c.ring.take bufsize ++ c.ring.drop bufsize ++ c.rearm.pending) k'
  rw [hmoved]
  exact haccount

/-- An accepted packet waits behind an empty ring. -/
theorem RxAccount.arrive {k : ℕ} (h : RxAccount k c) (packet : List Byte) :
    RxAccount k (c.arrive packet) := by
  refine ⟨h.wf.arrive packet, ?_⟩
  simp only [CdcPipe.arrive]
  split
  · rename_i htake
    obtain ⟨hring, hreceived⟩ := h.wf.armed htake.1
    have hpending : c.pending = [] := by
      simp only [CdcPipe.pending]
      rw [hreceived]
      exact ite_self []
    have haccount := h.account
    rw [hpending, List.append_nil] at haccount
    exact haccount.append packet
  · exact h.account

/-- The receive side is left alone. -/
structure SameRx (c c' : CdcPipe) : Prop where
  accepted : c'.accepted = c.accepted
  returned : c'.returned = c.returned
  ring : c'.ring = c.ring
  pending : c'.pending = c.pending

theorem write_sameRx (c : CdcPipe) (buffer : List Byte) : SameRx c (c.write buffer) := by
  simp only [write]
  split
  · split <;> exact ⟨rfl, rfl, rfl, rfl⟩
  · exact ⟨rfl, rfl, rfl, rfl⟩

theorem poll_sameRx (c : CdcPipe) : SameRx c c.poll := by
  simp only [poll]
  split <;> exact ⟨rfl, rfl, rfl, rfl⟩

theorem RxAccount.frame {k : ℕ} {c' : CdcPipe} (h : RxAccount k c) (hwf : c'.Wf)
    (hsame : SameRx c c') : RxAccount k c' := by
  refine ⟨hwf, ?_⟩
  rw [hsame.accepted, hsame.returned, hsame.ring, hsame.pending]
  exact h.account

theorem RxAccount.act (k : ℕ) (c : CdcPipe) (a : CdcAction) (h : RxAccount k c) :
    Loses RxAccount k (c.act a) (c.RxActOk a) := by
  cases a with
  | read bufsize => exact h.read bufsize
  | write buffer => exact .none (h.frame (h.wf.write buffer) (c.write_sameRx buffer)) trivial
  | flush => exact .none h trivial
  | arrive packet => exact .none (h.arrive packet) trivial
  | poll => exact .none (h.frame h.wf.poll c.poll_sameRx) trivial

theorem RxAccount.run {k : ℕ} (h : RxAccount k c) (script : List CdcAction) :
    Loses RxAccount k (runFrom CdcPipe.act c script) (Guarded CdcPipe.act RxActOk c script) :=
  loses_run RxAccount.act h

/-- The pending packet goes to the empty ring in front of it, unless it is a full one. -/
theorem RxAccount.store {k : ℕ} (h : RxAccount k c) (hvtrx : c.reg.vtrx) :
    Loses RxAccount k c.store (c.received.length ≠ usbCdcEpBufferSize) := by
  have haccount := h.account
  rw [h.wf.unhandled hvtrx, List.append_nil, CdcPipe.pending, if_pos hvtrx] at haccount
  have hring : c.store.ring = if c.received.length = usbCdcEpBufferSize then [] else c.received :=
    rfl
  have hpending : c.store.pending = [] := if_neg (Bool.false_ne_true)
  by_cases hfull : c.received.length = usbCdcEpBufferSize
  · refine Loses.some (d := c.received) ⟨h.wf.store, ?_⟩ ?_
    · rw [hring, hpending, if_pos hfull, List.append_nil, List.append_nil]
      exact haccount.drop
    · refine iff_of_false ?_ (not_not_intro hfull)
      intro hnil
      rw [hnil] at hfull
      exact absurd hfull (by decide)
  · refine .none ⟨h.wf.store, ?_⟩ hfull
    rw [hring, hpending, if_neg hfull, List.append_nil]
    exact haccount

theorem RxAccount.irqRx {k : ℕ} (h : RxAccount k c) (rxCb : Option (List CdcAction)) :
    Loses RxAccount k (c.irqRx rxCb) (c.reg.vtrx → c.RxIrqOk rxCb) := by
  simp only [CdcPipe.irqRx]
  by_cases hvtrx : c.reg.vtrx = true
  · rw [if_pos hvtrx]
    refine Loses.congr (p := c.RxIrqOk rxCb) ?_ ⟨fun hok _ => hok, fun hok => hok hvtrx⟩
    exact ((h.store hvtrx).trans fun k' hstored => hstored.run _).trans
      fun k' hcalled => hcalled.rearm
  · rw [if_neg hvtrx]
    exact .none h fun hv => absurd hv hvtrx

theorem RxAccount.step (k : ℕ) (c : CdcPipe) (e : CdcEvent) (h : RxAccount k c) :
    Loses RxAccount k (c.step e) (c.RxEventOk e) := by
  cases e with
  | act a => exact RxAccount.act k c a h
  | irq rxCb txCompleteCb =>
    refine (h.irqRx rxCb).trans fun k' hrx => ?_
    show Loses RxAccount k' ((c.irqRx rxCb).irqTx c.reg.vttx txCompleteCb) _
    simp only [CdcPipe.irqTx]
    by_cases hvttx : c.reg.vttx = true
    · rw [if_pos hvttx]
      have hcomplete : RxAccount k' (c.irqRx rxCb).complete :=
        hrx.frame hrx.wf.complete ⟨rfl, rfl, rfl, rfl⟩
      exact (hcomplete.run _).congr ⟨fun hok _ => hok, fun hok => hok hvttx⟩
    · rw [if_neg hvttx]
      exact .none hrx fun hv => absurd hv hvttx

/-! ### The transmit stream -/

/-- The bytes written are those sent and those in flight. -/
def TxIntact (c : CdcPipe) : Prop := c.sent ++ c.inFlight = c.written

/-- A write neither meets a transfer in flight nor fills the ring. -/
def TxActOk (c : CdcPipe) : CdcAction → Prop
  | .write buffer => buffer ≠ [] → c.reg.tx ≠ .valid ∧ buffer.length < usbCdcEpBufferSize
  | _ => True

def TxEventOk (c : CdcPipe) : CdcEvent → Prop
  | .act a => c.TxActOk a
  | .irq rxCb txCompleteCb =>
    (c.reg.vtrx → Guarded act TxActOk c.store (c.store.rxScript rxCb)) ∧
      (c.reg.vttx → Guarded act TxActOk (c.irqRx rxCb).complete (txCompleteCb.getD []))

structure TxAccount (lost : ℕ) (c : CdcPipe) : Prop where
  wf : c.Wf
  account : Accounts c.written (c.sent ++ c.inFlight) lost

theorem TxAccount.intact_iff {k : ℕ} (h : TxAccount k c) : c.TxIntact ↔ k = 0 :=
  h.account.intact_iff

/-- A transfer in flight is dropped for the bytes written; a full ring drops them. -/
theorem TxAccount.write {k : ℕ} (h : TxAccount k c) (buffer : List Byte) :
    Loses TxAccount k (c.write buffer) (c.TxActOk (.write buffer)) := by
  have hwf := h.wf.write buffer
  simp only [CdcPipe.write] at hwf ⊢
  split at hwf
  · rename_i hshort
    rw [if_pos hshort]
    by_cases hnil : buffer = []
    · rw [if_pos hnil]
      exact .none h fun hne => absurd hnil hne
    · rw [if_neg hnil] at hwf ⊢
      refine Loses.some (d := c.inFlight) ⟨hwf, ?_⟩ ?_
      · exact h.account.drop.append buffer
      · constructor
        · intro hempty _
          refine ⟨fun hvalid => ?_, hshort⟩
          rw [inFlight, if_pos hvalid] at hempty
          exact h.wf.sending hvalid hempty
        · exact fun hok => if_neg (hok hnil).1
  · rename_i hfull
    rw [if_neg hfull]
    refine Loses.some (d := buffer.take usbCdcEpBufferSize) ⟨hwf, ?_⟩ ?_
    · exact (h.account.append (buffer.take usbCdcEpBufferSize)).drop
    · have hne : buffer ≠ [] := by
        rintro rfl
        exact hfull (by decide)
      refine iff_of_false ?_ fun hok => hfull (hok hne).2
      rw [List.take_eq_nil_iff]
      exact fun h => h.elim (by decide) hne

/-- The host takes what is in flight. -/
theorem TxAccount.poll {k : ℕ} (h : TxAccount k c) : TxAccount k c.poll := by
  refine ⟨h.wf.poll, ?_⟩
  simp only [CdcPipe.poll]
  split
  · rename_i hvalid
    have haccount := h.account
    rw [inFlight, if_pos hvalid, ← List.append_nil (c.sent ++ c.sending)] at haccount
    exact haccount
  · exact h.account

/-- The transmit side is left alone. -/
structure SameTx (c c' : CdcPipe) : Prop where
  written : c'.written = c.written
  sent : c'.sent = c.sent
  inFlight : c'.inFlight = c.inFlight

theorem rearm_sameTx (c : CdcPipe) : SameTx c c.rearm := by
  simp only [rearm]
  split <;> exact ⟨rfl, rfl, rfl⟩

theorem arrive_sameTx (c : CdcPipe) (packet : List Byte) : SameTx c (c.arrive packet) := by
  simp only [arrive]
  split <;> exact ⟨rfl, rfl, rfl⟩

theorem TxAccount.frame {k : ℕ} {c' : CdcPipe} (h : TxAccount k c) (hwf : c'.Wf)
    (hsame : SameTx c c') : TxAccount k c' := by
  refine ⟨hwf, ?_⟩
  rw [hsame.written, hsame.sent, hsame.inFlight]
  exact h.account

theorem TxAccount.act (k : ℕ) (c : CdcPipe) (a : CdcAction) (h : TxAccount k c) :
    Loses TxAccount k (c.act a) (c.TxActOk a) := by
  cases a with
  | read bufsize =>
    have hsame := c.rearm_sameTx
    exact .none (h.frame (h.wf.read bufsize) ⟨hsame.written, hsame.sent, hsame.inFlight⟩) trivial
  | write buffer => exact h.write buffer
  | flush => exact .none h trivial
  | arrive packet => exact .none (h.frame (h.wf.arrive packet) (c.arrive_sameTx packet)) trivial
  | poll => exact .none h.poll trivial

theorem TxAccount.run {k : ℕ} (h : TxAccount k c) (script : List CdcAction) :
    Loses TxAccount k (runFrom CdcPipe.act c script) (Guarded CdcPipe.act TxActOk c script) :=
  loses_run TxAccount.act h

theorem TxAccount.irqRx {k : ℕ} (h : TxAccount k c) (rxCb : Option (List CdcAction)) :
    Loses TxAccount k (c.irqRx rxCb)
      (c.reg.vtrx → Guarded CdcPipe.act TxActOk c.store (c.store.rxScript rxCb)) := by
  simp only [CdcPipe.irqRx]
  by_cases hvtrx : c.reg.vtrx = true
  · rw [if_pos hvtrx]
    have hstored : TxAccount k c.store := h.frame h.wf.store ⟨rfl, rfl, rfl⟩
    refine Loses.congr ((hstored.run _).trans fun k' hcalled =>
      .none (p := True) (hcalled.frame hcalled.wf.rearm (rearm_sameTx _)) trivial) ?_
    exact ⟨fun hok _ => hok.1, fun hok => ⟨hok hvtrx, trivial⟩⟩
  · rw [if_neg hvtrx]
    exact .none h fun hv => absurd hv hvtrx

theorem TxAccount.step (k : ℕ) (c : CdcPipe) (e : CdcEvent) (h : TxAccount k c) :
    Loses TxAccount k (c.step e) (c.TxEventOk e) := by
  cases e with
  | act a => exact TxAccount.act k c a h
  | irq rxCb txCompleteCb =>
    refine (h.irqRx rxCb).trans fun k' hrx => ?_
    show Loses TxAccount k' ((c.irqRx rxCb).irqTx c.reg.vttx txCompleteCb) _
    simp only [CdcPipe.irqTx]
    by_cases hvttx : c.reg.vttx = true
    · rw [if_pos hvttx]
      have hcomplete : TxAccount k' (c.irqRx rxCb).complete :=
        hrx.frame hrx.wf.complete ⟨rfl, rfl, rfl⟩
      exact (hcomplete.run _).congr ⟨fun hok _ => hok, fun hok => hok hvttx⟩
    · rw [if_neg hvttx]
      exact .none hrx fun hv => absurd hv hvttx

/-! ### Runs -/

theorem always_rxIntact_iff (h : RxAccount 0 c) (es : List CdcEvent) :
    Always step RxIntact c es ↔ Guarded step RxEventOk c es :=
  always_iff_guarded_of_loses (fun _ _ h => h.intact_iff) RxAccount.step h

theorem always_txIntact_iff (h : TxAccount 0 c) (es : List CdcEvent) :
    Always step TxIntact c es ↔ Guarded step TxEventOk c es :=
  always_iff_guarded_of_loses (fun _ _ h => h.intact_iff) TxAccount.step h

/-! ### Liveness of reception -/

/-- Behind an empty ring the receiver is armed, or a packet waits. -/
def RxLive (c : CdcPipe) : Prop := c.ring = [] → c.reg.rx = .valid ∨ c.reg.vtrx = true

/-- A read leaves something in a ring that held something. -/
def DrainOk (c : CdcPipe) : CdcAction → Prop
  | .read bufsize => c.ring ≠ [] → bufsize < c.ring.length
  | _ => True

def LiveEventOk (c : CdcPipe) : CdcEvent → Prop
  | .act a => c.DrainOk a
  | .irq rxCb txCompleteCb =>
    c.reg.vttx → Guarded act DrainOk (c.irqRx rxCb).complete (txCompleteCb.getD [])

/-- The transmit callback's calls leave reception live, each of them. -/
def LiveCallback (c : CdcPipe) : CdcEvent → Prop
  | .act _ => True
  | .irq rxCb txCompleteCb =>
    c.reg.vttx → Always act RxLive (c.irqRx rxCb).complete (txCompleteCb.getD [])

theorem RxLive.rearm : c.rearm.RxLive := by
  intro hring
  rw [rearm_ring] at hring
  rw [CdcPipe.rearm, if_pos hring]
  exact .inl rfl

/-- A read arms before it takes, so one that empties the ring leaves the receiver unarmed. -/
theorem rxLive_read_iff (h : c.Wf) (bufsize : ℕ) :
    (c.read bufsize).RxLive ↔ c.DrainOk (.read bufsize) := by
  by_cases hring : c.ring = []
  · refine iff_of_true (fun _ => .inl ?_) fun hne => absurd hring hne
    show c.rearm.reg.rx = .valid
    rw [rearm, if_pos hring]
  · have hrest : (c.read bufsize).ring = [] ↔ c.ring.length ≤ bufsize := List.drop_eq_nil_iff
    have hunarmed : ¬((c.read bufsize).reg.rx = .valid ∨ (c.read bufsize).reg.vtrx = true) := by
      show ¬(c.rearm.reg.rx = .valid ∨ c.rearm.reg.vtrx = true)
      rw [rearm, if_neg hring]
      exact fun hor => hor.elim (fun hrx => hring (h.armed hrx).1) fun hv => hring (h.unhandled hv)
    constructor
    · intro hlive _
      exact Nat.lt_of_not_le fun hle => hunarmed (hlive (hrest.mpr hle))
    · intro hok hempty
      exact absurd (hok hring) (Nat.not_lt.mpr (hrest.mp hempty))

theorem RxLive.act (h : c.RxLive) (hwf : c.Wf) {a : CdcAction} (hok : c.DrainOk a) :
    (c.act a).RxLive := by
  cases a with
  | read bufsize => exact (rxLive_read_iff hwf bufsize).mpr hok
  | write buffer =>
    show (c.write buffer).RxLive
    simp only [CdcPipe.write]
    split
    · split <;> exact h
    · exact h
  | flush => exact h
  | arrive packet =>
    show (c.arrive packet).RxLive
    simp only [CdcPipe.arrive]
    split
    · exact fun _ => .inr rfl
    · exact h
  | poll =>
    show c.poll.RxLive
    simp only [CdcPipe.poll]
    split <;> exact h

/-- Only a read can break it. -/
theorem not_rxLive_act (hwf : c.Wf) {a : CdcAction} (hok : ¬c.DrainOk a) : ¬(c.act a).RxLive := by
  cases a with
  | read bufsize => exact mt (rxLive_read_iff hwf bufsize).mp hok
  | write buffer => exact absurd trivial hok
  | flush => exact absurd trivial hok
  | arrive packet => exact absurd trivial hok
  | poll => exact absurd trivial hok

theorem always_act_rxLive_iff (hwf : c.Wf) (h : c.RxLive) (script : List CdcAction) :
    Always CdcPipe.act RxLive c script ↔ Guarded CdcPipe.act DrainOk c script :=
  always_iff_guarded (I := fun c : CdcPipe => c.Wf ∧ c.RxLive) (fun _ h => h.2)
    (fun _ a h hok => ⟨h.1.act a, h.2.act h.1 hok⟩) (fun _ _ h hok => not_rxLive_act h.1 hok) ⟨hwf, h⟩

theorem RxLive.irqRx (h : c.RxLive) (rxCb : Option (List CdcAction)) : (c.irqRx rxCb).RxLive := by
  simp only [CdcPipe.irqRx]
  split
  · exact RxLive.rearm
  · exact h

theorem liveCallback_iff (hwf : c.Wf) (h : c.RxLive) (rxCb txCompleteCb : Option (List CdcAction)) :
    c.LiveCallback (.irq rxCb txCompleteCb) ↔ c.LiveEventOk (.irq rxCb txCompleteCb) :=
  imp_congr_right fun _ =>
    always_act_rxLive_iff (hwf.irqRx rxCb).complete (h.irqRx rxCb) (txCompleteCb.getD [])

theorem RxLive.step (h : c.RxLive) (hwf : c.Wf) {e : CdcEvent} (hok : c.LiveEventOk e) :
    (c.step e).RxLive := by
  cases e with
  | act a => exact h.act hwf hok
  | irq rxCb txCompleteCb =>
    have hcallback := (liveCallback_iff hwf h rxCb txCompleteCb).mpr hok
    show ((c.irqRx rxCb).irqTx c.reg.vttx txCompleteCb).RxLive
    simp only [CdcPipe.irqTx]
    split
    · rename_i hvttx
      exact (hcallback hvttx).last
    · exact h.irqRx rxCb

theorem Wf.step (h : c.Wf) (e : CdcEvent) : (c.step e).Wf := by
  cases e with
  | act a => exact h.act a
  | irq rxCb txCompleteCb =>
    show ((c.irqRx rxCb).irqTx c.reg.vttx txCompleteCb).Wf
    simp only [CdcPipe.irqTx]
    split
    · exact (h.irqRx rxCb).complete.run _
    · exact h.irqRx rxCb

theorem always_rxLive_iff (hwf : c.Wf) (h : c.RxLive) (es : List CdcEvent) :
    Always CdcPipe.step RxLive c es ∧ Guarded CdcPipe.step LiveCallback c es ↔
      Guarded CdcPipe.step LiveEventOk c es := by
  refine always_and_guarded_iff (I := fun c : CdcPipe => c.Wf ∧ c.RxLive) (fun _ h => h.2)
    (fun _ e h hok => ⟨h.1.step e, h.2.step h.1 hok⟩) ?_ ?_ ⟨hwf, h⟩
  · intro c e h hok
    cases e with
    | act a => exact trivial
    | irq rxCb txCompleteCb => exact (liveCallback_iff h.1 h.2 rxCb txCompleteCb).mpr hok
  · intro c e h hok hcallback
    cases e with
    | act a => exact not_rxLive_act h.1 hok
    | irq rxCb txCompleteCb =>
      exact absurd ((liveCallback_iff h.1 h.2 rxCb txCompleteCb).mp hcallback) hok

end CdcPipe

end PcbMill
