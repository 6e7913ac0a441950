/-
**The interrupt of the USB-C controller.**

The controller has a register with a bit for every source of its interrupt.  The service routine
reads it, runs a handler for each of three bits, and writes the whole register back, which clears
it.  A handler that failed should keep the routine from that.  But the result stands in one
variable, which the next handler overwrites; the handler of a port drops the result of a read of its
own; the handler of the device reads nothing; and the other five bits have no handler at all.

While the controller starts, ECLite waits for the line of the interrupt to go low.  The loop looks
at the result of the function that reads the pin, which never fails, and not at the pin.

Main definitions:

* `portIntHandler`, `ucsiIntHandler`, `ccgIsr` — the handlers and the service routine;
* `ccgBlockForInt` — the loop;
* `HandlerSucceeds` — a handler ran, and has read the event;
* `CcgHandled` — only bits whose events were read are cleared, and the loop waits for the line.

Main results:

* `written_ccgIsr` — when the register is written back;
* `device_cleared` — an event of the device is then lost;
* `ccgBlockForInt_polls` — the loop ends at the first poll, **whatever the line is**;
* `ccgHandled_iff` — **exactly the registers and the transfers for which it goes well.**
-/

import PseFw.Eclite.CpuTemp

set_option relaxedAutoImplicit false
set_option autoImplicit false

namespace PseFw.Eclite

/-! ### The controller -/

/-- A read over I2C: the result, and what the variable holds afterwards. -/
structure CcgRead (n : ℕ) where
  ret : Int32
  value : BitVec n

/-- What the service routine finds of the controller: `find_dev_by_type`, the interface of the
device, and the bus in it. -/
structure CcgDevice where
  dev : Bool
  devInterface : Bool
  i2cDev : Bool

/-- The answers on the bus.  Of `PDRESPONSE`, which has four bytes, the first one is looked at. -/
structure CcgAnswers where
  interrupt : CcgRead 8
  pdResponse : CcgRead 8
  typecStatus : CcgRead 8
  cci : CcgRead 32
  msgIn : CcgRead 128
  clear : Int32

/-- `struct ccg_port_state`. -/
structure CcgPortState where
  dataRole : BitVec 8
  pwrRole : BitVec 8
  partnerAttached : BitVec 8
  connectionState : BitVec 8
  deriving DecidableEq, Repr

/-- The state of the ports, and the data of the driver the routine writes to. -/
structure CcgState where
  ports : ℕ → CcgPortState
  cci : BitVec 32
  msgIn : BitVec 128

/-- A result that is put into a `uint8_t`. -/
def resultByte (ret : Int32) : BitVec 8 := ret.toBitVec.setWidth 8

/-- A result of one byte that is returned as an `int`. -/
def byteResult (ret : BitVec 8) : Int32 := Int32.ofNat ret.toNat

/-- `ccg_rd`; `old` is what the variable holds. -/
def ccgRd {n : ℕ} (i2cDev : Bool) (answer : CcgRead n) (old : BitVec n) : Int32 × BitVec n :=
  if i2cDev = false then (errorCode, old) else (answer.ret, answer.value)

/-- `ccg_wr`, its result. -/
def ccgWr (i2cDev : Bool) (answer : Int32) : Int32 :=
  if i2cDev = false then errorCode else answer

/-- `RESPONSE_CODE_TYPEC_CONNECT`. -/
def responseCodeTypecConnect : BitVec 8 := 0x84

/-- `RESPONSE_CODE_TYPEC_DISCONNECT`. -/
def responseCodeTypecDisconnect : BitVec 8 := 0x85

/-- `SINK_ATTACHED`. -/
def sinkAttached : BitVec 8 := 1

/-- `CCG_DEVICE_INTERRUPT_FLAG`. -/
def ccgDeviceInterruptFlag : ℕ := 0

/-- `CCG_PORT0_INTERRUPT_FLAG`. -/
def ccgPort0InterruptFlag : ℕ := 1

/-- `CCG_UCSIREAD_INTERRUPT_FLAG`. -/
def ccgUcsireadInterruptFlag : ℕ := 7

/-! ### The handlers -/

/-- `ucsi_int_handler`. -/
def ucsiIntHandler (i2cDev : Bool) (a : CcgAnswers) (s : CcgState) : Int32 × CcgState :=
  let (ret, cci) := ccgRd i2cDev a.cci s.cci
  let s := { s with cci := cci }
  if ret ≠ 0 then (errorCode, s)
  else
    let (ret, msgIn) := ccgRd i2cDev a.msgIn s.msgIn
    let s := { s with msgIn := msgIn }
    if ret ≠ 0 then (errorCode, s) else (0, s)

/-- `device_int_handler`: it logs, and reads nothing of the device. -/
def deviceIntHandler : Int32 := 0

/-- A port with a new partner: `partner_attached`, from the bits 2 to 4 of the status, and the roles
of a sink. -/
def CcgPortState.connect (status : BitVec 8) (p : CcgPortState) : CcgPortState :=
  let partner := status >>> 2 &&& 7
  if partner = sinkAttached then { p with partnerAttached := partner, pwrRole := 0, dataRole := 0 }
  else { p with partnerAttached := partner }

/-- `process_port_evnts`. -/
def processPortEvnts (i2cDev : Bool) (a : CcgAnswers) (port : ℕ) (code : BitVec 8) (s : CcgState) :
    BitVec 8 × CcgState :=
  if code = responseCodeTypecConnect then
    let (ret, status) := ccgRd i2cDev a.typecStatus 0
    if resultByte ret ≠ 0 then (resultByte ret, s)
    else if status.getLsbD 0 = false then (0, s)
    else (0, { s with ports := Function.update s.ports port ((s.ports port).connect status) })
  else if code = responseCodeTypecDisconnect then
    (0, { s with
      ports := Function.update s.ports port
        { s.ports port with connectionState := 0, dataRole := 0 } })
  else (0, s)

/-- `port_int_handler`; the result of `process_port_evnts` is dropped. -/
def portIntHandler (i2cDev : Bool) (a : CcgAnswers) (port : ℕ) (s : CcgState) :
    Int32 × CcgState :=
  let (ret, buf) := ccgRd i2cDev a.pdResponse 0
  if resultByte ret ≠ 0 then (byteResult (resultByte ret), s)
  else if buf.getLsbD 7 = true then (0, (processPortEvnts i2cDev a port buf s).2)
  else (0, s)

/-! ### The service routine -/

/-- What the routine returns and leaves, and what it writes back to the register, if it does. -/
structure CcgIsr where
  ret : Int32
  state : CcgState
  written : Option (BitVec 8)

/-- The handlers, in their order, with the one variable for their results. -/
def ccgHandlers (i2cDev : Bool) (a : CcgAnswers) (buf ret : BitVec 8) (s : CcgState) :
    BitVec 8 × CcgState :=
  let ret := if buf.getLsbD ccgDeviceInterruptFlag = true then resultByte deviceIntHandler else ret
  let (ret, s) :=
    if buf.getLsbD ccgPort0InterruptFlag = true then
      (resultByte (portIntHandler i2cDev a 0 s).1, (portIntHandler i2cDev a 0 s).2)
    else (ret, s)
  if buf.getLsbD ccgUcsireadInterruptFlag = true then
    (resultByte (ucsiIntHandler i2cDev a s).1, (ucsiIntHandler i2cDev a s).2)
  else (ret, s)

/-- `ccg_isr`. -/
def ccgIsr (d : CcgDevice) (a : CcgAnswers) (s : CcgState) : CcgIsr :=
  if d.dev = false then ⟨errorCode, s, none⟩
  else if d.devInterface = false then ⟨errorCode, s, none⟩
  else
    let (ret, buf) := ccgRd d.i2cDev a.interrupt 0
    if resultByte ret ≠ 0 then ⟨errorCode, s, none⟩
    else
      let (ret, s) := ccgHandlers d.i2cDev a buf (resultByte ret) s
      if ret ≠ 0 then ⟨byteResult ret, s, none⟩
      else ⟨byteResult (resultByte (ccgWr d.i2cDev a.clear)), s, some buf⟩

/-! ### The loop -/

/-- `COUNTER_TIME`. -/
def counterTime : BitVec 8 := 20

/-- `eclite_get_gpio`: the result, and what the pin reads. -/
def ecliteGetGpio (level : BitVec 32) : Int32 × BitVec 32 := (0, level)

/-- A run of the loop: the polls, the poll at which the register was read, and what is returned. -/
structure CcgBlock where
  polls : ℕ
  readAt : Option ℕ
  ret : BitVec 8
  deriving DecidableEq, Repr

/-- The loop of `ccg_block_for_int`, from poll `k` on.  The counter goes up, and becomes zero when
it wraps around, so that the loop has at most 256 turns. -/
def ccgBlockLoop (i2cDev : Bool) (answer : CcgRead 8) (level : ℕ → BitVec 32) :
    ℕ → BitVec 8 → ℕ → CcgBlock
  | 0, _, k => ⟨k, none, 0⟩
  | turns + 1, count, k =>
      if count = 0 then ⟨k, none, 0⟩
      else if (ecliteGetGpio (level k)).1 = 0 then
        let (ret, buf) := ccgRd i2cDev answer 0
        ⟨k + 1, some k, if resultByte ret ≠ 0 then 0 else buf⟩
      else ccgBlockLoop i2cDev answer level turns (count + 1) (k + 1)

/-- `ccg_block_for_int`. -/
def ccgBlockForInt (i2cDev : Bool) (answer : CcgRead 8) (level : ℕ → BitVec 32) : CcgBlock :=
  ccgBlockLoop i2cDev answer level 256 counterTime 0

/-! ### What is wanted -/

/-- **A handler ran and has read its event**, with all the transfers that takes; by the number of
its bit.  There is none for the bit of the device, whose handler does no transfer. -/
def HandlerSucceeds (a : CcgAnswers) (bit : ℕ) : Prop :=
  (bit = ccgPort0InterruptFlag ∧ a.pdResponse.ret = 0 ∧
    (a.pdResponse.value = responseCodeTypecConnect → a.typecStatus.ret = 0)) ∨
  (bit = ccgUcsireadInterruptFlag ∧ a.cci.ret = 0 ∧ a.msgIn.ret = 0)

/-- A bit is cleared only if its handler ran and has read the event. -/
def ClearsHandled (a : CcgAnswers) (written : Option (BitVec 8)) : Prop :=
  ∀ buf, written = some buf → ∀ bit < 8, buf.getLsbD bit = true → HandlerSucceeds a bit

/-- The register is read only when the line is low, and there are at most `COUNTER_TIME` polls. -/
structure WaitsForLine (level : ℕ → BitVec 32) (r : CcgBlock) : Prop where
  low : ∀ k, r.readAt = some k → level k = 0
  polls : r.polls ≤ counterTime.toNat

/-- **The interrupts are handled.** -/
def CcgHandled (d : CcgDevice) (a : CcgAnswers) (s : CcgState) (level : ℕ → BitVec 32) : Prop :=
  ClearsHandled a (ccgIsr d a s).written ∧
    WaitsForLine level (ccgBlockForInt d.i2cDev a.interrupt level)

/-- The transfers with which the routine comes to the write: the register can be read; and of the
two handlers that can fail the last one has not, as far as a byte can tell. -/
structure ComesToWrite (d : CcgDevice) (a : CcgAnswers) : Prop where
  dev : d.dev = true
  devInterface : d.devInterface = true
  i2cDev : d.i2cDev = true
  interrupt : resultByte a.interrupt.ret = 0
  ucsi : a.interrupt.value.getLsbD ccgUcsireadInterruptFlag = true →
    a.cci.ret = 0 ∧ a.msgIn.ret = 0
  port : a.interrupt.value.getLsbD ccgUcsireadInterruptFlag = false →
    a.interrupt.value.getLsbD ccgPort0InterruptFlag = true → resultByte a.pdResponse.ret = 0

/-- The registers whose bits all have handlers that read, with a port whose transfers succeed if its
bit is set. -/
structure AllHandled (a : CcgAnswers) : Prop where
  bits : ∀ bit < 8, a.interrupt.value.getLsbD bit = true →
    bit = ccgPort0InterruptFlag ∨ bit = ccgUcsireadInterruptFlag
  port : a.interrupt.value.getLsbD ccgPort0InterruptFlag = true →
    a.pdResponse.ret = 0 ∧
      (a.pdResponse.value = responseCodeTypecConnect → a.typecStatus.ret = 0)

variable {d : CcgDevice} {a : CcgAnswers} {s : CcgState} {buf ret : BitVec 8}

/-! ### The results of the handlers -/

theorem resultByte_errorCode : resultByte errorCode ≠ 0 := by decide

theorem ccgRd_true {n : ℕ} (answer : CcgRead n) (old : BitVec n) :
    ccgRd true answer old = (answer.ret, answer.value) := rfl

/-- A byte that is returned and stored again is the same. -/
theorem resultByte_byteResult (ret : BitVec 8) : resultByte (byteResult ret) = ret := by
  revert ret
  decide +kernel

/-- The result of the handler of UCSI. -/
theorem ucsiIntHandler_ret (a : CcgAnswers) (s : CcgState) :
    resultByte (ucsiIntHandler true a s).1 = 0 ↔ a.cci.ret = 0 ∧ a.msgIn.ret = 0 := by
  unfold ucsiIntHandler
  rw [ccgRd_true]
  dsimp only
  rw [ccgRd_true]
  dsimp only
  by_cases hcci : a.cci.ret = 0
  · rw [if_neg (not_not_intro hcci), and_iff_right hcci]
    by_cases hmsg : a.msgIn.ret = 0
    · rw [if_neg (not_not_intro hmsg)]
      exact iff_of_true rfl hmsg
    · rw [if_pos hmsg]
      exact iff_of_false resultByte_errorCode hmsg
  · rw [if_pos hcci]
    exact iff_of_false resultByte_errorCode fun h => hcci h.1

/-- The result of the handler of a port says nothing about its second read. -/
theorem portIntHandler_ret (a : CcgAnswers) (port : ℕ) (s : CcgState) :
    resultByte (portIntHandler true a port s).1 = resultByte a.pdResponse.ret := by
  unfold portIntHandler
  rw [ccgRd_true]
  dsimp only
  by_cases hret : resultByte a.pdResponse.ret = 0
  · rw [if_neg (not_not_intro hret), hret]
    split
    · rfl
    · rfl
  · rw [if_pos hret]
    exact resultByte_byteResult _

/-- What the variable says behind the handlers. -/
theorem ccgHandlers_ret (a : CcgAnswers) (buf : BitVec 8) (s : CcgState) :
    (ccgHandlers true a buf 0 s).1 = 0 ↔
      (buf.getLsbD ccgUcsireadInterruptFlag = true → a.cci.ret = 0 ∧ a.msgIn.ret = 0) ∧
        (buf.getLsbD ccgUcsireadInterruptFlag = false →
          buf.getLsbD ccgPort0InterruptFlag = true → resultByte a.pdResponse.ret = 0) := by
  have hdevice : (if buf.getLsbD ccgDeviceInterruptFlag = true then resultByte deviceIntHandler
      else (0 : BitVec 8)) = 0 := by
    split
    · rfl
    · rfl
  unfold ccgHandlers
  simp only [hdevice]
  cases hucsi : buf.getLsbD ccgUcsireadInterruptFlag with
  | true =>
      simp only [if_true]
      rw [ucsiIntHandler_ret]
      exact ⟨fun h => ⟨fun _ => h, fun hf => absurd hf.symm Bool.false_ne_true⟩,
        fun h => h.1 trivial⟩
  | false =>
      rw [if_neg Bool.false_ne_true]
      cases hport : buf.getLsbD ccgPort0InterruptFlag with
      | true =>
          simp only [if_true]
          rw [portIntHandler_ret]
          exact ⟨fun h => ⟨fun hf => absurd hf Bool.false_ne_true, fun _ _ => h⟩,
            fun h => h.2 trivial trivial⟩
      | false =>
          refine iff_of_true rfl ⟨fun hf => absurd hf Bool.false_ne_true, fun _ hf => ?_⟩
          exact absurd hf Bool.false_ne_true

/-! ### The write -/

/-- **When the register is written back**, and with which bits. -/
theorem written_ccgIsr (d : CcgDevice) (a : CcgAnswers) (s : CcgState) :
    (ccgIsr d a s).written = some buf ↔ ComesToWrite d a ∧ buf = a.interrupt.value := by
  unfold ccgIsr
  by_cases hdev : d.dev = false
  · rw [if_pos hdev]
    refine iff_of_false (fun h => Option.some_ne_none _ h.symm) fun h => ?_
    exact Bool.false_ne_true (hdev.symm.trans h.1.dev)
  rw [if_neg hdev]
  by_cases hint : d.devInterface = false
  · rw [if_pos hint]
    refine iff_of_false (fun h => Option.some_ne_none _ h.symm) fun h => ?_
    exact Bool.false_ne_true (hint.symm.trans h.1.devInterface)
  rw [if_neg hint]
  cases hbus : d.i2cDev with
  | false =>
      refine iff_of_false (fun h => Option.some_ne_none _ h.symm) fun h => ?_
      exact Bool.false_ne_true (hbus.symm.trans h.1.i2cDev)
  | true =>
      have hread : ccgRd true a.interrupt 0 = (a.interrupt.ret, a.interrupt.value) := rfl
      rw [hread]
      simp only
      by_cases hret : resultByte a.interrupt.ret = 0
      · rw [if_neg (not_not_intro hret), hret]
        by_cases hall : (ccgHandlers true a a.interrupt.value 0 s).1 = 0
        · rw [if_neg (not_not_intro hall)]
          have hresults := (ccgHandlers_ret a a.interrupt.value s).1 hall
          constructor
          · intro h
            refine ⟨⟨?_, ?_, hbus, hret, hresults.1, hresults.2⟩, (Option.some.inj h).symm⟩
            · exact Bool.eq_true_of_not_eq_false hdev
            · exact Bool.eq_true_of_not_eq_false hint
          · rintro ⟨-, rfl⟩
            rfl
        · rw [if_pos hall]
          refine iff_of_false (fun h => Option.some_ne_none _ h.symm) fun h => hall ?_
          exact (ccgHandlers_ret a a.interrupt.value s).2 ⟨h.1.ucsi, h.1.port⟩
      · rw [if_pos hret]
        exact iff_of_false (fun h => Option.some_ne_none _ h.symm) fun h => hret h.1.interrupt

/-- Only handled bits are cleared if and only if the routine does not come to the write, or all bits
have handlers that read and the port has been read. -/
theorem clearsHandled_iff (d : CcgDevice) (a : CcgAnswers) (s : CcgState) :
    ClearsHandled a (ccgIsr d a s).written ↔ (ComesToWrite d a → AllHandled a) := by
  constructor
  · intro h hwrite
    have hbit := h a.interrupt.value ((written_ccgIsr d a s).2 ⟨hwrite, rfl⟩)
    refine ⟨fun bit hlt hset => ?_, fun hset => ?_⟩
    · rcases hbit bit hlt hset with ⟨hport, -⟩ | ⟨hucsi, -⟩
      · exact Or.inl hport
      · exact Or.inr hucsi
    · rcases hbit ccgPort0InterruptFlag (by decide) hset with ⟨-, hport⟩ | ⟨hucsi, -⟩
      · exact hport
      · exact absurd hucsi (by decide)
  · intro h buf hwritten bit hlt hset
    obtain ⟨hwrite, rfl⟩ := (written_ccgIsr d a s).1 hwritten
    rcases (h hwrite).bits bit hlt hset with rfl | rfl
    · exact Or.inl ⟨rfl, (h hwrite).port hset⟩
    · exact Or.inr ⟨rfl, hwrite.ucsi hset⟩

/-- **An event of the device is lost** whenever the routine comes to the write. -/
theorem device_cleared (hwrite : ComesToWrite d a)
    (hset : a.interrupt.value.getLsbD ccgDeviceInterruptFlag = true) :
    ¬ ClearsHandled a (ccgIsr d a s).written := by
  intro h
  rcases ((clearsHandled_iff d a s).1 h hwrite).bits _ (by decide) hset with hport | hucsi
  · exact absurd hport (by decide)
  · exact absurd hucsi (by decide)

/-! ### The line -/

/-- **The loop ends at the first poll**, whatever the line is. -/
theorem ccgBlockForInt_polls (i2cDev : Bool) (answer : CcgRead 8) (level : ℕ → BitVec 32) :
    (ccgBlockForInt i2cDev answer level).polls = 1 ∧
      (ccgBlockForInt i2cDev answer level).readAt = some 0 :=
  ⟨rfl, rfl⟩

/-- The loop waits for the line if and only if there is nothing to wait for. -/
theorem waitsForLine_iff (i2cDev : Bool) (answer : CcgRead 8) (level : ℕ → BitVec 32) :
    WaitsForLine level (ccgBlockForInt i2cDev answer level) ↔ level 0 = 0 := by
  obtain ⟨hpolls, hread⟩ := ccgBlockForInt_polls i2cDev answer level
  constructor
  · exact fun h => h.low 0 hread
  · intro h
    refine ⟨fun k hk => ?_, by rw [hpolls]; decide⟩
    obtain rfl := Option.some.inj (hread.symm.trans hk)
    exact h

/-- **The interrupts are handled if and only if the routine does not come to the write, or all bits
have handlers that read and the port has been read; and the line is low at the first poll.** -/
theorem ccgHandled_iff (d : CcgDevice) (a : CcgAnswers) (s : CcgState) (level : ℕ → BitVec 32) :
    CcgHandled d a s level ↔ (ComesToWrite d a → AllHandled a) ∧ level 0 = 0 :=
  and_congr (clearsHandled_iff d a s) (waitsForLine_iff _ _ _)

/-- A port and UCSI have events, the port cannot be read, and both bits are cleared. -/
theorem not_ccgHandled_port : ¬ ∀ (d : CcgDevice) (a : CcgAnswers) (s : CcgState)
    (level : ℕ → BitVec 32), CcgHandled d a s level := by
  intro h
  let p : CcgPortState := ⟨0, 0, 0, 0⟩
  have hclears := (h ⟨true, true, true⟩
    ⟨⟨0, 0x82⟩, ⟨-5, 0⟩, ⟨0, 0⟩, ⟨0, 0⟩, ⟨0, 0⟩, 0⟩ ⟨fun _ => p, 0, 0⟩ fun _ => 0).1
  have hport := hclears 0x82 (by decide) 1 (by decide) (by decide)
  revert hport
  unfold HandlerSucceeds
  decide

end PseFw.Eclite
