import ArduinoT2.Lib.StepSys
import ArduinoT2.Vendor.Gpio

/-
  The pin interrupts of the Arduino API (Interrupts.cpp) through tkl_gpio.c and gpio.c.

  An attach writes the callback to `pinmap`, registers the handler of the adapter and sets the
  enable bit. A detach clears the enable bit and nothing else, and the dispatch looks at the
  status register only: a status bit of a pin that has been detached still calls its callback.
  `pin_interrupts_iff` says that this is all that goes wrong.
-/

namespace ArduinoT2.Driver

open StepSys ArduinoT2.Adapter ArduinoT2.Vendor

/-! ## The calls -/

/-- `PinStatus`. -/
inductive PinStatus
  | low | high | change | falling | rising
  deriving DecidableEq

/-- The modes that an attach accepts. -/
def irqModeOf : PinStatus → Option GpioIrqMode
  | .falling => some .fall
  | .rising => some .rise
  | _ => none

/-- A callback with its parameter, as addresses. -/
structure IrqCallback where
  cb : UInt32
  args : UInt32
  deriving DecidableEq

/-- `attachInterruptParam`. -/
def attachInterruptParam (s : GpioState) (interruptNumber : UInt8) (callback : UInt32)
    (mode : PinStatus) (param : UInt32) : GpioState :=
  match irqModeOf mode with
  | none => s
  | some mode =>
    let (_, s) := tklGpioIrqInit s interruptNumber (some ⟨mode, callback, param⟩)
    (tklGpioIrqEnable s interruptNumber).2

/-- `attachInterrupt`. -/
def attachInterrupt (s : GpioState) (interruptNumber : UInt8) (callback : UInt32)
    (mode : PinStatus) : GpioState :=
  attachInterruptParam s interruptNumber callback mode 0

/-- `detachInterrupt`. -/
def detachInterrupt (s : GpioState) (interruptNumber : UInt8) : GpioState :=
  (tklGpioIrqDisable s interruptNumber).2

/-- `__tkl_gpio_irq_cb`. -/
def tklGpioIrqCb (s : GpioState) (arg : Nat) : Option IrqCallback :=
  let pin := s.pinmap.entry arg
  if pin.cb ≠ 0 then some ⟨pin.cb, pin.args⟩ else none

/-- The interrupt: the callbacks that it calls, each with its pin. -/
def pinInterrupt (s : GpioState) (ulIntStatus : UInt32) : List (Nat × IrqCallback) :=
  (gpioIsr (gpioHw s) ulIntStatus).filterMap fun i => (tklGpioIrqCb s i).map fun call => (i, call)

/-! ## What the calls promise -/

/-- A call, or the interrupt with the value of the status register. -/
inductive PinInput
  | attach (pin : UInt8) (callback : UInt32) (mode : PinStatus)
  | attachParam (pin : UInt8) (callback : UInt32) (mode : PinStatus) (param : UInt32)
  | detach (pin : UInt8)
  | isr (ulIntStatus : UInt32)

/-- The state, with the last attach of each pin, and whether it has been detached since. -/
structure PinRun where
  state : GpioState
  last : Nat → Option IrqCallback
  attached : Nat → Bool

/-- No pin has been attached. -/
def PinRun.static : PinRun where
  state := ⟨.of pinDevNum fun pin => { gpio := pin }, []⟩
  last := fun _ => none
  attached := fun _ => false

/-- An attach with a mode that is accepted. -/
def PinRun.attach (r : PinRun) (state : GpioState) (pin : UInt8) (mode : PinStatus)
    (callback : IrqCallback) : PinRun :=
  match irqModeOf mode with
  | none => { r with state }
  | some _ =>
    { state
      last := Function.update r.last pin.toNat (some callback)
      attached := Function.update r.attached pin.toNat true }

/-- One step, with the callbacks that it calls. -/
def pinStep (r : PinRun) : PinInput → PinRun × List (Nat × IrqCallback)
  | .attach pin callback mode =>
    (r.attach (attachInterrupt r.state pin callback mode) pin mode ⟨callback, 0⟩, [])
  | .attachParam pin callback mode param =>
    (r.attach (attachInterruptParam r.state pin callback mode param) pin mode ⟨callback, param⟩, [])
  | .detach pin =>
    ({ r with
       state := detachInterrupt r.state pin
       attached := Function.update r.attached pin.toNat false }, [])
  | .isr ulIntStatus => (r, pinInterrupt r.state ulIntStatus)

/-- The callback that is registered for a pin. One that is NULL cannot be called. -/
def callbackOf (r : PinRun) (pin : Nat) : Option IrqCallback :=
  (r.last pin).filter fun call => call.cb != 0

/-- The callbacks to be called: those of the pins that are attached and whose status bit is set. -/
def dispatched (r : PinRun) (ulIntStatus : UInt32) : List (Nat × IrqCallback) :=
  (List.range gpioNum).filterMap fun pin =>
    if ulIntStatus.toNat.testBit pin && r.attached pin then
      (callbackOf r pin).map fun call => (pin, call)
    else none

/-- The step calls the callbacks to be called and no others. -/
def PinOk (r : PinRun) (i : PinInput) : Prop :=
  match i with
  | .isr ulIntStatus => (pinStep r i).2 = dispatched r ulIntStatus
  | _ => (pinStep r i).2 = []

/-- No status bit is set of a pin that has been detached and had a callback. -/
def QuietDetached (r : PinRun) : PinInput → Prop
  | .isr ulIntStatus => ∀ pin < 32, ulIntStatus.toNat.testBit pin → callbackOf r pin ≠ none →
    r.attached pin = true
  | _ => True

/-! ## One call -/

/-- `pinmap` and the handler table are as the last attaches have left them. -/
structure PinInv (r : PinRun) : Prop where
  pinmap : ∀ pin < 40, r.state.pinmap.entry pin = match r.last pin with
    | some call => ⟨pin, call.cb, call.args⟩
    | none => ⟨pin, 0, 0⟩
  handler : ∀ pin < 40, (gpioHw r.state).handler pin = (r.last pin).isSome

theorem PinInv.gpio {r : PinRun} (h : PinInv r) {pin : Nat} (hpin : pin < 40) :
    (r.state.pinmap.entry pin).gpio = pin := by
  rw [h.pinmap pin hpin]
  cases r.last pin with
  | none => rfl
  | some call => rfl

/-- What the handler of the adapter calls for a pin. -/
theorem PinInv.callback {r : PinRun} (h : PinInv r) {pin : Nat} (hpin : pin < 40) :
    (if (gpioHw r.state).handler pin then tklGpioIrqCb r.state pin else none) =
      callbackOf r pin := by
  unfold tklGpioIrqCb callbackOf
  rw [h.pinmap pin hpin, h.handler pin hpin]
  cases r.last pin with
  | none => rfl
  | some call =>
    by_cases hcb : call.cb = 0
    · simp [Option.filter, hcb]
    · simp [Option.filter, hcb]

/-- The interrupt calls back for every pin that has been attached, detached or not. -/
theorem pinInterrupt_eq {r : PinRun} (h : PinInv r) (ulIntStatus : UInt32) :
    pinInterrupt r.state ulIntStatus = (List.range gpioNum).filterMap fun pin =>
      if ulIntStatus.toNat.testBit pin then (callbackOf r pin).map fun call => (pin, call)
      else none := by
  unfold pinInterrupt gpioIsr
  rw [List.filterMap_filter]
  refine List.filterMap_congr fun pin hpin => ?_
  rw [← h.callback (List.mem_range.mp hpin)]
  cases ulIntStatus.toNat.testBit pin with
  | false => rfl
  | true =>
    cases (gpioHw r.state).handler pin with
    | false => rfl
    | true => rfl

theorem gpioHw_op (s : GpioState) (o : BkGpioOp) : gpioHw (s.op o) = gpioCtrl (gpioHw s) o := by
  unfold gpioHw GpioState.op
  rw [List.foldl_append]
  rfl

/-- An attach writes the callback to `pinmap` and registers the handler. -/
theorem attach_spec {r : PinRun} (h : PinInv r) {pin : UInt8} (hpin : pin.toNat < 40)
    (callback : UInt32) {mode : PinStatus} {irqMode : GpioIrqMode}
    (hmode : irqModeOf mode = some irqMode) (param : UInt32) :
    let s' := attachInterruptParam r.state pin callback mode param
    s'.pinmap.entry = Function.update r.state.pinmap.entry pin.toNat ⟨pin.toNat, callback, param⟩ ∧
      (gpioHw s').handler = Function.update (gpioHw r.state).handler pin.toNat true := by
  have htrigger : ∃ trigger, irqTrigger irqMode = some trigger := by
    cases mode <;> cases hmode <;> exact ⟨_, rfl⟩
  obtain ⟨trigger, htrigger⟩ := htrigger
  have hge : ¬pin.toNat ≥ pinDevNum := Nat.not_le.mpr hpin
  unfold attachInterruptParam tklGpioIrqInit tklGpioIrqEnable
  simp only [hmode, htrigger, if_neg (Nat.not_le.mpr hpin), if_neg hge, gpioHw_op]
  simp only [GpioState.gpio, Table.read_fst, Table.entry_write, Function.update_self]
  refine ⟨?_, ?_⟩
  · show Function.update _ _ _ = _
    rw [h.gpio hpin]
  · rw [h.gpio hpin]
    unfold gpioCtrl gpioIntEnable
    simp only [if_neg (show ¬pin.toNat ≥ gpioNum from Nat.not_le.mpr hpin)]
    rfl

/-- An attach to a pin that the adapter does not have is refused. -/
theorem attach_skips {s : GpioState} {pin : UInt8} (hpin : ¬pin.toNat < 40) (callback : UInt32)
    (mode : PinStatus) (param : UInt32) : attachInterruptParam s pin callback mode param = s := by
  have hge : pin.toNat ≥ 40 := Nat.le_of_not_lt hpin
  have hge' : pin.toNat ≥ pinDevNum := hge
  unfold attachInterruptParam tklGpioIrqInit tklGpioIrqEnable
  cases irqModeOf mode with
  | none => rfl
  | some irqMode => simp only [if_pos hge, if_pos hge']

/-- A detach leaves `pinmap` and the handlers. -/
theorem detach_spec (s : GpioState) (pin : UInt8) :
    (detachInterrupt s pin).pinmap.entry = s.pinmap.entry ∧
      (gpioHw (detachInterrupt s pin)).handler = (gpioHw s).handler := by
  unfold detachInterrupt tklGpioIrqDisable
  split
  · exact ⟨rfl, rfl⟩
  · simp only [gpioHw_op]
    exact ⟨rfl, rfl⟩

/-! ## Steps -/

theorem PinInv.attach {r : PinRun} (h : PinInv r) (pin : UInt8) (callback : UInt32)
    (mode : PinStatus) (param : UInt32) :
    PinInv (r.attach (attachInterruptParam r.state pin callback mode param) pin mode
      ⟨callback, param⟩) := by
  unfold PinRun.attach
  cases hmode : irqModeOf mode with
  | none =>
    have hskip : attachInterruptParam r.state pin callback mode param = r.state := by
      unfold attachInterruptParam
      rw [hmode]
    rw [hskip]
    exact h
  | some irqMode =>
    by_cases hpin : pin.toNat < 40
    · obtain ⟨hentry, hhandler⟩ := attach_spec h hpin callback hmode param
      constructor
      · intro p hp
        simp only [hentry, Function.update_apply]
        split
        · rename_i heq
          rw [heq]
        · exact h.pinmap p hp
      · intro p hp
        simp only [hhandler, Function.update_apply]
        split
        · rfl
        · exact h.handler p hp
    · rw [attach_skips hpin]
      constructor
      · intro p hp
        simp only [Function.update_of_ne (show p ≠ pin.toNat by omega)]
        exact h.pinmap p hp
      · intro p hp
        simp only [Function.update_of_ne (show p ≠ pin.toNat by omega)]
        exact h.handler p hp

theorem PinInv.detach {r : PinRun} (h : PinInv r) (pin : UInt8) :
    PinInv (pinStep r (.detach pin)).1 := by
  obtain ⟨hentry, hhandler⟩ := detach_spec r.state pin
  constructor
  · intro p hp
    simp only [pinStep, hentry]
    exact h.pinmap p hp
  · intro p hp
    simp only [pinStep, hhandler]
    exact h.handler p hp

theorem PinInv.step {r : PinRun} (h : PinInv r) (i : PinInput) : PinInv (pinStep r i).1 := by
  cases i with
  | attach pin callback mode => exact h.attach pin callback mode 0
  | attachParam pin callback mode param => exact h.attach pin callback mode param
  | detach pin => exact h.detach pin
  | isr ulIntStatus => exact h

/-- The pins with a status bit are below 32. -/
theorem lt_of_testBit {ulIntStatus : UInt32} {pin : Nat}
    (h : ulIntStatus.toNat.testBit pin = true) : pin < 32 := by
  by_contra hge
  have hlt : ulIntStatus.toNat < 2 ^ pin :=
    Nat.lt_of_lt_of_le ulIntStatus.toNat_lt (Nat.pow_le_pow_right (by decide) (by omega))
  rw [Nat.testBit_lt_two_pow hlt] at h
  exact Bool.false_ne_true h

theorem attached_of_mem_dispatched {r : PinRun} {ulIntStatus : UInt32} {pin : Nat}
    {call : IrqCallback} (h : (pin, call) ∈ dispatched r ulIntStatus) :
    r.attached pin = true := by
  obtain ⟨p, -, hp⟩ := List.mem_filterMap.mp h
  split at hp
  · rename_i hset
    obtain ⟨_, -, heq⟩ := Option.map_eq_some_iff.mp hp
    cases heq
    exact (Bool.and_eq_true _ _ ▸ hset).2
  · exact nomatch hp

/-- An interrupt calls what is to be called if and only if no status bit is set of a pin that has
    been detached. -/
theorem isr_ok_iff {r : PinRun} (h : PinInv r) (ulIntStatus : UInt32) :
    PinOk r (.isr ulIntStatus) ↔ QuietDetached r (.isr ulIntStatus) := by
  have hcalls : (pinStep r (.isr ulIntStatus)).2 = _ := pinInterrupt_eq h ulIntStatus
  unfold PinOk
  simp only [hcalls]
  constructor
  · intro heq pin hpin hbit hcallback
    obtain ⟨call, hcall⟩ := Option.ne_none_iff_exists'.mp hcallback
    have hmem : (pin, call) ∈ dispatched r ulIntStatus := by
      rw [← heq]
      refine List.mem_filterMap.mpr ⟨pin, List.mem_range.mpr (by unfold gpioNum; omega), ?_⟩
      rw [if_pos hbit, hcall]
      rfl
    exact attached_of_mem_dispatched hmem
  · intro hquiet
    refine List.filterMap_congr fun pin _ => ?_
    by_cases hbit : ulIntStatus.toNat.testBit pin = true
    · rw [if_pos hbit, hbit, Bool.true_and]
      cases hcallback : callbackOf r pin with
      | none => rw [Option.map_none, ite_self]
      | some call =>
        have hcall : callbackOf r pin ≠ none := by
          rw [hcallback]
          exact Option.some_ne_none call
        rw [if_pos (hquiet pin (lt_of_testBit hbit) hbit hcall)]
    · rw [Bool.not_eq_true] at hbit
      simp only [hbit, Bool.false_and, Bool.false_eq_true, if_false]

theorem pinOk_iff {r : PinRun} (h : PinInv r) (i : PinInput) : PinOk r i ↔ QuietDetached r i := by
  cases i with
  | attach pin callback mode => exact iff_of_true rfl trivial
  | attachParam pin callback mode param => exact iff_of_true rfl trivial
  | detach pin => exact iff_of_true rfl trivial
  | isr ulIntStatus => exact isr_ok_iff h ulIntStatus

/-! ## Runs -/

/-- In every sequence of attaches and detaches, with interrupts for any status in between: each
    interrupt calls the callbacks of the pins that are attached and whose bit is set, with the
    parameters of their last attaches, and no others, if and only if no status has the bit of a pin
    that has been detached since its last attach with a callback. -/
theorem pin_interrupts_iff (is : List PinInput) :
    Along pinStep PinOk .static is ↔ Along pinStep QuietDetached .static is := by
  apply along_congr (I := PinInv)
  · exact fun _ i h _ => h.step i
  · exact fun _ i h => pinOk_iff h i
  · exact ⟨fun _ _ => rfl, fun _ _ => rfl⟩

/-- The callback of a pin that has been detached is called. -/
theorem pin_interrupts_stale : ¬Along pinStep PinOk .static
    [.attach 6 0x8000 .rising, .detach 6, .isr 0x40] := by
  intro hrun
  have hstale : pinInterrupt _ 0x40 = dispatched _ 0x40 := hrun.2.2.1
  exact absurd hstale (by decide)

end ArduinoT2.Driver
