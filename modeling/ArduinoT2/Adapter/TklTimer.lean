import ArduinoT2.Adapter.ErrorCode
import ArduinoT2.Vendor.BkTimer

/-
  The timer adapter (tkl_timer.c): the table `timer_map` and the calls. The timers 2 and 3 are the
  channels 4 and 5.
-/

namespace ArduinoT2.Adapter

open ArduinoT2.Vendor

/-- `TIMER_DEV_NUM`. -/
def timerDevNum : Nat := 4

/-- `TUYA_TIMER_MODE_E`. -/
inductive TimerMode
  | once | period
  deriving DecidableEq

/-- `TUYA_TIMER_BASE_CFG_E`, with addresses for the pointers. -/
structure TimerBaseCfg where
  mode : TimerMode
  cb : UInt32
  args : UInt32
  deriving DecidableEq

/-- The table, and the hardware. -/
structure TimerState where
  timerMap : Nat → TimerBaseCfg
  hw : TimerHw

/-- The state at reset. -/
def TimerState.static : TimerState where
  timerMap := fun _ => ⟨.once, 0, 0⟩
  hw := ⟨fun _ => false, fun _ => 0, fun _ => false⟩

/-- A call of a callback. -/
structure TimerCallback where
  cb : UInt32
  args : UInt32
  deriving DecidableEq

/-- `__tkl_hw_timer_cb`. -/
def tklHwTimerCb (s : TimerState) (args : Nat) : Option TimerCallback :=
  let cfg := s.timerMap args
  if cfg.cb ≠ 0 then some ⟨cfg.cb, cfg.args⟩ else none

/-- `tkl_timer_init`. -/
def tklTimerInit (s : TimerState) (timerId : Nat) (cfg : Option TimerBaseCfg) :
    OperateRet × TimerState :=
  if timerId ≥ timerDevNum then (oprtNotSupported, s)
  else
    match cfg with
    | none => (oprtInvalidParm, s)
    | some cfg =>
      let timerId := if 2 = timerId ∨ 3 = timerId then timerId + 2 else timerId
      (oprtOk, { s with timerMap := Function.update s.timerMap timerId cfg })

/-- `tkl_timer_start`. -/
def tklTimerStart (s : TimerState) (timerId : Nat) (us : UInt32) : OperateRet × TimerState :=
  if timerId ≥ timerDevNum then (oprtNotSupported, s)
  else if 0 = timerId ∨ 1 = timerId then
    (oprtOk, { s with hw := bkTimerInitializeUs s.hw timerId us })
  else if us < 1000 then (oprtInvalidParm, s)
  else (oprtOk, { s with hw := bkTimerInitialize s.hw (timerId + 2) (us / 1000) })

/-- `tkl_timer_stop`. -/
def tklTimerStop (s : TimerState) (timerId : Nat) : OperateRet × TimerState :=
  if timerId ≥ timerDevNum then (oprtNotSupported, s)
  else if 0 = timerId ∨ 1 = timerId then (oprtOk, { s with hw := bkTimerStop s.hw timerId })
  else (oprtOk, { s with hw := bkTimerStop s.hw (timerId + 2) })

/-- The periods of some channels end: those that are enabled raise the interrupt, and the handler
    calls the callbacks. The channel of each is given with it. -/
def timerInterrupt (s : TimerState) (ends : Nat → Bool) : List (Nat × TimerCallback) :=
  (bkTimerIsr s.hw fun c => ends c && s.hw.enabled c).filterMap fun c =>
    (tklHwTimerCb s c).map fun call => (c, call)

/-- A call, or the ends of periods. -/
inductive TimerInput
  | init (timerId : Nat) (cfg : Option TimerBaseCfg)
  | start (timerId : Nat) (us : UInt32)
  | stop (timerId : Nat)
  | interrupt (ends : Nat → Bool)

/-- One step: the state behind it, and the return value or the callbacks. -/
def timerCall (s : TimerState) : TimerInput → TimerState × OperateRet × List (Nat × TimerCallback)
  | .init timerId cfg =>
    let (ret, s) := tklTimerInit s timerId cfg
    (s, ret, [])
  | .start timerId us =>
    let (ret, s) := tklTimerStart s timerId us
    (s, ret, [])
  | .stop timerId =>
    let (ret, s) := tklTimerStop s timerId
    (s, ret, [])
  | .interrupt ends => (s, oprtOk, timerInterrupt s ends)

end ArduinoT2.Adapter
