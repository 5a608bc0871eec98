import Mathlib.Logic.Function.Basic

/-
  The hardware timers of the vendor (BkDriverTimer.c, bk_timer.c): six channels that run in periods
  while their enable bit is set.

  A channel whose period ends raises its bit in the interrupt status, and goes on. Of the handlers
  only `__tkl_hw_timer_cb` occurs here. The clocks are not modelled.
-/

namespace ArduinoT2.Vendor

/-- `TIMER_CHANNEL_NO`. -/
def timerChannelNo : Nat := 6

/-- `BK_TIMER_SUCCESS` and `BK_TIMER_FAILURE`. -/
def bkTimerSuccess : UInt32 := 0
def bkTimerFailure : UInt32 := 1

/-- The enable bits and the periods, and which entries of `p_TIMER_Int_Handler` are
    `__tkl_hw_timer_cb`; the others are NULL. -/
structure TimerHw where
  enabled : Nat → Bool
  period : Nat → UInt32
  handler : Nat → Bool

/-- `bk_timer_cal_endvalue`, for a divider that is not 0. The product is 32 bits wide, so its
    limit at `0xffffffff` is never reached. -/
def bkTimerCalEndvalue (channel : Nat) (timeMs div : UInt32) : UInt32 :=
  if channel < 3 then timeMs * 26000 / div else timeMs * 32 / div

/-- `bk_timer_cal_endvalue_us`, in the same way. -/
def bkTimerCalEndvalueUs (timeUs div : UInt32) : UInt32 := timeUs * 26 / div

/-- The handler, the period and the enable bit of a channel are set. -/
def timerStart (hw : TimerHw) (channel : Nat) (period : UInt32) : TimerHw where
  enabled := Function.update hw.enabled channel true
  period := Function.update hw.period channel period
  handler := Function.update hw.handler channel true

/-- `init_timer_param`. -/
def initTimerParam (hw : TimerHw) (channel : Nat) (period div : UInt32) : UInt32 × TimerHw :=
  if channel > 5 then (bkTimerFailure, hw)
  else (bkTimerSuccess, timerStart hw channel (bkTimerCalEndvalue channel period div))

/-- `init_timer_param_us`. -/
def initTimerParamUs (hw : TimerHw) (channel : Nat) (period div : UInt32) : UInt32 × TimerHw :=
  if channel > 2 then (bkTimerFailure, hw)
  else (bkTimerSuccess, timerStart hw channel (bkTimerCalEndvalueUs period div))

/-- `CMD_TIMER_UNIT_DISABLE` of `bk_timer_ctrl`. The handler stays. -/
def timerUnitDisable (hw : TimerHw) (channel : Nat) : UInt32 × TimerHw :=
  if channel > 5 then (bkTimerFailure, hw)
  else (bkTimerSuccess, { hw with enabled := Function.update hw.enabled channel false })

/-- `bk_timer_initialize`, with the divider 1. -/
def bkTimerInitialize (hw : TimerHw) (timerId : Nat) (timeMs : UInt32) : TimerHw :=
  (initTimerParam hw timerId timeMs 1).2

/-- `bk_timer_initialize_us`, with the divider 1. -/
def bkTimerInitializeUs (hw : TimerHw) (timerId : Nat) (timeUs : UInt32) : TimerHw :=
  (initTimerParamUs hw timerId timeUs 1).2

/-- `bk_timer_stop`. -/
def bkTimerStop (hw : TimerHw) (timerId : Nat) : TimerHw := (timerUnitDisable hw timerId).2

/-- `bk_timer_isr`, with the status bits: the channels whose handler it calls, in order. -/
def bkTimerIsr (hw : TimerHw) (status : Nat → Bool) : List Nat :=
  (List.range timerChannelNo).filter fun i => status i && hw.handler i

end ArduinoT2.Vendor
