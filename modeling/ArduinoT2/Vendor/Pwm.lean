import Mathlib.Logic.Function.Basic

/-
  The PWM driver of the vendor (BkDriverPwm.c, pwm_new.c), for the six channels of the BK7231N.

  A channel runs while its enable bit is set; the registers T1 to T4 hold its times, T4 the
  period. `ok` is whether a call succeeds: one that fails returns an error and leaves the
  hardware as it is. Initial levels, pins and clocks are not modelled.
-/

namespace ArduinoT2.Vendor

/-- `OSStatus`. -/
abbrev OSStatus := Int

abbrev kNoErr : OSStatus := 0
abbrev kGeneralErr : OSStatus := -1

/-- The registers T1 to T4 of a channel. -/
structure PwmTimes where
  t1 : UInt32
  t2 : UInt32
  t3 : UInt32
  t4 : UInt32
  deriving DecidableEq

/-- The channels, and the static `group_flag`. -/
structure PwmHw where
  times : Nat → PwmTimes
  enabled : Nat → Bool
  groupFlag : Bool

/-- `PWM_COUNT`. -/
def pwmCount : Nat := 6

/-- `pwm_check_group`: the two channels are one group. -/
def pwmCheckGroup (channel1 channel2 : Nat) : Bool :=
  if ((channel2 : Int) - channel1).natAbs = 1 then
    if channel1 = 0 then channel2 = 1
    else if channel1 = 1 then channel2 = 0
    else if channel1 = 2 then channel2 = 3
    else if channel1 = 3 then channel2 = 2
    else if channel1 = 4 then channel2 = 5
    else channel2 = 4
  else false

/-- `get_set_group`. -/
def getSetGroup (channel : Nat) : Nat :=
  if channel < 2 then 0
  else if channel < 4 then 1
  else 2

/-- `init_pwm_param`, for the times. -/
def initPwmParam (hw : PwmHw) (channel : Nat) (param : PwmTimes) : PwmHw :=
  if channel ≥ pwmCount ∨ param.t1 > param.t4 then hw
  else { hw with times := Function.update hw.times channel param }

/-- `pwm_update_param` and `pwm_single_update_param`. -/
def pwmUpdateParam (hw : PwmHw) (channel : Nat) (param : PwmTimes) : PwmHw :=
  if channel ≥ pwmCount then hw
  else { hw with times := Function.update hw.times channel param }

/-- `pwm_param_clear`. -/
def pwmParamClear (hw : PwmHw) (channel : Nat) : PwmHw :=
  { hw with times := Function.update hw.times channel ⟨0, 0, 0, 0⟩ }

/-- `pwm_unit_enable`. -/
def pwmUnitEnable (hw : PwmHw) (channel : Nat) : PwmHw :=
  if channel ≥ pwmCount then hw
  else { hw with enabled := Function.update hw.enabled channel true }

/-- `pwm_unit_disable`. -/
def pwmUnitDisable (hw : PwmHw) (channel : Nat) : PwmHw :=
  if channel ≥ pwmCount then hw
  else { hw with enabled := Function.update hw.enabled channel false }

/-- The enable bits of the group of a channel become `value`. -/
def setGroup (hw : PwmHw) (channel : Nat) (value : Bool) : PwmHw :=
  let first := 2 * getSetGroup channel
  { hw with
    enabled := Function.update (Function.update hw.enabled first value) (first + 1) value }

/-- `pwm_group_mode_enable`. -/
def pwmGroupModeEnable (hw : PwmHw) (channel : Nat) : PwmHw :=
  if channel ≥ pwmCount then hw else setGroup hw channel true

/-- `pwm_group_mode_disable`. -/
def pwmGroupModeDisable (hw : PwmHw) (channel : Nat) : PwmHw :=
  if channel ≥ pwmCount then hw else setGroup hw channel false

/-! ## The calls of the driver -/

/-- `bk_pwm_initialize`. -/
def bkPwmInitialize (ok : Bool) (hw : PwmHw) (pwm : Nat)
    (count dutyCycle1 dutyCycle2 dutyCycle3 : UInt32) : OSStatus × PwmHw :=
  if !ok then (kGeneralErr, hw)
  else (kNoErr, initPwmParam hw pwm ⟨dutyCycle1, dutyCycle2, dutyCycle3, count⟩)

/-- `bk_pwm_update_param`. -/
def bkPwmUpdateParam (ok : Bool) (hw : PwmHw) (pwm : Nat)
    (frequency dutyCycle1 dutyCycle2 dutyCycle3 : UInt32) : OSStatus × PwmHw :=
  if !ok then (kGeneralErr, hw)
  else (kNoErr, pwmUpdateParam hw pwm ⟨dutyCycle1, dutyCycle2, dutyCycle3, frequency⟩)

/-- `bk_pwm_start`. -/
def bkPwmStart (ok : Bool) (hw : PwmHw) (pwm : Nat) : OSStatus × PwmHw :=
  if !ok then (kGeneralErr, hw) else (kNoErr, pwmUnitEnable hw pwm)

/-- `bk_pwm_stop`. -/
def bkPwmStop (ok : Bool) (hw : PwmHw) (pwm : Nat) : OSStatus × PwmHw :=
  if !ok then (kGeneralErr, hw)
  else if pwm ≥ pwmCount then (kNoErr, hw)
  else (kNoErr, pwmParamClear (pwmUnitDisable hw pwm) pwm)

/-- `bk_pwm_cw_initialize`. -/
def bkPwmCwInitialize (ok : Bool) (hw : PwmHw) (pwm1 pwm2 : Nat)
    (count dutyCycle1 dutyCycle2 deadBand : UInt32) : OSStatus × PwmHw :=
  if !ok ∨ count < dutyCycle1 + dutyCycle2 + 2 * deadBand then (kGeneralErr, hw)
  else
    let hw := { hw with groupFlag := pwmCheckGroup pwm1 pwm2 }
    let param1 : PwmTimes :=
      if dutyCycle1 = 0 then ⟨0, 0, 0, count⟩
      else ⟨count - dutyCycle1 - deadBand, count - deadBand, 0, count⟩
    let hw := initPwmParam hw pwm1 param1
    (kNoErr, initPwmParam hw pwm2 ⟨dutyCycle2, count, 0, count⟩)

/-- `bk_pwm_cw_start`. -/
def bkPwmCwStart (ok : Bool) (hw : PwmHw) (pwm1 pwm2 : Nat) : OSStatus × PwmHw :=
  if !ok then (kGeneralErr, hw)
  else if hw.groupFlag then (kNoErr, pwmGroupModeEnable hw pwm1)
  else (kNoErr, pwmUnitEnable (pwmUnitEnable hw pwm1) pwm2)

/-- `bk_pwm_cw_stop`. -/
def bkPwmCwStop (ok : Bool) (hw : PwmHw) (pwm1 pwm2 : Nat) : OSStatus × PwmHw :=
  if !ok then (kGeneralErr, hw)
  else if hw.groupFlag then (kNoErr, pwmGroupModeDisable hw pwm1)
  else (kNoErr, pwmUnitDisable (pwmUnitDisable hw pwm1) pwm2)

/-- `bk_pwm_cw_update_param`. -/
def bkPwmCwUpdateParam (ok : Bool) (hw : PwmHw) (pwm1 pwm2 : Nat)
    (count dutyCycle1 dutyCycle2 deadBand : UInt32) : OSStatus × PwmHw :=
  if !ok ∨ count < dutyCycle1 + dutyCycle2 + 2 * deadBand then (kGeneralErr, hw)
  else
    let deadBand := if dutyCycle1 = 0 then 0 else deadBand
    let hw := { hw with groupFlag := pwmCheckGroup pwm1 pwm2 }
    let hw := pwmUpdateParam hw pwm1 ⟨count - dutyCycle1 - deadBand, count - deadBand, 0, count⟩
    (kNoErr, pwmUpdateParam hw pwm2 ⟨dutyCycle2, count, 0, count⟩)

end ArduinoT2.Vendor
