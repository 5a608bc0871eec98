import ArduinoT2.Adapter.ErrorCode
import ArduinoT2.Lib.Table
import ArduinoT2.Vendor.Pwm

/-
  The PWM adapter (tkl_pwm.c): the tables `pwm_cfg` and `pwm_start_flag`, and the calls that go
  through them to the driver.

  The compiler keeps an enum in one byte where its enumerators fit, as those of `TUYA_PWM_NUM_E`
  do, so a call gets the low byte of the channel id that its caller passes (`pwmCall`).
-/

namespace ArduinoT2.Adapter

open ArduinoT2.Vendor

/-! ## State -/

/-- `PWM_DEV_NUM`. -/
def pwmDevNum : Nat := 6

/-- `TUYA_PWM_POLARITY_E`. -/
inductive PwmPolarity
  | negative | positive
  deriving DecidableEq

/-- `TUYA_PWM_BASE_CFG_T`: the duty in 1/10000, the frequency in Hz. -/
structure PwmBaseCfg where
  polarity : PwmPolarity
  duty : UInt32
  frequency : UInt32
  deriving DecidableEq

/-- The static tables, and the hardware. -/
structure PwmState where
  pwmCfg : Table pwmDevNum PwmBaseCfg
  pwmStartFlag : Table pwmDevNum UInt8
  hw : PwmHw

/-- Which calls of the driver succeed within one call of the adapter. -/
structure PwmIo where
  initOk : Bool := true
  startOk : Bool := true
  updateOk : Bool := true
  stopOk : Bool := true

/-- The period in counts of the 26 MHz clock. A division by zero gives 0 here. -/
def PwmBaseCfg.count (cfg : PwmBaseCfg) : UInt32 := 26 * 1000000 / cfg.frequency

/-- The on-time in counts, for a period of `count`. The product wraps. -/
def PwmBaseCfg.dutyCount (cfg : PwmBaseCfg) (count : UInt32) : UInt32 := cfg.duty * count / 10000

/-! ## The calls -/

/-- `tkl_pwm_init`. -/
def tklPwmInit (s : PwmState) (chId : UInt8) (cfg : PwmBaseCfg) : OperateRet × PwmState :=
  if chId.toNat > pwmDevNum then (oprtInvalidParm, s)
  else (oprtOk, { s with pwmCfg := s.pwmCfg.write chId.toNat cfg })

/-- `tkl_pwm_start`. -/
def tklPwmStart (io : PwmIo) (s : PwmState) (chId : UInt8) : OperateRet × PwmState :=
  let ch := chId.toNat
  if ch > pwmDevNum then (oprtInvalidParm, s)
  else
    let (cfg, pwmCfg) := s.pwmCfg.read ch
    let count := cfg.count
    let duty := cfg.dutyCount count
    let (flag, pwmStartFlag) := s.pwmStartFlag.read ch
    if flag = 0 then
      let (ret, hw) := bkPwmInitialize io.initOk s.hw ch count duty 0 0
      let (ret, hw) := if ret = kNoErr then bkPwmStart io.startOk hw ch else (ret, hw)
      let ret := if ret = kNoErr then oprtOk else oprtComError
      let pwmStartFlag := pwmStartFlag.write ch (if ret = 0 then 1 else 0)
      (ret, { pwmCfg, pwmStartFlag, hw })
    else
      -- what the update returns is not looked at
      let (_, hw) := bkPwmUpdateParam io.updateOk s.hw ch count duty 0 0
      (oprtOk, { pwmCfg, pwmStartFlag, hw })

/-- The end of `tkl_pwm_multichannel_start`, behind its checks. -/
def pwmPairStart (io : PwmIo) (s : PwmState) (ch0 ch1 : Nat)
    (count coldDuty warmDuty dead : UInt32) : OperateRet × PwmState :=
  let (flag, pwmStartFlag) := s.pwmStartFlag.read ch0
  if flag = 0 then
    let (ret, hw) := bkPwmCwInitialize io.initOk s.hw ch0 ch1 count coldDuty warmDuty dead
    let (ret, hw) := if ret = kNoErr then bkPwmCwStart io.startOk hw ch0 ch1 else (ret, hw)
    let ret := if ret = kNoErr then oprtOk else oprtComError
    let pwmStartFlag := pwmStartFlag.write ch0 (if ret = 0 then 1 else 0)
    let pwmStartFlag := pwmStartFlag.write ch1 (if ret = 0 then 1 else 0)
    (ret, { s with pwmStartFlag, hw })
  else
    let (ret, hw) := bkPwmCwUpdateParam io.updateOk s.hw ch0 ch1 count coldDuty warmDuty dead
    (if ret = kNoErr then oprtOk else oprtComError, { s with pwmStartFlag, hw })

/-- `tkl_pwm_multichannel_start`, with the two entries of the list. -/
def tklPwmMultichannelStart (io : PwmIo) (s : PwmState) (chId0 chId1 num : UInt8) :
    OperateRet × PwmState :=
  let ch0 := chId0.toNat
  let ch1 := chId1.toNat
  if num = 2 then
    if ch0 > pwmDevNum ∨ ch1 > pwmDevNum then (oprtInvalidParm, s)
    else
      let (cfg0, pwmCfg) := s.pwmCfg.read ch0
      let (cfg1, pwmCfg) := pwmCfg.read ch1
      let s := { s with pwmCfg }
      if cfg0.frequency ≠ cfg1.frequency then (oprtComError, s)
      else
        let count := cfg0.count
        let coldDuty := cfg0.dutyCount count
        let warmDuty := cfg1.dutyCount count
        if count ≥ coldDuty + warmDuty then
          let dead := (count - coldDuty - warmDuty) / 2
          pwmPairStart io s ch0 ch1 count coldDuty warmDuty dead
        else (oprtComError, s)
  else (oprtNotSupported, s)

/-- `tkl_pwm_stop`. -/
def tklPwmStop (io : PwmIo) (s : PwmState) (chId : UInt8) : OperateRet × PwmState :=
  let ch := chId.toNat
  if ch > pwmDevNum then (oprtInvalidParm, s)
  else
    let (_, hw) := bkPwmStop io.stopOk s.hw ch
    (oprtOk, { s with pwmStartFlag := s.pwmStartFlag.write ch 0, hw })

/-- `tkl_pwm_multichannel_stop`, with the two entries of the list. -/
def tklPwmMultichannelStop (io : PwmIo) (s : PwmState) (chId0 chId1 num : UInt8) :
    OperateRet × PwmState :=
  let ch0 := chId0.toNat
  let ch1 := chId1.toNat
  if num = 2 then
    if ch0 > pwmDevNum ∨ ch1 > pwmDevNum then (oprtInvalidParm, s)
    else
      let (_, hw) := bkPwmCwStop io.stopOk s.hw ch0 ch1
      (oprtOk, { s with pwmStartFlag := (s.pwmStartFlag.write ch0 0).write ch1 0, hw })
  else (oprtNotSupported, s)

/-- An entry of `pwm_cfg` changes, as `tkl_pwm_duty_set` and `tkl_pwm_frequency_set` do it. -/
def pwmCfgModify (s : PwmState) (chId : UInt8) (f : PwmBaseCfg → PwmBaseCfg) :
    OperateRet × PwmState :=
  let ch := chId.toNat
  if ch > pwmDevNum then (oprtInvalidParm, s)
  else (oprtOk, { s with pwmCfg := s.pwmCfg.write ch (f (s.pwmCfg.entry ch)) })

/-- `tkl_pwm_duty_set`. -/
def tklPwmDutySet (s : PwmState) (chId : UInt8) (duty : UInt32) : OperateRet × PwmState :=
  pwmCfgModify s chId fun cfg => { cfg with duty }

/-- `tkl_pwm_frequency_set`. -/
def tklPwmFrequencySet (s : PwmState) (chId : UInt8) (frequency : UInt32) :
    OperateRet × PwmState :=
  pwmCfgModify s chId fun cfg => { cfg with frequency }

/-- `tkl_pwm_info_set`. -/
def tklPwmInfoSet (s : PwmState) (chId : UInt8) (info : PwmBaseCfg) : OperateRet × PwmState :=
  tklPwmInit s chId info

/-- `tkl_pwm_info_get`: the return value and what it stores in `info`. -/
def tklPwmInfoGet (s : PwmState) (chId : UInt8) :
    OperateRet × Option PwmBaseCfg × PwmState :=
  let ch := chId.toNat
  if ch > pwmDevNum then (oprtInvalidParm, none, s)
  else
    let (info, pwmCfg) := s.pwmCfg.read ch
    (oprtOk, some info, { s with pwmCfg })

/-- The calls of a program, with the ids as it passes them. -/
inductive PwmCall
  | init (chId : UInt32) (cfg : PwmBaseCfg)
  | start (chId : UInt32)
  | stop (chId : UInt32)
  | multichannelStart (chId0 chId1 : UInt32) (num : UInt8)
  | multichannelStop (chId0 chId1 : UInt32) (num : UInt8)
  | dutySet (chId duty : UInt32)
  | frequencySet (chId frequency : UInt32)
  | infoSet (chId : UInt32) (info : PwmBaseCfg)
  | infoGet (chId : UInt32)

/-- One call, with the low bytes of the ids: the return value and the state behind it. -/
def pwmCall (io : PwmIo) (s : PwmState) : PwmCall → OperateRet × PwmState
  | .init chId cfg => tklPwmInit s chId.toUInt8 cfg
  | .start chId => tklPwmStart io s chId.toUInt8
  | .stop chId => tklPwmStop io s chId.toUInt8
  | .multichannelStart chId0 chId1 num =>
    tklPwmMultichannelStart io s chId0.toUInt8 chId1.toUInt8 num
  | .multichannelStop chId0 chId1 num =>
    tklPwmMultichannelStop io s chId0.toUInt8 chId1.toUInt8 num
  | .dutySet chId duty => tklPwmDutySet s chId.toUInt8 duty
  | .frequencySet chId frequency => tklPwmFrequencySet s chId.toUInt8 frequency
  | .infoSet chId info => tklPwmInfoSet s chId.toUInt8 info
  | .infoGet chId =>
    ((tklPwmInfoGet s chId.toUInt8).1, (tklPwmInfoGet s chId.toUInt8).2.2)

end ArduinoT2.Adapter
