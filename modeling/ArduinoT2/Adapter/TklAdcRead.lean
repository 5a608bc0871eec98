import ArduinoT2.Vendor.Saradc

/-
  A read of one ADC channel with its data (`tkl_adc_read_single_channel` of tkl_adc.c), by
  several tasks.

  A call gives up the processor in the `vTaskDelay` of its wait loop and nowhere else, so a step
  is what one task does up to there, a sample of the converter, or the interrupt. `adcMv` stands
  for `(UINT16)(saradc_calculate(v) * 1000)`, which is computed in floating point.
-/

namespace ArduinoT2.Adapter

open ArduinoT2.Vendor

universe u

/-! ## One call -/

/-- The locals of a call that waits: the parameters and the loop counter, a `signed char`. -/
structure ReadFrame where
  chId : UInt8
  data : UInt32
  i : Nat
  deriving DecidableEq

/-- A call gives up the processor, or returns. -/
inductive ReadOut
  | delayed (frame : ReadFrame)
  | returned (ret : OperateRet)
  deriving DecidableEq

/-- What the call writes to `adc_desc` before it knows whether the device is free. -/
def adcDescFor (desc : SaradcDesc) (chId : UInt8) (data : UInt32) : SaradcDesc :=
  { desc with hasData := 0, channel := chId + 1, pData := data }

/-- The same, up to `ddev_open`. -/
def adcDescReset (desc : SaradcDesc) (chId : UInt8) (data : UInt32) : SaradcDesc :=
  { adcDescFor desc chId data with currentSampleDataCnt := 0, currentReadDataCnt := 0 }

section Read

variable (adcMv : UInt16 → UInt16)

/-- `temp_adc_mv * ADC_REGISTER_VAL_MAX / ADC_VOLTAGE_MAX`, in an `unsigned short`. -/
def adcResult (v : UInt16) : UInt16 := UInt16.ofNat ((adcMv v).toNat * 4096 / 2400)

/-- `data[i] = v`, whose upper half-word is 0. -/
def writeData (mem : UInt32 → UInt16) (data : UInt32) (i : Nat) (v : UInt16) : UInt32 → UInt16 :=
  Function.update (Function.update mem (halfword data (2 * i)) v) (halfword data (2 * i + 1)) 0

/-- The loop over the samples from `i - 1` down to 0. -/
def adcConvertLoop (pData data : UInt32) : Nat → (UInt32 → UInt16) → UInt32 → UInt16
  | 0, mem => mem
  | i + 1, mem =>
    adcConvertLoop pData data i (writeData mem data i (adcResult adcMv (mem (halfword pData i))))

/-- The end of the call, behind the wait loop. -/
def adcReadFinish (s : Saradc) (f : ReadFrame) : Saradc :=
  let s := saradcDdevClose s
  let s := saradcEnsureClose s
  -- `i` is a `signed char`: from 128 on it is negative
  let i := s.desc.dataBuffSize - 1
  if i < 128 then { s with mem := adcConvertLoop adcMv s.desc.pData f.data (i.toNat + 1) s.mem }
  else s

/-- The wait loop, up to the next delay or to the end of the call. -/
def adcReadWait (s : Saradc) (f : ReadFrame) : ReadOut × Saradc :=
  if s.desc.allDone = 0 then
    let f := { f with i := f.i + 1 }
    if f.i > 100 then (.returned oprtOk, adcReadFinish adcMv s f) else (.delayed f, s)
  else (.returned oprtOk, adcReadFinish adcMv s f)

/-- The call from where it disables the interrupts, up to its first delay or its end. -/
def adcReadOpen (s : Saradc) (chId : UInt8) (data : UInt32) : ReadOut × Saradc :=
  let (status, hdl, s) := saradcDdevOpen { s with desc := adcDescReset s.desc chId data }
  if hdl = false ∨ status ≠ saradcSuccess then
    -- a handle that is not valid closes nothing
    let s := if status ≠ saradcSuccess ∧ hdl = true then saradcDdevClose s else s
    (.returned oprtComError, s)
  else adcReadWait adcMv s { chId, data, i := 0 }

/-- `tkl_adc_read_single_channel`, up to its first delay or its end. -/
def adcReadSingleChannel (s : Saradc) (gAdcInit : Table adcDevChannelSum UInt8) (portNum : UInt8)
    (chId : UInt8) (data : UInt32) : ReadOut × Saradc × Table adcDevChannelSum UInt8 :=
  if portNum.toNat > adcDevNum - 1 ∨ chId.toNat > adcDevChannelSum then
    (.returned oprtInvalidParm, s, gAdcInit)
  else
    let (isInit, gAdcInit) := gAdcInit.read chId.toNat
    if isInit = 0 then (.returned oprtOsAdapterComError, s, gAdcInit)
    else if data = 0 then
      (.returned oprtMallocFailed, { s with desc := adcDescFor s.desc chId data }, gAdcInit)
    else
      let (out, s) := adcReadOpen adcMv s chId data
      (out, s, gAdcInit)

/-- The return value of a call, where one that waits will return `OPRT_OK`. -/
def retOf : ReadOut → OperateRet
  | .delayed _ => oprtOk
  | .returned ret => ret

theorem retOf_adcReadWait (s : Saradc) (f : ReadFrame) :
    retOf (adcReadWait adcMv s f).1 = oprtOk := by
  unfold adcReadWait
  split
  · simp only
    split
    · rfl
    · rfl
  · rfl

theorem retOf_adcReadOpen (s : Saradc) (chId : UInt8) (data : UInt32) :
    retOf (adcReadOpen adcMv s chId data).1 = oprtOk ∨
      retOf (adcReadOpen adcMv s chId data).1 = oprtComError := by
  unfold adcReadOpen
  simp only
  split
  · exact Or.inr rfl
  · exact Or.inl (retOf_adcReadWait adcMv _ _)

/-- With a driver that answers as this one, the call is `tklAdcReadSingleChannel`. -/
theorem adcReadSingleChannel_table (s : Saradc) (gAdcInit : Table adcDevChannelSum UInt8)
    (adcChNums : UInt8) (portNum chId : UInt8) (data : UInt32) :
    let r := adcReadSingleChannel adcMv s gAdcInit portNum chId data
    ∃ io, tklAdcReadSingleChannel io ⟨s.desc, gAdcInit, adcChNums⟩ portNum chId data =
      (retOf r.1, ⟨r.2.1.desc, r.2.2, adcChNums⟩) := by
  let r := adcReadOpen adcMv s chId data
  refine ⟨⟨decide (retOf r.1 = oprtOk), fun _ => r.2.desc⟩, ?_⟩
  unfold tklAdcReadSingleChannel adcReadSingleChannel
  simp only
  split
  · rfl
  split
  · rfl
  split
  · rfl
  rcases retOf_adcReadOpen adcMv s chId data with hret | hret
  · rw [if_pos (decide_eq_true hret), hret]
  · have hne : ¬retOf r.1 = oprtOk := by
      rw [hret]
      decide
    rw [if_neg (by rw [decide_eq_false hne]; exact Bool.false_ne_true), hret]

/-! ## The tasks -/

/-- What the tasks share, and the frames of the calls that wait. -/
structure AdcTasks (T : Type u) where
  saradc : Saradc
  gAdcInit : Table adcDevChannelSum UInt8
  frames : T → Option ReadFrame

/-- One step: a task calls or goes on, the converter takes a sample, or the interrupt runs. -/
inductive AdcInput (T : Type u)
  | call (t : T) (portNum chId : UInt8) (data : UInt32)
  | resume (t : T)
  | convert (levels : UInt8 → UInt16)
  | isr

/-- What a step shows: the result of a call, or the addresses that the interrupt stores to. -/
inductive AdcOutput
  | none
  | read (out : ReadOut)
  | stored (addrs : List UInt32)

/-- The frame that a call leaves. -/
def frameOf : ReadOut → Option ReadFrame
  | .delayed f => some f
  | .returned _ => none

variable {T : Type u} [DecidableEq T]

/-- One step of the tasks. A task that waits makes no other call, and only such a task goes on. -/
def adcTaskStep (s : AdcTasks T) : AdcInput T → AdcTasks T × AdcOutput
  | .call t portNum chId data =>
    match s.frames t with
    | some _ => (s, .none)
    | none =>
      let (out, saradc, gAdcInit) :=
        adcReadSingleChannel adcMv s.saradc s.gAdcInit portNum chId data
      ({ saradc, gAdcInit, frames := Function.update s.frames t (frameOf out) }, .read out)
  | .resume t =>
    match s.frames t with
    | none => (s, .none)
    | some f =>
      let (out, saradc) := adcReadWait adcMv s.saradc f
      ({ s with saradc, frames := Function.update s.frames t (frameOf out) }, .read out)
  | .convert levels => ({ s with saradc := saradcConvert s.saradc levels }, .none)
  | .isr =>
    if s.saradc.intEnable then
      let (saradc, addrs) := saradcIsr s.saradc
      ({ s with saradc }, .stored addrs)
    else (s, .none)

end Read

end ArduinoT2.Adapter
