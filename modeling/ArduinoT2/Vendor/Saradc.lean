import ArduinoT2.Adapter.TklAdc
import ArduinoT2.Vendor.DrvModel
import Mathlib.Logic.Function.Basic

/-
  The ADC driver (vendor/driver/saradc/saradc.c) behind its entry in the driver table.

  The driver keeps the pointer to the descriptor that `ddev_open` passed on, and the interrupt
  stores the samples where that descriptor says at the time. `adc_desc` is the only descriptor
  here, and the interrupt is enabled only from an open to the next close, so the pointer is
  `&adc_desc` wherever it is followed. Memory is half-words, at even addresses.
-/

namespace ArduinoT2.Vendor

open ArduinoT2.Adapter

/-- `SARADC_SUCCESS`, `SARADC_FAILURE` and `DRV_FAILURE`. -/
def saradcSuccess : UInt32 := 0
def saradcFailure : UInt32 := 1
def drvFailure : UInt32 := 0 - 5

/-- `SARADC_ADC_CHNL_MAX` and `SARADC_ADC_CHNL_MASK`. -/
def saradcAdcChnlMax : UInt8 := 12
def saradcAdcChnlMask : UInt8 := 0x0F

/-- `ADC_CONFIG_MODE_SHOULD_OFF`. -/
def adcConfigModeShouldOff : UInt8 := 8

/-- The driver with its entry, the descriptor, the converter and memory. -/
structure Saradc where
  desc : SaradcDesc
  dev : DrvDev
  isBusy : UInt8
  /-- `SARADC_ADC_CHNL_EN` and the channel, in `SARADC_ADC_CONFIG`. -/
  chnlEn : Bool
  chnl : UInt8
  /-- The samples that are ready to be read. -/
  fifo : List UInt16
  /-- `IRQ_SARADC_BIT` is enabled. -/
  intEnable : Bool
  mem : UInt32 → UInt16

/-- The address of `base[j]`, for half-words. -/
def halfword (base : UInt32) (j : Nat) : UInt32 := base + 2 * UInt32.ofNat j

/-! ## Open and close -/

/-- `saradc_open`, with `adc_desc` as the flag. -/
def saradcOpen (s : Saradc) : UInt32 × Saradc :=
  if s.desc.pData = 0 then (saradcFailure, s)
  else if s.desc.channel > saradcAdcChnlMax then (saradcFailure, s)
  else if s.desc.dataBuffSize = 0 then (saradcFailure, s)
  else if s.isBusy ≠ 0 then (saradcFailure, s)
  else
    let desc := { s.desc with
      hasData := 0, allDone := 0, currentReadDataCnt := 0, currentSampleDataCnt := 0 }
    (saradcSuccess, { s with
      isBusy := 1, desc, fifo := [], chnlEn := true, chnl := desc.channel &&& saradcAdcChnlMask
      intEnable := true })

/-- `saradc_close`. -/
def saradcClose (s : Saradc) : Saradc :=
  { s with intEnable := false, chnlEn := false, fifo := [], isBusy := 0 }

/-- `saradc_ensure_close`. -/
def saradcEnsureClose (s : Saradc) : Saradc :=
  if s.desc.mode &&& adcConfigModeShouldOff ≠ 0 then saradcClose s else s

/-- `ddev_open` of the ADC: the status, whether the handle is valid, and the driver. -/
def saradcDdevOpen (s : Saradc) : UInt32 × Bool × Saradc :=
  match s.dev.state with
  | .opened => (drvFailure, true, { s with dev := ddevOpen s.dev })
  | .closed =>
    let (status, s) := saradcOpen s
    (status, true, { s with dev := ddevOpen s.dev })
  | _ => (drvFailure, false, { s with dev := ddevOpen s.dev })

/-- `ddev_close` of the ADC. -/
def saradcDdevClose (s : Saradc) : Saradc :=
  let s := { s with dev := ddevClose s.dev }
  if s.dev.useCnt = 0 then saradcClose s else s

/-! ## The converter and its interrupt -/

/-- The converter takes a sample of its channel, where `levels` is what the channels measure. -/
def saradcConvert (s : Saradc) (levels : UInt8 → UInt16) : Saradc :=
  if s.chnlEn then { s with fifo := s.fifo ++ [levels s.chnl] } else s

/-- `saradc_pause`. -/
def saradcPause (s : Saradc) : Saradc := { s with chnlEn := false, fifo := [] }

/-- `p_Int_Handler`, which is `saradc_disable` or NULL. -/
def saradcIntHandler (s : Saradc) : Saradc :=
  if s.desc.pIntHandler ≠ 0 then { s with chnlEn := false } else s

/-- `dac_val` goes to the next place in the buffer, and in step mode the converter goes on. -/
def saradcStore (s : Saradc) (dacVal : UInt16) : Saradc :=
  let cnt := s.desc.currentSampleDataCnt
  let desc := { s.desc with currentSampleDataCnt := cnt + 1, hasData := 1 }
  let mem := Function.update s.mem (halfword s.desc.pData cnt.toNat) dacVal
  if s.desc.mode &&& 0x03 = 0x01 then { s with desc, mem, chnlEn := true } else { s with desc, mem }

/-- The loop of `saradc_isr` over the samples that are ready, with the addresses it stores to. -/
def saradcIsrLoop (s : Saradc) : List UInt16 → Saradc × List UInt32
  | [] => ({ s with fifo := [] }, [])
  | dacVal :: fifo =>
    let cnt := s.desc.currentSampleDataCnt
    if cnt < s.desc.dataBuffSize then
      let a := halfword s.desc.pData cnt.toNat
      let s := saradcStore s dacVal
      if s.desc.currentSampleDataCnt = s.desc.dataBuffSize then (saradcPause s, [a])
      else
        let (s, addrs) := saradcIsrLoop s fifo
        (s, a :: addrs)
    else ({ s with fifo }, [])

/-- `saradc_isr`: the driver, and the addresses that samples have been stored to. -/
def saradcIsr (s : Saradc) : Saradc × List UInt32 :=
  let (s, addrs) := saradcIsrLoop s s.fifo
  if s.desc.currentSampleDataCnt ≥ s.desc.dataBuffSize then
    (saradcIntHandler { s with desc := { s.desc with allDone := 1 } }, addrs)
  else (s, addrs)

end ArduinoT2.Vendor
