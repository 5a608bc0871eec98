import ArduinoT2.Adapter.ErrorCode
import ArduinoT2.Lib.Table

/-
  The ADC adapter (tkl_adc.c): the descriptor `adc_desc`, the table `g_adc_init` and
  `adc_ch_nums`, and the calls that set and use them.

  The driver owns the descriptor while a read is under way: what it leaves in it is the
  environment's choice (`AdcIo`). An enum is kept in one byte, so a call gets the low byte of the
  port that its caller passes, as it does of the channel, a `UINT8_T`.
-/

namespace ArduinoT2.Adapter

/-! ## State -/

/-- `ADC_DEV_NUM`. -/
def adcDevNum : Nat := 1

/-- `ADC_DEV_CHANNEL_SUM`. -/
def adcDevChannelSum : Nat := 6

/-- `saradc_desc_t`, with addresses for the pointers. -/
structure SaradcDesc where
  pData : UInt32 := 0
  currentSampleDataCnt : UInt8 := 0
  currentReadDataCnt : UInt8 := 0
  dataBuffSize : UInt8 := 0
  hasData : UInt8 := 0
  allDone : UInt8 := 0
  channel : UInt8 := 0
  mode : UInt8 := 0
  pIntHandler : UInt32 := 0
  preDiv : UInt8 := 0
  sampRate : UInt8 := 0
  filter : UInt8 := 0
  deriving DecidableEq

/-- The static variables. -/
structure AdcState where
  adcDesc : SaradcDesc
  gAdcInit : Table adcDevChannelSum UInt8
  adcChNums : UInt8

/-- The state at reset. -/
def AdcState.static : AdcState where
  adcDesc := {}
  gAdcInit := Table.of adcDevChannelSum fun _ => 0
  adcChNums := 0

/-- `TUYA_ADC_MODE_E`, and the values that are no enumerator. -/
inductive AdcMode
  | single | continuous | scan | other (value : UInt8)
  deriving DecidableEq

/-- `TUYA_ADC_BASE_CFG_T`, as far as the adapter reads it. `chList i` is the byte `i` bytes
    behind the pointer, whether it belongs to the list or not. -/
structure AdcBaseCfg where
  chList : Option (Nat → UInt8)
  chNums : UInt8
  mode : AdcMode
  convCnt : UInt16

/-- What `ddev_open` answers, and what the driver makes of the descriptor until it is closed. -/
structure AdcIo where
  opened : Bool
  driver : SaradcDesc → SaradcDesc

/-- The address of `saradc_disable`. -/
def saradcDisable : UInt32 := 1

/-! ## The calls -/

/-- The mode bits that `tkl_adc_init` chooses: step, or continue with `ADC_CONFIG_MODE_SHOULD_OFF`,
    each with a delay of 4 clocks. -/
def adcConfigMode : AdcMode → Option UInt8
  | .single => some 0x01
  | .continuous => some ((0x03 : UInt8) ||| ((1 : UInt8) <<< (3 : UInt8)))
  | .scan => none
  | .other _ => none

/-- The body of the loop of `tkl_adc_init`. -/
def adcInitChannel (chList : Nat → UInt8) (gAdcInit : Table adcDevChannelSum UInt8) (i : Nat) :
    Table adcDevChannelSum UInt8 :=
  let channel := (chList i).toNat
  if channel < adcDevChannelSum then gAdcInit.write channel 1 else gAdcInit

/-- `tkl_adc_init`: the return value, the entries of `ch_list` that it reads, and the state. -/
def tklAdcInit (s : AdcState) (portNum : UInt8) (cfg : AdcBaseCfg) :
    OperateRet × List Nat × AdcState :=
  if portNum.toNat > adcDevNum - 1 ∨ cfg.chNums.toNat > adcDevChannelSum then
    (oprtInvalidParm, [], s)
  else
    match cfg.chList with
    | none => (oprtInvalidParm, [], s)
    | some chList =>
      let s := { s with gAdcInit := s.gAdcInit.fill 0, adcDesc := {} }
      match adcConfigMode cfg.mode with
      | none => (oprtInvalidParm, [], s)
      | some mode =>
        let adcDesc := { s.adcDesc with
          mode, dataBuffSize := cfg.convCnt.toUInt8, preDiv := 8, sampRate := 0x20
          pIntHandler := saradcDisable }
        let reads := List.range adcDevChannelSum
        let gAdcInit := reads.foldl (adcInitChannel chList) s.gAdcInit
        (oprtOk, reads, { adcDesc, gAdcInit, adcChNums := cfg.chNums })

/-- `tkl_adc_read_single_channel`, up to the data that it returns. -/
def tklAdcReadSingleChannel (io : AdcIo) (s : AdcState) (portNum chId : UInt8)
    (data : UInt32) : OperateRet × AdcState :=
  if portNum.toNat > adcDevNum - 1 ∨ chId.toNat > adcDevChannelSum then (oprtInvalidParm, s)
  else
    let (isInit, gAdcInit) := s.gAdcInit.read chId.toNat
    let s := { s with gAdcInit }
    if isInit = 0 then (oprtOsAdapterComError, s)
    else
      let adcDesc := { s.adcDesc with hasData := 0, channel := chId + 1, pData := data }
      if data = 0 then (oprtMallocFailed, { s with adcDesc })
      else
        let adcDesc := { adcDesc with currentSampleDataCnt := 0, currentReadDataCnt := 0 }
        let s := { s with adcDesc := io.driver adcDesc }
        if io.opened then (oprtOk, s) else (oprtComError, s)

/-- The body of the loop of `tkl_adc_read_data`. -/
def adcReadChannel (io : AdcIo) (portNum : UInt8) (buff : UInt32) (r : OperateRet × Nat × AdcState)
    (i : Nat) : OperateRet × Nat × AdcState :=
  let (ret, j, s) := r
  let (isInit, gAdcInit) := s.gAdcInit.read i
  let s := { s with gAdcInit }
  if isInit ≠ 0 then
    -- `&buff[j*adc_desc.data_buff_size]`, four bytes each
    let data := buff + 4 * (UInt32.ofNat j * s.adcDesc.dataBuffSize.toUInt32)
    let (ret, s) := tklAdcReadSingleChannel io s portNum (UInt8.ofNat i) data
    (ret, j + 1, s)
  else (ret, j, s)

/-- `tkl_adc_read_data`, up to the data that it returns. -/
def tklAdcReadData (io : AdcIo) (s : AdcState) (portNum : UInt8) (buff : UInt32) (len : UInt16) :
    OperateRet × AdcState :=
  if portNum.toNat > adcDevNum - 1 then (oprtInvalidParm, s)
  else
    let ret := if s.adcChNums.toNat * s.adcDesc.dataBuffSize.toNat > len.toNat then oprtComError
      else oprtOk
    let r := (List.range adcDevChannelSum).foldl (adcReadChannel io portNum buff) (ret, 0, s)
    (r.1, r.2.2)

end ArduinoT2.Adapter
