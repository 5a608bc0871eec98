import ArduinoT2.Adapter.TklAdcRead

/-
  The bulk reads of the ADC with their data (`tkl_adc_read_data` and `tkl_adc_read_voltage` of
  tkl_adc.c), by one task.

  A read of a channel is that of `TklAdc.lean`, with the samples that the driver has stored when
  the wait loop ends, and the loop over them. Memory is half-words, and `writes` records which of
  them are written. Nobody else uses the device between the reads, but an open may fail.
-/

namespace ArduinoT2.Adapter

open ArduinoT2.Vendor

/-! ## One channel -/

/-- What the driver does with the read of a channel: whether the device is opened, whether
    `all_done` is set when the wait loop ends, and which samples are stored by then. -/
structure ChannelRead where
  opened : Bool
  allDone : Bool
  samples : List UInt16

/-- The driver leaves the buffer and its size in the descriptor. -/
def ChannelRead.io (r : ChannelRead) : AdcIo where
  opened := r.opened
  driver := fun desc => { desc with
    allDone := if r.allDone then 1 else 0
    currentSampleDataCnt := UInt8.ofNat r.samples.length }

/-- Memory, with the half-words that have been written. -/
structure AdcMem where
  mem : UInt32 → UInt16
  writes : List UInt32

/-- The samples go to the half-words from `data[i]` on. -/
def storeSamples (data : UInt32) : Nat → List UInt16 → (UInt32 → UInt16) → UInt32 → UInt16
  | _, [], mem => mem
  | i, v :: vs, mem => storeSamples data (i + 1) vs (Function.update mem (halfword data i) v)

/-- The first `n` half-words from `data` on. -/
def halfwords (data : UInt32) (n : Nat) : List UInt32 := (List.range n).map (halfword data)

section Read

variable (adcMv : UInt16 → UInt16)

/-- The samples of the driver, and the loop over them, whether all are there or not. -/
def readFinish (size : UInt8) (data : UInt32) (samples : List UInt16) (m : AdcMem) : AdcMem :=
  let mem := storeSamples data 0 samples m.mem
  let writes := m.writes ++ halfwords data samples.length
  let i := size - 1
  if i < 128 then
    { mem := adcConvertLoop adcMv data data (i.toNat + 1) mem
      writes := writes ++ halfwords data (2 * (i.toNat + 1)) }
  else { mem, writes }

/-- `tkl_adc_read_single_channel`. -/
def adcReadSingleData (r : ChannelRead) (s : AdcState) (portNum chId : UInt8)
    (data : UInt32) (m : AdcMem) : OperateRet × AdcState × AdcMem :=
  let (ret, s) := tklAdcReadSingleChannel r.io s portNum chId data
  if ret = oprtOk then (ret, s, readFinish adcMv s.adcDesc.dataBuffSize data r.samples m)
  else (ret, s, m)

/-! ## All channels -/

/-- The locals of `tkl_adc_read_data`, the state and memory. -/
structure BulkLoop where
  ret : OperateRet
  j : Nat
  s : AdcState
  m : AdcMem

/-- The body of the loop of `tkl_adc_read_data`. -/
def bulkReadChannel (reads : Nat → ChannelRead) (portNum : UInt8) (buff : UInt32) (b : BulkLoop)
    (i : Nat) : BulkLoop :=
  let (isInit, gAdcInit) := b.s.gAdcInit.read i
  let s := { b.s with gAdcInit }
  if isInit ≠ 0 then
    -- `&buff[j*adc_desc.data_buff_size]`, four bytes each
    let data := buff + 4 * (UInt32.ofNat b.j * s.adcDesc.dataBuffSize.toUInt32)
    let (ret, s, m) := adcReadSingleData adcMv (reads i) s portNum (UInt8.ofNat i) data b.m
    ⟨ret, b.j + 1, s, m⟩
  else { b with s }

/-- `tkl_adc_read_data`. What the check of the length finds is overwritten by the first read. -/
def tklAdcReadDataMem (reads : Nat → ChannelRead) (s : AdcState) (portNum : UInt8) (buff : UInt32)
    (len : UInt16) (m : AdcMem) : OperateRet × AdcState × AdcMem :=
  if portNum.toNat > adcDevNum - 1 then (oprtInvalidParm, s, m)
  else
    let ret := if s.adcChNums.toNat * s.adcDesc.dataBuffSize.toNat > len.toNat then oprtComError
      else oprtOk
    let b := (List.range adcDevChannelSum).foldl (bulkReadChannel adcMv reads portNum buff)
      ⟨ret, 0, s, m⟩
    (b.ret, b.s, b.m)

/-- `buff[i]`, low half-word first. -/
def wordAt (mem : UInt32 → UInt16) (buff : UInt32) (i : Nat) : UInt32 :=
  UInt32.ofNat ((mem (halfword buff (2 * i))).toNat +
    65536 * (mem (halfword buff (2 * i + 1))).toNat)

/-- `(buff[i] * ref) / 4096`, unsigned as `ref` is. -/
def voltageOf (v : UInt32) : UInt32 := v * 2400 / 4096

/-- `buff[i] = v`. -/
def writeWord (mem : UInt32 → UInt16) (buff : UInt32) (i : Nat) (v : UInt32) : UInt32 → UInt16 :=
  Function.update (Function.update mem (halfword buff (2 * i)) (UInt16.ofNat v.toNat))
    (halfword buff (2 * i + 1)) (UInt16.ofNat (v.toNat / 65536))

/-- The loop of `tkl_adc_read_voltage`, over the first `n` elements. -/
def voltageLoop (buff : UInt32) (n : Nat) (mem : UInt32 → UInt16) : UInt32 → UInt16 :=
  (List.range n).foldl (fun mem i => writeWord mem buff i (voltageOf (wordAt mem buff i))) mem

/-- `tkl_adc_read_voltage`. -/
def tklAdcReadVoltage (reads : Nat → ChannelRead) (s : AdcState) (portNum : UInt8) (buff : UInt32)
    (len : UInt16) (m : AdcMem) : OperateRet × AdcState × AdcMem :=
  let (ret, s, m) := tklAdcReadDataMem adcMv reads s portNum buff len m
  if ret = oprtOk then
    (ret, s, { mem := voltageLoop buff len.toNat m.mem
               writes := m.writes ++ halfwords buff (2 * len.toNat) })
  else (ret, s, m)

/-! ## Without the data -/

theorem adcReadSingleData_state (r : ChannelRead) (s : AdcState) (portNum chId : UInt8)
    (data : UInt32) (m : AdcMem) :
    ((adcReadSingleData adcMv r s portNum chId data m).1,
      (adcReadSingleData adcMv r s portNum chId data m).2.1) =
        tklAdcReadSingleChannel r.io s portNum chId data := by
  unfold adcReadSingleData
  simp only
  split
  · rfl
  · rfl

/-- If the driver does the same with all channels, the call without its data is that of
    `TklAdc.lean`. -/
theorem readDataMem_state (r : ChannelRead) (s : AdcState) (portNum : UInt8) (buff : UInt32)
    (len : UInt16) (m : AdcMem) : ((tklAdcReadDataMem adcMv (fun _ => r) s portNum buff len m).1,
      (tklAdcReadDataMem adcMv (fun _ => r) s portNum buff len m).2.1) =
        tklAdcReadData r.io s portNum buff len := by
  have hloop : ∀ (is : List Nat) (b : BulkLoop),
      let b' := is.foldl (bulkReadChannel adcMv (fun _ => r) portNum buff) b
      (b'.ret, b'.j, b'.s) = is.foldl (adcReadChannel r.io portNum buff) (b.ret, b.j, b.s) := by
    intro is
    induction is with
    | nil => exact fun _ => rfl
    | cons i is ih =>
      intro b
      rw [List.foldl_cons, List.foldl_cons]
      have hstep : adcReadChannel r.io portNum buff (b.ret, b.j, b.s) i =
          ((bulkReadChannel adcMv (fun _ => r) portNum buff b i).ret,
            (bulkReadChannel adcMv (fun _ => r) portNum buff b i).j,
            (bulkReadChannel adcMv (fun _ => r) portNum buff b i).s) := by
        unfold adcReadChannel bulkReadChannel
        simp only
        split
        · rw [← adcReadSingleData_state adcMv r _ portNum (UInt8.ofNat i) _ b.m]
        · rfl
      rw [hstep]
      exact ih _
  unfold tklAdcReadDataMem tklAdcReadData
  split
  · rfl
  · have h := hloop (List.range adcDevChannelSum) ⟨if s.adcChNums.toNat *
      s.adcDesc.dataBuffSize.toNat > len.toNat then oprtComError else oprtOk, 0, s, m⟩
    simp only at h ⊢
    rw [← h]

end Read

end ArduinoT2.Adapter
