import ArduinoT2.Driver.AdcChannels
import ArduinoT2.Driver.AdcRead

/-
  The conversion of `tkl_adc_read_single_channel` (tkl_adc.c): a read behind `tkl_adc_init`, from
  the check of its parameters over the samples of the driver to the results.

  `tkl_adc_init` cuts `conv_cnt` to the 8 bits of `data_buff_size`, and the loop over the samples
  counts down in a `signed char`. `adc_convert_iff`: all samples are converted in place exactly if
  `conv_cnt` is at most 128. From 129 to 255 the loop does not run at all, a multiple of 256 is
  refused by the driver, and of other counts only the remainder is converted.
-/

namespace ArduinoT2.Driver

open ArduinoT2.Adapter ArduinoT2.Vendor

/-! ## A read -/

/-- The device is closed and free. -/
structure AdcReady (s : Saradc) : Prop where
  state : s.dev.state = .closed
  isBusy : s.isBusy = 0

/-- From `s₁` the driver has stored these samples at the front of the buffer and is done. -/
structure SamplesStored (s₁ s₂ : Saradc) (data : UInt32) (n : Nat) (samples : Nat → UInt16) :
    Prop where
  dev : s₂.dev = s₁.dev
  dataBuffSize : s₂.desc.dataBuffSize = s₁.desc.dataBuffSize
  pData : s₂.desc.pData = s₁.desc.pData
  allDone : s₂.desc.allDone ≠ 0
  stored : ∀ i < n, s₂.mem (halfword data i) = samples i

/-- A read of a channel, behind an init with this `conv_cnt`, waits for its samples, and when they
    are there it returns `OPRT_OK` with all of them converted. -/
def ConvertsAll (adcMv : UInt16 → UInt16) (convCnt : UInt16) : Prop :=
  ∀ (a : AdcState) (cfg : AdcBaseCfg), cfg.convCnt = convCnt → (tklAdcInit a 0 cfg).1 = oprtOk →
    ∀ s : Saradc, AdcReady s →
      s.desc.dataBuffSize = (tklAdcInit a 0 cfg).2.2.adcDesc.dataBuffSize →
    ∀ (chId : UInt8) (data : UInt32), chId.toNat < adcDevChannelSum →
      (tklAdcInit a 0 cfg).2.2.gAdcInit.entry chId.toNat ≠ 0 → data ≠ 0 →
    ∃ f s₁ t,
      adcReadSingleChannel adcMv s (tklAdcInit a 0 cfg).2.2.gAdcInit 0 chId data =
        (.delayed f, s₁, t) ∧
      ∀ s₂ samples, SamplesStored s₁ s₂ data convCnt.toNat samples →
        (adcReadWait adcMv s₂ f).1 = .returned oprtOk ∧ ∀ i < convCnt.toNat,
          HoldsData (adcReadWait adcMv s₂ f).2.mem data i (adcResult adcMv (samples i))

/-! ## Its parts -/

/-- `tkl_adc_init` cuts `conv_cnt` to 8 bits. -/
theorem init_dataBuffSize {a : AdcState} {portNum : UInt8} {cfg : AdcBaseCfg}
    (h : (tklAdcInit a portNum cfg).1 = oprtOk) :
    (tklAdcInit a portNum cfg).2.2.adcDesc.dataBuffSize = cfg.convCnt.toUInt8 := by
  unfold tklAdcInit at h ⊢
  split at h
  · exact absurd h invalidParm_ne_ok
  rename_i hpass
  rw [if_neg hpass]
  split at h
  · exact absurd h invalidParm_ne_ok
  split at h
  · exact absurd h invalidParm_ne_ok
  · simp only

theorem saradcFailure_ne : saradcFailure ≠ saradcSuccess := by decide

theorem saradcOpen_ready {s : Saradc} (hbusy : s.isBusy = 0) (hdata : s.desc.pData ≠ 0)
    (hchannel : s.desc.channel.toNat ≤ 12) (hsize : s.desc.dataBuffSize ≠ 0) :
    (saradcOpen s).1 = saradcSuccess := by
  have hmax : ¬s.desc.channel > saradcAdcChnlMax :=
    UInt8.not_lt.mpr (UInt8.le_iff_toNat_le.mpr hchannel)
  unfold saradcOpen
  rw [if_neg hdata, if_neg hmax, if_neg hsize, if_neg (not_not.mpr hbusy)]

theorem saradcOpen_empty {s : Saradc} (hsize : s.desc.dataBuffSize = 0) :
    (saradcOpen s).1 = saradcFailure := by
  unfold saradcOpen
  rw [if_pos hsize]
  split_ifs
  · rfl
  · rfl
  · rfl

theorem channel_toNat {chId : UInt8} (h : chId.toNat < 6) : (chId + 1).toNat = chId.toNat + 1 := by
  rw [UInt8.toNat_add]
  exact Nat.mod_eq_of_lt (show chId.toNat + 1 < 2 ^ 8 by omega)

/-- A read that finds the device free waits. -/
theorem read_waits (adcMv : UInt16 → UInt16) {s : Saradc} (h : AdcReady s)
    {t : Table adcDevChannelSum UInt8} {chId : UInt8} (hchId : chId.toNat < 6)
    (hinit : t.entry chId.toNat ≠ 0) {data : UInt32} (hdata : data ≠ 0)
    (hsize : s.desc.dataBuffSize ≠ 0) :
    ∃ f s₁ t', adcReadSingleChannel adcMv s t 0 chId data = (.delayed f, s₁, t') ∧
      f = ⟨chId, data, 1⟩ ∧ s₁.dev = ⟨.opened, 1⟩ ∧ s₁.desc.pData = data ∧
      s₁.desc.dataBuffSize = s.desc.dataBuffSize := by
  have hstate := h.state
  have hport : ¬((0 : UInt8).toNat > adcDevNum - 1 ∨ chId.toNat > adcDevChannelSum) := by
    unfold adcDevNum adcDevChannelSum
    simp
    omega
  have hopen := saradcOpen_ready (s := { s with desc := adcDescReset s.desc chId data })
    h.isBusy hdata
    (by have := channel_toNat hchId; simp only [adcDescReset, adcDescFor]; omega) hsize
  unfold adcReadSingleChannel
  rw [if_neg hport]
  simp only [Table.read_fst]
  rw [if_neg hinit, if_neg hdata]
  unfold adcReadOpen
  rw [saradcDdevOpen_closed (s := { s with desc := adcDescReset s.desc chId data }) h.state]
  rcases saradcOpen_cases { s with desc := adcDescReset s.desc chId data } with hcase | hcase
  · rw [hcase] at hopen
    exact absurd hopen saradcFailure_ne
  · rw [hcase]
    refine ⟨_, _, _, rfl, rfl, ?_, rfl, rfl⟩
    simp only [ddevOpen, hstate]
    rfl

/-- The driver refuses a buffer of no place. -/
theorem read_refused (adcMv : UInt16 → UInt16) {s : Saradc} (h : AdcReady s)
    (t : Table adcDevChannelSum UInt8) (chId : UInt8) (data : UInt32)
    (hsize : s.desc.dataBuffSize = 0) (f : ReadFrame) :
    (adcReadSingleChannel adcMv s t 0 chId data).1 ≠ .delayed f := by
  have hopen := saradcOpen_empty (s := { s with desc := adcDescReset s.desc chId data }) hsize
  have hddev : (saradcDdevOpen { s with desc := adcDescReset s.desc chId data }).1 =
      saradcFailure := by
    rw [saradcDdevOpen_closed (s := { s with desc := adcDescReset s.desc chId data }) h.state]
    exact hopen
  unfold adcReadSingleChannel
  split
  · exact (fun heq => nomatch heq)
  simp only
  split
  · exact (fun heq => nomatch heq)
  split
  · exact (fun heq => nomatch heq)
  unfold adcReadOpen
  simp only
  rw [hddev, if_pos (Or.inr saradcFailure_ne)]
  exact (fun heq => nomatch heq)

/-- A read whose samples are there ends with the loop over them, which does not run if
    `data_buff_size` is more than 128. -/
theorem read_finishes (adcMv : UInt16 → UInt16) {s : Saradc} {f : ReadFrame}
    (hdev : s.dev = ⟨.opened, 1⟩) (hdone : s.desc.allDone ≠ 0) (hsize : s.desc.dataBuffSize ≠ 0) :
    (adcReadWait adcMv s f).1 = .returned oprtOk ∧ (adcReadWait adcMv s f).2.mem =
      if s.desc.dataBuffSize.toNat ≤ 128 then
        adcConvertLoop adcMv s.desc.pData f.data s.desc.dataBuffSize.toNat s.mem
      else s.mem := by
  have hpos : (1 : UInt8) ≤ s.desc.dataBuffSize := by
    rw [UInt8.le_iff_toNat_le]
    have : s.desc.dataBuffSize.toNat ≠ 0 := fun h0 => hsize (UInt8.toNat_inj.mp h0)
    show 1 ≤ _
    omega
  have hlast : (s.desc.dataBuffSize - 1).toNat = s.desc.dataBuffSize.toNat - 1 :=
    UInt8.toNat_sub_of_le _ _ hpos
  have hpos' := UInt8.le_iff_toNat_le.mp hpos
  have hclose : ∃ s', saradcEnsureClose (saradcDdevClose s) = s' ∧ s'.desc = s.desc ∧
      s'.mem = s.mem := by
    refine ⟨_, rfl, ?_⟩
    rw [saradcDdevClose_last hdev]
    unfold saradcEnsureClose
    split
    · exact ⟨rfl, rfl⟩
    · exact ⟨rfl, rfl⟩
  obtain ⟨s', hs', hdesc, hmem⟩ := hclose
  have hloop : s.desc.dataBuffSize - 1 < 128 ↔ s.desc.dataBuffSize.toNat ≤ 128 := by
    rw [UInt8.lt_iff_toNat_lt, hlast]
    show s.desc.dataBuffSize.toNat - 1 < 128 ↔ _
    have : 1 ≤ s.desc.dataBuffSize.toNat := hpos'
    omega
  unfold adcReadWait
  rw [if_neg hdone]
  refine ⟨rfl, ?_⟩
  unfold adcReadFinish
  simp only [hs', hdesc, hmem, hloop, hlast]
  have : 1 ≤ s.desc.dataBuffSize.toNat := hpos'
  rw [show s.desc.dataBuffSize.toNat - 1 + 1 = s.desc.dataBuffSize.toNat by omega]
  split
  · rfl
  · exact hmem

/-! ## All samples -/

theorem convCnt_cut (n : UInt16) : n.toUInt8.toNat = n.toNat % 256 := UInt16.toNat_toUInt8 n

theorem convertsAll_of_le (adcMv : UInt16 → UInt16) {n : UInt16} (hpos : 0 < n) (hn : n ≤ 128) :
    ConvertsAll adcMv n := by
  intro a cfg hcnt hret s hready hsize chId data hchId hinit hdata
  have hpos' : 0 < n.toNat := UInt16.lt_iff_toNat_lt.mp hpos
  have hn' : n.toNat ≤ 128 := UInt16.le_iff_toNat_le.mp hn
  have hcut : s.desc.dataBuffSize.toNat = n.toNat := by
    rw [hsize, init_dataBuffSize hret, hcnt, convCnt_cut]
    omega
  have hne : s.desc.dataBuffSize ≠ 0 := by
    intro h0
    rw [h0] at hcut
    exact absurd hcut (Nat.ne_of_lt hpos')
  obtain ⟨f, s₁, t, hread, rfl, hdev, hpData, hkeep⟩ :=
    read_waits adcMv hready hchId hinit hdata hne
  refine ⟨_, s₁, t, hread, fun s₂ samples hst => ?_⟩
  have hsize₂ : s₂.desc.dataBuffSize = s.desc.dataBuffSize := hst.dataBuffSize.trans hkeep
  obtain ⟨hok, hmem⟩ := read_finishes adcMv (f := ⟨chId, data, 1⟩) (hst.dev.trans hdev) hst.allDone
    (hsize₂ ▸ hne)
  refine ⟨hok, fun i hi => ?_⟩
  rw [hmem, hsize₂, hcut, if_pos hn', hst.pData, hpData, ← hst.stored i hi]
  exact adcConvertLoop_holds adcMv data s₂.mem (by omega) hi

/-- One channel, with this count. -/
def oneChannel (convCnt : UInt16) : AdcBaseCfg where
  chList := some fun _ => 0
  chNums := 1
  mode := .single
  convCnt

/-- Where all half-words are 1, the upper one of a result that is not converted is not 0. -/
theorem not_holdsData_ones {mem : UInt32 → UInt16} {data : UInt32} {i : Nat} {v : UInt16}
    (h : mem (halfword data (2 * i + 1)) = 1) : ¬HoldsData mem data i v := by
  rintro ⟨-, hhigh⟩
  rw [h] at hhigh
  exact absurd hhigh (by decide)

theorem not_convertsAll (adcMv : UInt16 → UInt16) {n : UInt16} (hn : 128 < n) :
    ¬ConvertsAll adcMv n := by
  intro hall
  have hn' : 128 < n.toNat := UInt16.lt_iff_toNat_lt.mp hn
  have hlt := n.toNat_lt
  have hret : (tklAdcInit .static 0 (oneChannel n)).1 = oprtOk := rfl
  have hinit : (tklAdcInit .static 0 (oneChannel n)).2.2.gAdcInit.entry 0 ≠ 0 := by
    show (1 : UInt8) ≠ 0
    decide
  -- the device as the init leaves it, with 1 in all half-words
  let s : Saradc := {
    desc := (tklAdcInit .static 0 (oneChannel n)).2.2.adcDesc, dev := ⟨.closed, 0⟩, isBusy := 0
    chnlEn := false, chnl := 0, fifo := [], intEnable := false, mem := fun _ => 1 }
  have hready : AdcReady s := ⟨rfl, rfl⟩
  have hcut : s.desc.dataBuffSize.toNat = n.toNat % 256 :=
    (congrArg UInt8.toNat (init_dataBuffSize hret)).trans (convCnt_cut n)
  have hone : (0x1000 : UInt32) ≠ 0 := by decide
  have hdoneOne : (1 : UInt8) ≠ 0 := by decide
  obtain ⟨f, s₁, t, hread, hdone⟩ :=
    hall .static (oneChannel n) rfl hret s hready rfl 0 0x1000 (by decide) hinit hone
  by_cases hzero : s.desc.dataBuffSize = 0
  · exact read_refused adcMv hready _ 0 0x1000 hzero f (congrArg Prod.fst hread)
  obtain ⟨f', s₁', t', hread', rfl, hdev, hpData, hkeep⟩ :=
    read_waits adcMv hready (show (0 : UInt8).toNat < 6 by decide) hinit hone hzero
  rw [hread] at hread'
  obtain ⟨hf, rfl, -⟩ : ReadOut.delayed f = .delayed ⟨0, 0x1000, 1⟩ ∧ s₁ = s₁' ∧ t = t' := by
    simpa using hread'
  obtain rfl : f = ⟨0, 0x1000, 1⟩ := ReadOut.delayed.inj hf
  -- the driver is done, and all samples are 1
  let s₂ : Saradc := { s₁ with desc := { s₁.desc with allDone := 1 }, mem := fun _ => 1 }
  have hst : SamplesStored s₁ s₂ 0x1000 n.toNat fun _ => 1 :=
    ⟨rfl, rfl, rfl, hdoneOne, fun _ _ => rfl⟩
  obtain ⟨-, hmem⟩ := read_finishes adcMv (s := s₂) (f := ⟨0, 0x1000, 1⟩) hdev hdoneOne
    (hkeep ▸ hzero)
  have hsize₂ : s₂.desc.dataBuffSize.toNat = n.toNat % 256 :=
    (congrArg UInt8.toNat hkeep).trans hcut
  obtain ⟨-, hresults⟩ := hdone s₂ _ hst
  rw [hmem, hsize₂] at hresults
  by_cases hle : n.toNat % 256 ≤ 128
  · rw [if_pos hle] at hresults
    -- the first place behind those that are converted
    refine not_holdsData_ones ?_ (hresults (n.toNat % 256) (by omega))
    have hp : s₂.desc.pData = 0x1000 := hpData
    rw [hp]
    exact adcConvertLoop_frame adcMv _ _ _ (by omega) (by omega) (by omega)
  · rw [if_neg hle] at hresults
    exact not_holdsData_ones rfl (hresults 0 (by omega))

/-- For every conversion of a sample and every `conv_cnt` that is not 0: reads behind an init with
    it convert all samples in place if and only if it is at most 128. -/
theorem adc_convert_iff (adcMv : UInt16 → UInt16) {convCnt : UInt16} (hpos : 0 < convCnt) :
    ConvertsAll adcMv convCnt ↔ convCnt ≤ 128 := by
  constructor
  · intro hall
    by_contra hle
    exact not_convertsAll adcMv (UInt16.not_le.mp hle) hall
  · exact convertsAll_of_le adcMv hpos

theorem adc_convert_ten : ConvertsAll id 10 := (adc_convert_iff id (by decide)).mpr (by decide)

/-- 129 conversions: the counter of the loop begins below 0. -/
theorem adc_convert_none : ¬ConvertsAll id 129 := not_convertsAll id (by decide)

end ArduinoT2.Driver
