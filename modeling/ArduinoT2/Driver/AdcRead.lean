import ArduinoT2.Adapter.TklAdcRead
import ArduinoT2.Lib.StepSys
import Mathlib.Algebra.Group.Nat.Defs
import Mathlib.Data.List.Basic

/-
  Reads of the ADC by several tasks (tkl_adc.c and saradc.c).

  All calls share `adc_desc`, and a call rewrites it before it knows whether the device is free:
  if another call waits, its samples go to the buffer of the call that has just failed.
  `adc_reads_unmixed` says which steps keep the calls apart: the call finds the device closed or
  writes what `adc_desc` already holds, a wait does not run out, and the buffer has at most 128
  places (the loop over the samples counts down in a `signed char`).
-/

namespace ArduinoT2.Driver

open StepSys ArduinoT2.Adapter ArduinoT2.Vendor

universe u

/-! ## What the calls deliver -/

/-- The tasks, with what the channels have measured at the samples since the last call of each
    task has begun. -/
structure ReadRun (T : Type u) where
  tasks : AdcTasks T
  levels : T → List (UInt8 → UInt16)

section Reads

variable {T : Type u} [DecidableEq T] (adcMv : UInt16 → UInt16)

/-- The device is closed and no call waits. -/
def ReadRun.start (desc : SaradcDesc) (gAdcInit : Table adcDevChannelSum UInt8)
    (mem : UInt32 → UInt16) : ReadRun T where
  tasks := {
    saradc := {
      desc, mem, dev := ⟨.closed, 0⟩, isBusy := 0, chnlEn := false, chnl := 0, fifo := []
      intEnable := false }
    gAdcInit
    frames := fun _ => none }
  levels := fun _ => []

/-- What has been measured since the last call of each task, with this step. -/
def levelsAfter (r : ReadRun T) : AdcInput T → T → List (UInt8 → UInt16)
  | .call t _ _ _ =>
    if r.tasks.frames t = none then Function.update r.levels t [] else r.levels
  | .convert levels => fun t => r.levels t ++ [levels]
  | _ => r.levels

/-- One step. -/
def readStep (r : ReadRun T) (i : AdcInput T) : ReadRun T × AdcOutput :=
  (⟨(adcTaskStep adcMv r.tasks i).1, levelsAfter r i⟩, (adcTaskStep adcMv r.tasks i).2)

/-- `data[k]` is `v`. -/
def HoldsData (mem : UInt32 → UInt16) (data : UInt32) (k : Nat) (v : UInt16) : Prop :=
  mem (halfword data (2 * k)) = v ∧ mem (halfword data (2 * k + 1)) = 0

/-- The buffer of the call holds `adc_desc.data_buff_size` results, and they are those of samples
    taken on the channel of the call while it waited. -/
def Delivered (mem : UInt32 → UInt16) (size : UInt8) (f : ReadFrame)
    (levels : List (UInt8 → UInt16)) : Prop :=
  ∃ values : List UInt16, values.Sublist (levels.map (· (f.chId + 1))) ∧
    values.length = size.toNat ∧
    ∀ k (hk : k < values.length), HoldsData mem f.data k (adcResult adcMv values[k])

/-- The calls do not mix in the step: one that returns `OPRT_OK` has delivered its samples, one
    that returns while another waits leaves the conversion as it is, and the interrupt stores
    to the buffer of a call that waits. -/
def Unmixed (r : ReadRun T) (i : AdcInput T) : Prop :=
  let s := r.tasks
  let s' := (readStep adcMv r i).1.tasks
  let out := (readStep adcMv r i).2
  match i with
  | .call _ _ _ _ => out ≠ .read (.returned oprtOk) ∧
    ∀ ret, out = .read (.returned ret) → (∃ t, s.frames t ≠ none) →
      s'.saradc = s.saradc ∧ s'.frames = s.frames
  | .resume t => ∀ f, s.frames t = some f → out = .read (.returned oprtOk) →
    Delivered adcMv s'.saradc.mem s.saradc.desc.dataBuffSize f (r.levels t)
  | .convert _ => True
  | .isr => ∀ addrs, out = .stored addrs → ∀ a ∈ addrs, ∃ t f k,
    s.frames t = some f ∧ k < s.saradc.desc.dataBuffSize.toNat ∧ a = halfword f.data k

/-- A call finds the device closed or writes to `adc_desc` what is there, a wait does not run
    out, and the samples are at most 128. -/
def Meets (r : ReadRun T) (i : AdcInput T) : Prop :=
  let desc := r.tasks.saradc.desc
  match i with
  | .call t portNum chId data => r.tasks.frames t = none → portNum.toNat ≤ adcDevNum - 1 →
    chId.toNat ≤ adcDevChannelSum → r.tasks.gAdcInit.entry chId.toNat ≠ 0 →
    r.tasks.saradc.dev.state = .opened → adcDescReset desc chId data = desc
  | .resume t => ∀ f, r.tasks.frames t = some f →
    if desc.allDone = 0 then f.i < 100 else desc.dataBuffSize ≤ 128
  | _ => True

end Reads

/-! ## Memory -/

theorem halfword_ne {base : UInt32} {i j : Nat} (hi : i < 2 ^ 31) (hj : j < 2 ^ 31) (h : i ≠ j) :
    halfword base i ≠ halfword base j := by
  intro heq
  have hoffset : 2 * UInt32.ofNat i = 2 * UInt32.ofNat j := (UInt32.add_right_inj base).mp heq
  have htwo : ∀ n < 2 ^ 31, (2 * UInt32.ofNat n).toNat = 2 * n := by
    intro n hn
    have hsize : UInt32.size = 2 ^ 32 := rfl
    rw [UInt32.toNat_mul, UInt32.toNat_ofNat_of_lt' (by omega)]
    exact Nat.mod_eq_of_lt (show 2 * n < 2 ^ 32 by omega)
  have hnat := congrArg UInt32.toNat hoffset
  rw [htwo i hi, htwo j hj] at hnat
  omega

/-- `data[i] = v` writes the half-words `2 * i` and `2 * i + 1` only. -/
theorem writeData_of_ne (mem : UInt32 → UInt16) (data : UInt32) (v : UInt16) {i j : Nat}
    (hi : i < 2 ^ 16) (hj : j < 2 ^ 31) (hne : j ≠ 2 * i) (hne' : j ≠ 2 * i + 1) :
    writeData mem data i v (halfword data j) = mem (halfword data j) := by
  unfold writeData
  rw [Function.update_of_ne (halfword_ne hj (by omega) hne'),
    Function.update_of_ne (halfword_ne hj (by omega) hne)]

theorem writeData_holds (mem : UInt32 → UInt16) (data : UInt32) (v : UInt16) {i : Nat}
    (hi : i < 2 ^ 16) : HoldsData (writeData mem data i v) data i v := by
  unfold writeData
  constructor
  · have hne := Nat.ne_of_lt (Nat.lt_succ_self (2 * i))
    rw [Function.update_of_ne (halfword_ne (by omega) (by omega) hne), Function.update_self]
  · exact Function.update_self ..

/-- The loop over the samples writes to the first `n` places of the buffer only. -/
theorem adcConvertLoop_frame (adcMv : UInt16 → UInt16) (pData data : UInt32) {n j : Nat}
    (mem : UInt32 → UInt16) (hn : n ≤ 2 ^ 16) (hj : j < 2 ^ 31) (hnj : 2 * n ≤ j) :
    adcConvertLoop adcMv pData data n mem (halfword data j) = mem (halfword data j) := by
  induction n generalizing mem with
  | zero => rfl
  | succ n ih =>
    rw [adcConvertLoop, ih _ (by omega) (by omega)]
    exact writeData_of_ne _ _ _ (by omega) hj (by omega) (by omega)

/-- The loop turns the samples at the front of the buffer into the results, in place. -/
theorem adcConvertLoop_holds (adcMv : UInt16 → UInt16) (data : UInt32) {n : Nat}
    (mem : UInt32 → UInt16) (hn : n ≤ 2 ^ 16) {k : Nat} (hk : k < n) :
    HoldsData (adcConvertLoop adcMv data data n mem) data k
      (adcResult adcMv (mem (halfword data k))) := by
  induction n generalizing mem with
  | zero => exact absurd hk (Nat.not_lt_zero k)
  | succ n ih =>
    rw [adcConvertLoop]
    rcases Nat.lt_succ_iff_lt_or_eq.mp hk with hlt | rfl
    · -- the sample `k` is still there: `data[n]` lies behind it
      have hdata := ih (writeData mem data n (adcResult adcMv (mem (halfword data n))))
        (by omega) hlt
      rwa [writeData_of_ne _ _ _ (by omega) (by omega) (by omega) (by omega)] at hdata
    · obtain ⟨hlow, hhigh⟩ := writeData_holds mem data (adcResult adcMv (mem (halfword data k)))
        (Nat.lt_of_succ_le hn)
      constructor
      · rw [adcConvertLoop_frame _ _ _ _ (by omega) (by omega) (Nat.le_refl _), hlow]
      · rw [adcConvertLoop_frame _ _ _ _ (by omega) (by omega) (Nat.le_succ _), hhigh]

/-! ## The conversion -/

/-- The call with the frame `f` has the device, and what has been sampled for it has been measured
    on its channel. -/
structure Reading (s : Saradc) (f : ReadFrame) (levels : List (UInt8 → UInt16)) : Prop where
  dev : s.dev = ⟨.opened, 1⟩
  pData : s.desc.pData = f.data
  data_ne : f.data ≠ 0
  chnl : s.chnl = f.chId + 1
  cnt : s.desc.currentSampleDataCnt ≤ s.desc.dataBuffSize
  done : s.desc.allDone ≠ 0 → s.desc.currentSampleDataCnt = s.desc.dataBuffSize
  taken : ((List.range s.desc.currentSampleDataCnt.toNat).map
    (fun k => s.mem (halfword f.data k)) ++ s.fifo).Sublist (levels.map (· (f.chId + 1)))

theorem Reading.convert {s : Saradc} {f : ReadFrame} {levels : List (UInt8 → UInt16)}
    (h : Reading s f levels) (level : UInt8 → UInt16) :
    Reading (saradcConvert s level) f (levels ++ [level]) := by
  unfold saradcConvert
  split
  · refine ⟨h.dev, h.pData, h.data_ne, h.chnl, h.cnt, h.done, ?_⟩
    simp only [h.chnl, List.map_append, List.map_singleton, ← List.append_assoc]
    exact h.taken.append (List.Sublist.refl _)
  · refine ⟨h.dev, h.pData, h.data_ne, h.chnl, h.cnt, h.done, ?_⟩
    rw [List.map_append]
    exact h.taken.trans (List.sublist_append_left _ _)

/-- Samples that wait in the FIFO may get lost. -/
theorem Reading.drop {s : Saradc} {f : ReadFrame} {levels : List (UInt8 → UInt16)}
    (h : Reading s f levels) {fifo : List UInt16} (hfifo : fifo.Sublist s.fifo) (chnlEn : Bool) :
    Reading { s with fifo, chnlEn } f levels :=
  ⟨h.dev, h.pData, h.data_ne, h.chnl, h.cnt, h.done,
    ((List.Sublist.refl _).append hfifo).trans h.taken⟩

/-- The next sample goes to the buffer of the call. -/
theorem Reading.store {s : Saradc} {f : ReadFrame} {levels : List (UInt8 → UInt16)}
    {dacVal : UInt16} {fifo : List UInt16} (h : Reading { s with fifo := dacVal :: fifo } f levels)
    (hlt : s.desc.currentSampleDataCnt < s.desc.dataBuffSize) :
    Reading { saradcStore s dacVal with fifo } f levels := by
  have hsize := s.desc.dataBuffSize.toNat_lt
  have hlt' := UInt8.lt_iff_toNat_lt.mp hlt
  have hcnt : (s.desc.currentSampleDataCnt + 1).toNat = s.desc.currentSampleDataCnt.toNat + 1 := by
    rw [UInt8.toNat_add]
    exact Nat.mod_eq_of_lt (show s.desc.currentSampleDataCnt.toNat + 1 < 2 ^ 8 by omega)
  have hle : s.desc.currentSampleDataCnt + 1 ≤ s.desc.dataBuffSize := by
    rw [UInt8.le_iff_toNat_le, hcnt]
    exact hlt'
  have hdone : s.desc.allDone ≠ 0 → s.desc.currentSampleDataCnt + 1 = s.desc.dataBuffSize :=
    fun hall => absurd hlt (by rw [h.done hall]; exact UInt8.lt_irrefl _)
  -- the samples that are stored already, the new one, and those that still wait
  have htaken : ((List.range (s.desc.currentSampleDataCnt + 1).toNat).map (fun k =>
      Function.update s.mem (halfword s.desc.pData s.desc.currentSampleDataCnt.toNat) dacVal
        (halfword f.data k)) ++ fifo).Sublist (levels.map (· (f.chId + 1))) := by
    have hpData : s.desc.pData = f.data := h.pData
    have hold : (List.range s.desc.currentSampleDataCnt.toNat).map (fun k =>
        Function.update s.mem (halfword f.data s.desc.currentSampleDataCnt.toNat) dacVal
          (halfword f.data k)) =
        (List.range s.desc.currentSampleDataCnt.toNat).map
          (fun k => s.mem (halfword f.data k)) := by
      refine List.map_congr_left fun k hk => ?_
      have hk' := List.mem_range.mp hk
      exact Function.update_of_ne (halfword_ne (by omega) (by omega) (Nat.ne_of_lt hk')) ..
    rw [hcnt, List.range_succ, List.map_append, List.map_singleton, hpData, Function.update_self,
      List.append_assoc, List.singleton_append, hold]
    exact h.taken
  unfold saradcStore
  simp only
  split
  · exact ⟨h.dev, h.pData, h.data_ne, h.chnl, hle, hdone, htaken⟩
  · exact ⟨h.dev, h.pData, h.data_ne, h.chnl, hle, hdone, htaken⟩

theorem saradcStore_desc (s : Saradc) (dacVal : UInt16) : (saradcStore s dacVal).desc =
    { s.desc with currentSampleDataCnt := s.desc.currentSampleDataCnt + 1, hasData := 1 } := by
  unfold saradcStore
  simp only
  split
  · rfl
  · rfl

/-- The interrupt stores samples to the buffer of the call and nowhere else. -/
theorem Reading.isrLoop {f : ReadFrame} {levels : List (UInt8 → UInt16)} (fifo : List UInt16) :
    ∀ {s : Saradc}, Reading { s with fifo } f levels →
      Reading (saradcIsrLoop s fifo).1 f levels ∧ ∀ a ∈ (saradcIsrLoop s fifo).2,
        ∃ k, k < s.desc.dataBuffSize.toNat ∧ a = halfword f.data k := by
  induction fifo with
  | nil => exact fun h => ⟨h, fun a ha => nomatch ha⟩
  | cons dacVal fifo ih =>
    intro s h
    rw [saradcIsrLoop]
    by_cases hlt : s.desc.currentSampleDataCnt < s.desc.dataBuffSize
    · have hstore := h.store hlt
      have haddr : ∃ k, k < s.desc.dataBuffSize.toNat ∧
          halfword s.desc.pData s.desc.currentSampleDataCnt.toNat = halfword f.data k :=
        ⟨_, UInt8.lt_iff_toNat_lt.mp hlt, congrArg (halfword · _) h.pData⟩
      rw [if_pos hlt]
      simp only
      split
      · refine ⟨hstore.drop (List.nil_sublist _) false, fun a ha => ?_⟩
        rw [List.mem_singleton.mp ha]
        exact haddr
      · obtain ⟨hrest, haddrs⟩ := ih hstore
        refine ⟨hrest, fun a ha => ?_⟩
        rcases List.mem_cons.mp ha with rfl | ha
        · exact haddr
        · have hk := haddrs a ha
          rwa [saradcStore_desc] at hk
    · rw [if_neg hlt]
      exact ⟨h.drop (List.sublist_cons_self _ _) s.chnlEn, fun a ha => nomatch ha⟩

theorem Reading.isr {s : Saradc} {f : ReadFrame} {levels : List (UInt8 → UInt16)}
    (h : Reading s f levels) : Reading (saradcIsr s).1 f levels ∧ ∀ a ∈ (saradcIsr s).2,
      ∃ k, k < s.desc.dataBuffSize.toNat ∧ a = halfword f.data k := by
  obtain ⟨hloop, haddrs⟩ := Reading.isrLoop s.fifo h
  unfold saradcIsr
  simp only
  split
  · rename_i hge
    refine ⟨?_, haddrs⟩
    unfold saradcIntHandler
    split
    · exact ⟨hloop.dev, hloop.pData, hloop.data_ne, hloop.chnl, hloop.cnt,
        fun _ => UInt8.le_antisymm hloop.cnt hge, hloop.taken⟩
    · exact ⟨hloop.dev, hloop.pData, hloop.data_ne, hloop.chnl, hloop.cnt,
        fun _ => UInt8.le_antisymm hloop.cnt hge, hloop.taken⟩
  · exact ⟨hloop, haddrs⟩

/-! ## Open and close -/

/-- No call has the device. -/
def Closed (s : Saradc) : Prop := s.dev.state = .closed ∧ s.intEnable = false

theorem saradcOpen_cases (s : Saradc) : saradcOpen s = (saradcFailure, s) ∨
    saradcOpen s = (saradcSuccess, { s with
      isBusy := 1, fifo := [], chnlEn := true, chnl := s.desc.channel &&& saradcAdcChnlMask
      intEnable := true
      desc := { s.desc with
        hasData := 0, allDone := 0, currentReadDataCnt := 0, currentSampleDataCnt := 0 } }) := by
  unfold saradcOpen
  split
  · exact Or.inl rfl
  split
  · exact Or.inl rfl
  split
  · exact Or.inl rfl
  split
  · exact Or.inl rfl
  · exact Or.inr rfl

theorem saradcDdevOpen_closed {s : Saradc} (h : s.dev.state = .closed) : saradcDdevOpen s =
    ((saradcOpen s).1, true,
      { (saradcOpen s).2 with dev := ddevOpen (saradcOpen s).2.dev }) := by
  unfold saradcDdevOpen
  rw [h]

/-- The last `ddev_close` closes the device. -/
theorem saradcDdevClose_last {s : Saradc} (h : s.dev = ⟨.opened, 1⟩) : saradcDdevClose s =
    saradcClose { s with dev := ⟨.closed, 0⟩ } := by
  unfold saradcDdevClose
  rw [h]
  rfl

theorem Reading.closes {s : Saradc} {f : ReadFrame} {levels : List (UInt8 → UInt16)}
    (h : Reading s f levels) : ∃ s', saradcEnsureClose (saradcDdevClose s) = s' ∧ Closed s' ∧
      s'.desc = s.desc ∧ s'.mem = s.mem := by
  refine ⟨_, rfl, ?_⟩
  rw [saradcDdevClose_last h.dev]
  unfold saradcEnsureClose
  split
  · exact ⟨⟨rfl, rfl⟩, rfl, rfl⟩
  · exact ⟨⟨rfl, rfl⟩, rfl, rfl⟩

/-- A call whose samples are all there delivers them and closes the device. -/
theorem Reading.finish (adcMv : UInt16 → UInt16) {s : Saradc} {f : ReadFrame}
    {levels : List (UInt8 → UInt16)} (h : Reading s f levels) (hall : s.desc.allDone ≠ 0)
    (hsize : s.desc.dataBuffSize ≤ 128) : Closed (adcReadFinish adcMv s f) ∧
      Delivered adcMv (adcReadFinish adcMv s f).mem s.desc.dataBuffSize f levels := by
  obtain ⟨s', hs', hclosed, hdesc, hmem⟩ := h.closes
  have hlength : ((List.range s.desc.currentSampleDataCnt.toNat).map
      (fun k => s.mem (halfword f.data k))).length = s.desc.dataBuffSize.toNat := by
    rw [List.length_map, List.length_range, h.done hall]
  have hvalues := (List.sublist_append_left _ _).trans h.taken
  have hsize' := UInt8.le_iff_toNat_le.mp hsize
  unfold adcReadFinish
  simp only [hs', hdesc, hmem, h.pData]
  split
  · rename_i hlt
    refine ⟨hclosed, _, hvalues, hlength, fun k hk => ?_⟩
    rw [List.getElem_map, List.getElem_range]
    refine adcConvertLoop_holds adcMv f.data s.mem ?_ ?_
    · have hlast := (s.desc.dataBuffSize - 1).toNat_lt
      omega
    · rw [hlength] at hk
      have hpos : (1 : UInt8) ≤ s.desc.dataBuffSize := UInt8.le_iff_toNat_le.mpr (by
        show 1 ≤ _
        omega)
      rw [UInt8.toNat_sub_of_le _ _ hpos]
      show k < s.desc.dataBuffSize.toNat - 1 + 1
      omega
  · rename_i hge
    -- only `data_buff_size` 0 is left, where there is nothing to deliver
    have hzero : s.desc.dataBuffSize.toNat = 0 := by
      by_contra hne
      have hpos : (1 : UInt8) ≤ s.desc.dataBuffSize := UInt8.le_iff_toNat_le.mpr (by
        show 1 ≤ _
        omega)
      refine hge ?_
      rw [UInt8.lt_iff_toNat_lt, UInt8.toNat_sub_of_le _ _ hpos]
      show s.desc.dataBuffSize.toNat - 1 < 128
      have : s.desc.dataBuffSize.toNat ≤ 128 := hsize'
      omega
    refine ⟨hclosed, _, hvalues, hlength, fun k hk => ?_⟩
    rw [hlength, hzero] at hk
    exact absurd hk (Nat.not_lt_zero k)

/-- A call that goes on to wait keeps the device, and one that returns has delivered its samples
    or has waited too long. -/
theorem Reading.wait (adcMv : UInt16 → UInt16) {s : Saradc} {f : ReadFrame}
    {levels : List (UInt8 → UInt16)} (h : Reading s f levels)
    (hmeets : if s.desc.allDone = 0 then f.i < 100 else s.desc.dataBuffSize ≤ 128) :
    (∃ f', adcReadWait adcMv s f = (.delayed f', s) ∧ Reading s f' levels) ∨
      (adcReadWait adcMv s f).1 = .returned oprtOk ∧ Closed (adcReadWait adcMv s f).2 ∧
        Delivered adcMv (adcReadWait adcMv s f).2.mem s.desc.dataBuffSize f levels := by
  unfold adcReadWait
  split
  · rename_i hall
    rw [if_pos hall] at hmeets
    simp only
    rw [if_neg (by omega)]
    exact Or.inl ⟨_, rfl, h.dev, h.pData, h.data_ne, h.chnl, h.cnt, h.done, h.taken⟩
  · rename_i hall
    rw [if_neg hall] at hmeets
    exact Or.inr ⟨rfl, h.finish adcMv hall hmeets⟩

/-! ## Calls -/

theorem channel_masked {chId : UInt8} (h : chId.toNat ≤ adcDevChannelSum) :
    (chId + 1) &&& saradcAdcChnlMask = chId + 1 := by
  have hall : ∀ n ≤ adcDevChannelSum,
      (UInt8.ofNat n + 1) &&& saradcAdcChnlMask = UInt8.ofNat n + 1 := by decide
  have hchId := hall _ h
  rwa [UInt8.ofNat_toNat] at hchId

/-- A call that finds the device closed returns an error and leaves it closed, or waits. -/
theorem adcReadOpen_closed (adcMv : UInt16 → UInt16) {s : Saradc} (hclosed : Closed s)
    {chId : UInt8} (hchId : chId.toNat ≤ adcDevChannelSum) {data : UInt32} (hdata : data ≠ 0) :
    (∃ s', adcReadOpen adcMv s chId data = (.returned oprtComError, s') ∧ Closed s') ∨
      ∃ f s', adcReadOpen adcMv s chId data = (.delayed f, s') ∧ Reading s' f [] := by
  have hstate := hclosed.1
  unfold adcReadOpen
  rw [saradcDdevOpen_closed (s := { s with desc := adcDescReset s.desc chId data }) hclosed.1]
  rcases saradcOpen_cases { s with desc := adcDescReset s.desc chId data } with hopen | hopen
  · rw [hopen]
    refine Or.inl ⟨_, rfl, ?_⟩
    simp only [saradcDdevClose, ddevOpen, hstate]
    exact ⟨rfl, rfl⟩
  · rw [hopen]
    refine Or.inr ⟨_, _, rfl, ?_⟩
    simp only [ddevOpen, hstate]
    exact ⟨rfl, rfl, hdata, channel_masked hchId, UInt8.zero_le, fun h => absurd rfl h,
      List.nil_sublist _⟩

/-- A call that finds the device open, and `adc_desc` as it would write it, changes nothing. -/
theorem adcReadOpen_opened (adcMv : UInt16 → UInt16) {s : Saradc} (hdev : s.dev = ⟨.opened, 1⟩)
    {chId : UInt8} {data : UInt32} (hdesc : adcDescReset s.desc chId data = s.desc) :
    adcReadOpen adcMv s chId data = (.returned oprtComError, s) := by
  obtain ⟨desc, dev, isBusy, chnlEn, chnl, fifo, intEnable, mem⟩ := s
  simp only at hdev hdesc
  subst hdev
  have hstatus : drvFailure ≠ saradcSuccess := by decide
  unfold adcReadOpen saradcDdevOpen
  simp only
  rw [if_pos (Or.inr hstatus), if_pos ⟨hstatus, trivial⟩, hdesc]
  -- the count goes from 1 to 2 and back
  have hdev : ddevClose (ddevOpen ⟨.opened, 1⟩) = ⟨.opened, 1⟩ := by decide
  unfold saradcDdevClose
  simp only [hdev]
  rw [if_neg (by decide)]

theorem read_closed (adcMv : UInt16 → UInt16) {s : Saradc} (hclosed : Closed s)
    (gAdcInit : Table adcDevChannelSum UInt8) (portNum chId : UInt8) (data : UInt32) :
    let r := adcReadSingleChannel adcMv s gAdcInit portNum chId data
    (∃ ret, r.1 = .returned ret ∧ ret ≠ oprtOk ∧ Closed r.2.1) ∨
      ∃ f, r.1 = .delayed f ∧ Reading r.2.1 f [] := by
  unfold adcReadSingleChannel
  split
  · exact Or.inl ⟨_, rfl, by decide, hclosed⟩
  rename_i hparm
  have hchId : chId.toNat ≤ adcDevChannelSum := by omega
  simp only
  split
  · exact Or.inl ⟨_, rfl, by decide, hclosed⟩
  split
  · exact Or.inl ⟨_, rfl, by decide, hclosed⟩
  rename_i hdata
  rcases adcReadOpen_closed adcMv hclosed hchId hdata with ⟨s', hs', hclosed'⟩ | ⟨f, s', hs', hread⟩
  · rw [hs']
    exact Or.inl ⟨_, rfl, by decide, hclosed'⟩
  · rw [hs']
    exact Or.inr ⟨f, rfl, hread⟩

/-- A call while another waits returns an error and changes nothing, if it meets the condition. -/
theorem read_opened (adcMv : UInt16 → UInt16) {s : Saradc} {f : ReadFrame}
    {levels : List (UInt8 → UInt16)} (h : Reading s f levels)
    {gAdcInit : Table adcDevChannelSum UInt8} {portNum chId : UInt8} {data : UInt32}
    (hmeets : portNum.toNat ≤ adcDevNum - 1 → chId.toNat ≤ adcDevChannelSum →
      gAdcInit.entry chId.toNat ≠ 0 → adcDescReset s.desc chId data = s.desc) :
    let r := adcReadSingleChannel adcMv s gAdcInit portNum chId data
    ∃ ret, r.1 = .returned ret ∧ ret ≠ oprtOk ∧ r.2.1 = s := by
  unfold adcReadSingleChannel
  split
  · exact ⟨_, rfl, by decide, rfl⟩
  rename_i hparm
  simp only
  split
  · exact ⟨_, rfl, by decide, rfl⟩
  rename_i hinit
  have hdesc := hmeets (by omega) (by omega) hinit
  split
  · -- `pData` is the buffer of the other call, which is not NULL
    rename_i hdata
    have hpData : data = s.desc.pData := congrArg SaradcDesc.pData hdesc
    exact absurd (hpData.symm.trans hdata) (h.pData ▸ h.data_ne)
  · rw [adcReadOpen_opened adcMv h.dev hdesc]
    exact ⟨_, rfl, by decide, rfl⟩

/-! ## Steps -/

section Steps

variable {T : Type u} [DecidableEq T] (adcMv : UInt16 → UInt16)

/-- The device is closed and no call waits, or it belongs to the only call that waits. -/
def Owned (r : ReadRun T) : Prop :=
  (Closed r.tasks.saradc ∧ ∀ t, r.tasks.frames t = none) ∨
    ∃ t f, r.tasks.frames t = some f ∧ (∀ t' ≠ t, r.tasks.frames t' = none) ∧
      Reading r.tasks.saradc f (r.levels t)

theorem adcTaskStep_call {s : AdcTasks T} {t : T} (h : s.frames t = none) (portNum : UInt8)
    (chId : UInt8) (data : UInt32) :
    let r := adcReadSingleChannel adcMv s.saradc s.gAdcInit portNum chId data
    adcTaskStep adcMv s (.call t portNum chId data) =
      (⟨r.2.1, r.2.2, Function.update s.frames t (frameOf r.1)⟩, .read r.1) := by
  simp only [adcTaskStep, h]

theorem adcTaskStep_resume {s : AdcTasks T} {t : T} {f : ReadFrame} (h : s.frames t = some f) :
    let r := adcReadWait adcMv s.saradc f
    adcTaskStep adcMv s (.resume t) =
      ({ s with saradc := r.2, frames := Function.update s.frames t (frameOf r.1) },
        .read r.1) := by
  simp only [adcTaskStep, h]

/-- Where no call of the task waits, dropping its frame changes nothing. -/
theorem update_none {frames : T → Option ReadFrame} {t : T} (h : frames t = none) :
    Function.update frames t none = frames := by
  rw [← h]
  exact Function.update_eq_self t frames

theorem returned_ne {ret : OperateRet} (h : ret ≠ oprtOk) :
    AdcOutput.read (.returned ret) ≠ .read (.returned oprtOk) := by
  intro heq
  injection heq with heq
  injection heq with heq
  exact h heq

/-- A task that waits in a call makes no other. -/
theorem owned_call_busy {r : ReadRun T} (h : Owned r) {t : T} {f : ReadFrame}
    (hframe : r.tasks.frames t = some f) (portNum chId : UInt8) (data : UInt32) :
    Owned (readStep adcMv r (.call t portNum chId data)).1 ∧
      Unmixed adcMv r (.call t portNum chId data) := by
  have hskip : adcTaskStep adcMv r.tasks (.call t portNum chId data) = (r.tasks, .none) := by
    simp only [adcTaskStep, hframe]
  have hlevels : levelsAfter r (.call t portNum chId data) = r.levels :=
    if_neg (by rw [hframe]; exact Option.some_ne_none f)
  simp only [Unmixed, readStep, hskip, hlevels]
  exact ⟨h, (fun hout => by cases hout), fun _ hout => by cases hout⟩

/-- A call that finds the device closed is refused, or gets it. -/
theorem owned_call_closed {r : ReadRun T} (hclosed : Closed r.tasks.saradc)
    (hnone : ∀ t, r.tasks.frames t = none) (t : T) (portNum chId : UInt8)
    (data : UInt32) :
    Owned (readStep adcMv r (.call t portNum chId data)).1 ∧
      Unmixed adcMv r (.call t portNum chId data) := by
  have hlevels : levelsAfter r (.call t portNum chId data) = Function.update r.levels t [] :=
    if_pos (hnone t)
  have hstep := adcTaskStep_call adcMv (hnone t) portNum chId data
  have hidle : ¬∃ t, r.tasks.frames t ≠ none := fun ⟨t, ht⟩ => ht (hnone t)
  simp only [Unmixed, readStep, hlevels, hstep]
  rcases read_closed adcMv hclosed r.tasks.gAdcInit portNum chId data with
    ⟨ret, hret, hne, hclosed'⟩ | ⟨f, hf, hread⟩
  · rw [hret]
    refine ⟨Or.inl ⟨hclosed', ?_⟩, returned_ne hne, fun _ _ hwaits => absurd hwaits hidle⟩
    simp only [frameOf, update_none (hnone t)]
    exact hnone
  · rw [hf]
    refine ⟨Or.inr ⟨t, f, Function.update_self .., fun t' ht' => ?_, ?_⟩, fun hout => ?_,
      fun _ _ hwaits => absurd hwaits hidle⟩
    · exact (Function.update_of_ne ht' ..).trans (hnone t')
    · simp only [Function.update_self]
      exact hread
    · injection hout with hout
      cases hout

/-- A call that finds the device with another one is refused, and leaves it. -/
theorem owned_call_opened {r : ReadRun T} {t t' : T} {f : ReadFrame}
    (hframe : r.tasks.frames t = none) (hf : r.tasks.frames t' = some f)
    (hothers : ∀ t'' ≠ t', r.tasks.frames t'' = none)
    (hread : Reading r.tasks.saradc f (r.levels t')) {portNum chId : UInt8}
    {data : UInt32} (hmeets : Meets r (.call t portNum chId data)) :
    Owned (readStep adcMv r (.call t portNum chId data)).1 ∧
      Unmixed adcMv r (.call t portNum chId data) := by
  have hlevels : levelsAfter r (.call t portNum chId data) = Function.update r.levels t [] :=
    if_pos hframe
  have hstep := adcTaskStep_call adcMv hframe portNum chId data
  have hne' : t' ≠ t := by
    rintro rfl
    exact nomatch hframe.symm.trans hf
  obtain ⟨ret, hret, hne, hsame⟩ := read_opened adcMv hread
    (fun hport hch hinit => hmeets hframe hport hch hinit (by rw [hread.dev]))
  simp only [Unmixed, readStep, hlevels, hstep]
  rw [hret, hsame]
  simp only [frameOf, update_none hframe]
  refine ⟨Or.inr ⟨t', f, hf, hothers, ?_⟩, returned_ne hne, fun _ _ _ => ⟨trivial, trivial⟩⟩
  simp only [Function.update_of_ne hne']
  exact hread

theorem owned_call {r : ReadRun T} (h : Owned r) {t : T} {portNum chId : UInt8}
    {data : UInt32} (hmeets : Meets r (.call t portNum chId data)) :
    Owned (readStep adcMv r (.call t portNum chId data)).1 ∧
      Unmixed adcMv r (.call t portNum chId data) := by
  cases hframe : r.tasks.frames t with
  | some f => exact owned_call_busy adcMv h hframe portNum chId data
  | none =>
    rcases h with ⟨hclosed, hnone⟩ | ⟨t', f, hf, hothers, hread⟩
    · exact owned_call_closed adcMv hclosed hnone t portNum chId data
    · exact owned_call_opened adcMv hframe hf hothers hread hmeets

theorem owned_resume {r : ReadRun T} (h : Owned r) {t : T} (hmeets : Meets r (.resume t)) :
    Owned (readStep adcMv r (.resume t)).1 ∧ Unmixed adcMv r (.resume t) := by
  cases hframe : r.tasks.frames t with
  | none =>
    have hskip : adcTaskStep adcMv r.tasks (.resume t) = (r.tasks, .none) := by
      simp only [adcTaskStep, hframe]
    simp only [Unmixed, readStep, hskip]
    refine ⟨h, fun f hf => ?_⟩
    cases hframe.symm.trans hf
  | some f =>
    have hstep := adcTaskStep_resume adcMv hframe
    simp only [Unmixed, readStep, hstep]
    rcases h with ⟨hclosed, hnone⟩ | ⟨t', f', hf, hothers, hread⟩
    · cases hframe.symm.trans (hnone t)
    · -- the task that goes on is the one that has the device
      have ht : t = t' := by
        by_contra hne
        cases hframe.symm.trans (hothers t hne)
      subst ht
      cases Option.some.inj (hframe.symm.trans hf)
      rcases hread.wait adcMv (hmeets f hframe) with ⟨f', hwait, hread'⟩ | ⟨hret, hclosed, hdata⟩
      · rw [hwait]
        refine ⟨Or.inr ⟨t, f', Function.update_self .., fun t' ht' => ?_, hread'⟩,
          fun _ _ hout => ?_⟩
        · exact (Function.update_of_ne ht' ..).trans (hothers t' ht')
        · injection hout with hout
          cases hout
      · rw [hret]
        refine ⟨Or.inl ⟨hclosed, fun t' => ?_⟩, fun f' hf' _ => ?_⟩
        · by_cases ht' : t' = t
          · subst ht'
            exact Function.update_self ..
          · exact (Function.update_of_ne ht' ..).trans (hothers t' ht')
        · cases Option.some.inj (hframe.symm.trans hf')
          exact hdata

theorem owned_isr {r : ReadRun T} (h : Owned r) :
    Owned (readStep adcMv r .isr).1 ∧ Unmixed adcMv r .isr := by
  simp only [Unmixed, readStep, adcTaskStep, levelsAfter]
  rcases h with ⟨hclosed, hnone⟩ | ⟨t, f, hf, hothers, hread⟩
  · rw [if_neg (by rw [hclosed.2]; exact Bool.false_ne_true)]
    exact ⟨Or.inl ⟨hclosed, hnone⟩, fun _ hout => by cases hout⟩
  · obtain ⟨hread', haddrs⟩ := hread.isr
    split
    · refine ⟨Or.inr ⟨t, f, hf, hothers, hread'⟩, fun addrs hout a ha => ?_⟩
      injection hout with hout
      rw [← hout] at ha
      obtain ⟨k, hk, rfl⟩ := haddrs a ha
      exact ⟨t, f, k, hf, hk, rfl⟩
    · exact ⟨Or.inr ⟨t, f, hf, hothers, hread⟩, fun _ hout => by cases hout⟩

/-- The calls do not mix in a step that meets the condition, and the device has at most one owner
    behind it. -/
theorem owned_step {r : ReadRun T} (h : Owned r) (i : AdcInput T) (hmeets : Meets r i) :
    Owned (readStep adcMv r i).1 ∧ Unmixed adcMv r i := by
  cases i with
  | call t portNum chId data => exact owned_call adcMv h hmeets
  | resume t => exact owned_resume adcMv h hmeets
  | isr => exact owned_isr adcMv h
  | convert level =>
    refine ⟨?_, trivial⟩
    rcases h with ⟨hclosed, hnone⟩ | ⟨t, f, hf, hothers, hread⟩
    · refine Or.inl ⟨?_, hnone⟩
      simp only [readStep, adcTaskStep, saradcConvert]
      split
      · exact hclosed
      · exact hclosed
    · exact Or.inr ⟨t, f, hf, hothers, hread.convert level⟩

/-- From a closed device, every run of any number of tasks whose steps meet the condition keeps
    the calls apart. -/
theorem adc_reads_unmixed (desc : SaradcDesc) (gAdcInit : Table adcDevChannelSum UInt8)
    (mem : UInt32 → UInt16) {is : List (AdcInput T)}
    (hmeets : Along (readStep adcMv) Meets (.start desc gAdcInit mem) is) :
    Along (readStep adcMv) (Unmixed adcMv) (.start desc gAdcInit mem) is :=
  along_of_inv (I := Owned) (fun _ i h hm => owned_step adcMv h i hm)
    (Or.inl ⟨⟨rfl, rfl⟩, fun _ => rfl⟩) hmeets

end Steps

/-- `adc_desc` as `tkl_adc_init` leaves it for one conversion at a time. -/
def oneShot : SaradcDesc :=
  { dataBuffSize := 1, mode := 1, preDiv := 8, sampRate := 0x20, pIntHandler := saradcDisable }

/-- All channels are configured. -/
def allChannels : Table adcDevChannelSum UInt8 := Table.of adcDevChannelSum fun _ => 1

/-- One task reads channel 0, another one asks for the same read while it waits and is refused, and
    then reads channel 1. -/
def twoReads : List (AdcInput Bool) :=
  [.call true 0 0 0x1000, .call false 0 0 0x1000, .convert fun _ => 7, .isr, .resume true,
    .call false 0 1 0x2000, .convert fun _ => 9, .isr, .resume false]

theorem adc_reads_unmixed_two :
    Along (readStep id) Meets (.start oneShot allChannels fun _ => 0) twoReads ∧
      Along (readStep id) (Unmixed id) (.start oneShot allChannels fun _ => 0) twoReads := by
  have hmeets : Along (readStep id) Meets (.start oneShot allChannels fun _ => 0) twoReads := by
    refine ⟨?_, ?_, trivial, trivial, ?_, ?_, trivial, trivial, ?_, trivial⟩
    · intro _ _ _ _ hstate
      cases hstate
    · intro _ _ _ _ _
      rfl
    · intro f hf
      cases hf
      decide
    · intro _ _ _ _ hstate
      cases hstate
    · intro f hf
      cases hf
      decide
  exact ⟨hmeets, adc_reads_unmixed id oneShot allChannels (fun _ => 0) hmeets⟩

/-- Another task asks for channel 1 while the first one waits, and the sample of channel 0 goes
    to the buffer of the call that has been refused. -/
theorem adc_reads_mixed : ¬Along (readStep id) (Unmixed id) (.start oneShot allChannels fun _ => 0)
    [.call true 0 0 0x1000, .call false 0 1 0x2000, .convert fun _ => 7, .isr] := by
  intro hrun
  obtain ⟨-, -, -, hisr, -⟩ := hrun
  obtain ⟨t, f, k, hf, hk, ha⟩ := hisr [0x2000] rfl 0x2000 (List.mem_singleton_self _)
  cases t with
  | false => cases hf
  | true =>
    cases hf
    have hzero : k = 0 := Nat.lt_one_iff.mp hk
    rw [hzero] at ha
    exact absurd ha (by decide)

end ArduinoT2.Driver
