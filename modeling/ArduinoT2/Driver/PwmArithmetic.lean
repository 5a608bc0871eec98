import ArduinoT2.Driver.PwmStart

/-
  The times that the PWM starts program (tkl_pwm.c), against exact integers.

  `tkl_pwm_start` and `tkl_pwm_multichannel_start` compute `duty * count / 10000` in 32 bits.
  `pwm_arithmetic_iff` is about every sequence of calls: each start programs the exact times if
  and only if the product of the duty and the period is below 2^32; a start of a pair is right,
  too, if the on-times are cut but still do not fit into the period, which refuses them.
-/

namespace ArduinoT2.Driver

open StepSys ArduinoT2.Adapter ArduinoT2.Vendor

/-! ## What a start must program -/

/-- A frequency from 1 Hz to that of the clock, and a duty of at most one. -/
structure Configured (cfg : PwmBaseCfg) : Prop where
  low : 1 ≤ cfg.frequency.toNat
  high : cfg.frequency.toNat ≤ 26000000
  duty : cfg.duty.toNat ≤ 10000

/-- The times of a channel are the exact ones of its configuration: on for all of the period at
    full duty, and never longer than at a duty that is not smaller. -/
structure TimesExact (cfg : PwmBaseCfg) (times : PwmTimes) : Prop where
  period : times.t4.toNat = period cfg
  onTime : times.t1.toNat = onTime cfg
  le : times.t1 ≤ times.t4
  full : cfg.duty.toNat = 10000 → times.t1 = times.t4
  mono : ∀ cfg' : PwmBaseCfg, cfg'.frequency = cfg.frequency → cfg.duty ≤ cfg'.duty →
    times.t1.toNat ≤ Driver.onTime cfg'

/-- The times of a pair are the exact ones, with the same dead time on both sides of the first
    on-time, up to one count. The dead time shows in T2 of the first channel, if that is on. -/
structure PairExact (cfg0 cfg1 : PwmBaseCfg) (times0 times1 : PwmTimes) : Prop where
  period0 : times0.t4.toNat = period cfg0
  period1 : times1.t4.toNat = period cfg1
  onTime0 : (times0.t2 - times0.t1).toNat = onTime cfg0
  onTime1 : times1.t1.toNat = onTime cfg1
  dead : ∃ dead, (2 * dead + onTime cfg0 + onTime cfg1 = period cfg0 ∨
      2 * dead + onTime cfg0 + onTime cfg1 = period cfg0 - 1) ∧
    (onTime cfg0 ≠ 0 → times0.t2.toNat = period cfg0 - dead)

/-- A start of one channel with a valid configuration, where the calls of the driver succeed. -/
def SingleStart (s : PwmState) (io : PwmIo) (chId : UInt32) : Prop :=
  io = {} ∧ chId.toUInt8.toNat < 6 ∧ Configured (cfgOf s chId.toUInt8.toNat)

/-- The starts of a pair: two channels of one frequency. -/
def PairStart (s : PwmState) (io : PwmIo) (chId0 chId1 : UInt32) (num : UInt8) : Prop :=
  (io = {} ∧ num = 2 ∧ chId0.toUInt8.toNat < 6 ∧ chId1.toUInt8.toNat < 6 ∧
      chId0.toUInt8.toNat ≠ chId1.toUInt8.toNat) ∧
    Configured (cfgOf s chId0.toUInt8.toNat) ∧ Configured (cfgOf s chId1.toUInt8.toNat) ∧
    (cfgOf s chId0.toUInt8.toNat).frequency = (cfgOf s chId1.toUInt8.toNat).frequency

/-- A start programs the exact times. A start of a pair returns `OPRT_OK` if and only if the exact
    on-times fit into the period. -/
def ArithOk (s : PwmState) : PwmInput → Prop
  | (io, .start chId) => SingleStart s io chId →
      let (s', ret) := pwmStep s (io, .start chId)
      ret = oprtOk ∧ TimesExact (cfgOf s chId.toUInt8.toNat) (s'.hw.times chId.toUInt8.toNat)
  | (io, .multichannelStart chId0 chId1 num) => PairStart s io chId0 chId1 num →
      let (s', ret) := pwmStep s (io, .multichannelStart chId0 chId1 num)
      let cfg0 := cfgOf s chId0.toUInt8.toNat
      let cfg1 := cfgOf s chId1.toUInt8.toNat
      (ret = oprtOk ↔ onTime cfg0 + onTime cfg1 ≤ period cfg0) ∧
        (ret = oprtOk →
          PairExact cfg0 cfg1 (s'.hw.times chId0.toUInt8.toNat) (s'.hw.times chId1.toUInt8.toNat))
  | _ => True

/-- The product of duty and period does not overflow. -/
def ProductFits (cfg : PwmBaseCfg) : Prop := cfg.duty.toNat * period cfg < 2 ^ 32

/-- The on-time of the product that is cut to 32 bits. -/
def cutOnTime (cfg : PwmBaseCfg) : Nat := cfg.duty.toNat * period cfg % 2 ^ 32 / 10000

/-- The starts that are right: the products fit, or the pair is refused even so. -/
def ArithMeets (s : PwmState) : PwmInput → Prop
  | (io, .start chId) => SingleStart s io chId → ProductFits (cfgOf s chId.toUInt8.toNat)
  | (io, .multichannelStart chId0 chId1 num) => PairStart s io chId0 chId1 num →
      let cfg0 := cfgOf s chId0.toUInt8.toNat
      let cfg1 := cfgOf s chId1.toUInt8.toNat
      (ProductFits cfg0 ∧ ProductFits cfg1) ∨ cutOnTime cfg0 + cutOnTime cfg1 > period cfg0
  | _ => True

/-! ## The arithmetic -/

theorem toNat_dutyCount_cut {cfg : PwmBaseCfg} {count : UInt32}
    (hcount : count.toNat = period cfg) : (cfg.dutyCount count).toNat = cutOnTime cfg := by
  unfold PwmBaseCfg.dutyCount cutOnTime
  rw [UInt32.toNat_div, UInt32.toNat_mul, hcount]
  rfl

theorem cutOnTime_le_onTime (cfg : PwmBaseCfg) : cutOnTime cfg ≤ onTime cfg :=
  Nat.div_le_div_right (Nat.mod_le _ _)

/-- A product that is cut gives another on-time. -/
theorem cutOnTime_eq_iff (cfg : PwmBaseCfg) : cutOnTime cfg = onTime cfg ↔ ProductFits cfg := by
  unfold cutOnTime onTime ProductFits
  generalize cfg.duty.toNat * period cfg = product
  omega

/-- The on-time is never longer than the period, also when the product is cut. -/
theorem cutOnTime_le {cfg : PwmBaseCfg} (h : Configured cfg) : cutOnTime cfg ≤ period cfg := by
  have hproduct : cfg.duty.toNat * period cfg ≤ 10000 * period cfg :=
    Nat.mul_le_mul_right _ h.duty
  unfold cutOnTime
  generalize cfg.duty.toNat * period cfg = product at hproduct ⊢
  omega

theorem onTime_full {cfg : PwmBaseCfg} (h : cfg.duty.toNat = 10000) : onTime cfg = period cfg := by
  unfold onTime
  rw [h]
  exact Nat.mul_div_cancel_left _ (by decide)

theorem onTime_mono {cfg cfg' : PwmBaseCfg} (hfreq : cfg'.frequency = cfg.frequency)
    (hduty : cfg.duty ≤ cfg'.duty) : onTime cfg ≤ onTime cfg' := by
  unfold onTime
  rw [period_congr hfreq.symm]
  exact Nat.div_le_div_right (Nat.mul_le_mul_right _ (UInt32.le_iff_toNat_le.mp hduty))

/-! ## One channel -/

/-- What a start programs. -/
theorem start_times {s : PwmState} {chId : UInt32} (h : SingleStart s {} chId) :
    (pwmStep s ({}, .start chId)).2 = oprtOk ∧
      (pwmStep s ({}, .start chId)).1.hw.times chId.toUInt8.toNat =
        singleTimes (cfgOf s chId.toUInt8.toNat) := by
  obtain ⟨-, hch, hcfg⟩ := h
  have hcount := toNat_count (cfgOf s chId.toUInt8.toNat)
  have hle : (singleTimes (cfgOf s chId.toUInt8.toNat)).t1 ≤
      (singleTimes (cfgOf s chId.toUInt8.toNat)).t4 := by
    rw [UInt32.le_iff_toNat_le]
    show ((cfgOf s chId.toUInt8.toNat).dutyCount _).toNat ≤ (cfgOf s chId.toUInt8.toNat).count.toNat
    rw [toNat_dutyCount_cut hcount, hcount]
    exact cutOnTime_le hcfg
  unfold pwmStep pwmCall
  simp only
  by_cases hflag : flagged s chId.toUInt8.toNat
  · rw [tklPwmStart_running _ hch hflag]
    simp only [if_true, pwmUpdateParam_eq _ hch, Function.update_self]
    exact ⟨trivial, trivial⟩
  · rw [tklPwmStart_stopped _ hch hflag]
    simp only [and_self, if_true, initPwmParam_eq _ hch hle, pwmUnitEnable_eq _ hch,
      Function.update_self]

/-- The times of a start are exact if and only if the product fits. -/
theorem singleTimes_exact_iff {cfg : PwmBaseCfg} (h : Configured cfg) :
    TimesExact cfg (singleTimes cfg) ↔ ProductFits cfg := by
  have hcount : (singleTimes cfg).t4.toNat = period cfg := toNat_count cfg
  have hduty : (singleTimes cfg).t1.toNat = cutOnTime cfg := toNat_dutyCount_cut (toNat_count cfg)
  constructor
  · intro hexact
    rw [← cutOnTime_eq_iff, ← hduty]
    exact hexact.onTime
  · intro hfits
    have hone := hduty.trans ((cutOnTime_eq_iff cfg).mpr hfits)
    refine ⟨hcount, hone, ?_, fun hfull => ?_, fun cfg' hfreq hle => ?_⟩
    · rw [UInt32.le_iff_toNat_le, hduty, hcount]
      exact cutOnTime_le h
    · rw [← UInt32.toNat_inj, hone, hcount]
      exact onTime_full hfull
    · rw [hone]
      exact onTime_mono hfreq hle

/-! ## A pair -/

section Pair

variable {s : PwmState} {chId0 chId1 : UInt32} {num : UInt8}

theorem toNat_pairCounts_cut {cfg0 cfg1 : PwmBaseCfg} (hfreq : cfg0.frequency = cfg1.frequency) :
    (pairCounts cfg0 cfg1).cold.toNat = cutOnTime cfg0 ∧
      (pairCounts cfg0 cfg1).warm.toNat = cutOnTime cfg1 := by
  have hcount := toNat_count cfg0
  refine ⟨toNat_dutyCount_cut hcount, toNat_dutyCount_cut ?_⟩
  rw [hcount, period_congr hfreq]

/-- The test of the adapter, on the on-times that are cut. -/
theorem cut_sum_le_iff {cfg0 cfg1 : PwmBaseCfg} (h0 : Configured cfg0) (h1 : Configured cfg1)
    (hfreq : cfg0.frequency = cfg1.frequency) :
    cfg0.count ≥ (pairCounts cfg0 cfg1).cold + (pairCounts cfg0 cfg1).warm ↔
      cutOnTime cfg0 + cutOnTime cfg1 ≤ period cfg0 := by
  obtain ⟨hcold, hwarm⟩ := toNat_pairCounts_cut hfreq
  have hle0 := cutOnTime_le h0
  have hle1 := cutOnTime_le h1
  have hperiod := period_le cfg0
  rw [period_congr hfreq] at hle1
  rw [ge_iff_le, UInt32.le_iff_toNat_le, UInt32.toNat_add, toNat_count, hcold, hwarm,
    Nat.mod_eq_of_lt (by omega)]

/-- A start of a pair, up to the test. -/
theorem pairStart_eq (h : PairStart s {} chId0 chId1 num) :
    let cfg0 := cfgOf s chId0.toUInt8.toNat
    let p := pairCounts cfg0 (cfgOf s chId1.toUInt8.toNat)
    let s₁ := { s with
      pwmCfg := ((s.pwmCfg.read chId0.toUInt8.toNat).2.read chId1.toUInt8.toNat).2 }
    tklPwmMultichannelStart {} s chId0.toUInt8 chId1.toUInt8 num =
      if cfg0.count ≥ p.cold + p.warm then
        pwmPairStart {} s₁ chId0.toUInt8.toNat chId1.toUInt8.toNat cfg0.count p.cold p.warm p.dead
      else (oprtComError, s₁) := by
  obtain ⟨⟨-, hnum, hch0, hch1, -⟩, -, -, hfreq⟩ := h
  have hrange := not_gt_pwmDevNum hch0 hch1
  have hfreq' : (s.pwmCfg.entry chId0.toUInt8.toNat).frequency =
      (s.pwmCfg.entry chId1.toUInt8.toNat).frequency := hfreq
  intro cfg0 p s₁
  unfold tklPwmMultichannelStart
  simp only [hnum, if_true, if_neg hrange, Table.read_fst, Table.entry_read]
  simp only [ne_eq, hfreq', not_true_eq_false, if_false]
  rfl

/-- A start of a pair whose on-times do not fit, cut as they are. -/
theorem pairStart_refused (h : PairStart s {} chId0 chId1 num)
    (hsum : cutOnTime (cfgOf s chId0.toUInt8.toNat) + cutOnTime (cfgOf s chId1.toUInt8.toNat) >
      period (cfgOf s chId0.toUInt8.toNat)) :
    (pwmStep s ({}, .multichannelStart chId0 chId1 num)).2 = oprtComError := by
  have hcfg := h.2
  have htest := (cut_sum_le_iff hcfg.1 hcfg.2.1 hcfg.2.2).not.mpr (Nat.not_le.mpr hsum)
  show (tklPwmMultichannelStart {} s chId0.toUInt8 chId1.toUInt8 num).1 = _
  rw [pairStart_eq h]
  simp only [if_neg htest]

/-- The times of the first channel, set anew or updated. -/
def FirstTimes (count : UInt32) (p : PairCounts) (times : PwmTimes) : Prop :=
  times = initTimes count p ∨ times = updateTimes count p

theorem FirstTimes.spec {count : UInt32} {p : PairCounts} {times : PwmTimes}
    (h : FirstTimes count p times) (hle : count - p.cold - p.dead ≤ count) :
    times.t4 = count ∧ times.t2 - times.t1 = p.cold ∧ (p.cold ≠ 0 → times.t2 = count - p.dead) := by
  rcases h with rfl | rfl
  · have hinit := initTimes_spec count p hle
    refine ⟨hinit.2.1, hinit.1, fun hcold => ?_⟩
    unfold initTimes
    rw [if_neg hcold]
  · have hupdate := updateTimes_spec count p
    refine ⟨hupdate.2, hupdate.1, fun hcold => ?_⟩
    unfold updateTimes
    simp only [if_neg hcold]

/-- A start of a pair whose on-times fit, cut as they are. -/
theorem pairStart_accepted (h : PairStart s {} chId0 chId1 num)
    (hsum : cutOnTime (cfgOf s chId0.toUInt8.toNat) + cutOnTime (cfgOf s chId1.toUInt8.toNat) ≤
      period (cfgOf s chId0.toUInt8.toNat)) :
    let cfg0 := cfgOf s chId0.toUInt8.toNat
    let p := pairCounts cfg0 (cfgOf s chId1.toUInt8.toNat)
    let r := pwmStep s ({}, .multichannelStart chId0 chId1 num)
    r.2 = oprtOk ∧ FirstTimes cfg0.count p (r.1.hw.times chId0.toUInt8.toNat) ∧
      r.1.hw.times chId1.toUInt8.toNat = ⟨p.warm, cfg0.count, 0, cfg0.count⟩ := by
  intro cfg0 p r
  obtain ⟨⟨-, -, hch0, hch1, hne⟩, h0, h1, hfreq⟩ := id h
  have htest := (cut_sum_le_iff h0 h1 hfreq).mpr hsum
  obtain ⟨hcold, hwarm⟩ := toNat_pairCounts_cut hfreq
  have hcount := toNat_count cfg0
  have hsum' : p.cold.toNat + p.warm.toNat ≤ cfg0.count.toNat := by
    rw [hcold, hwarm, hcount]
    exact hsum
  obtain ⟨hroom, hle⟩ := pair_fits (by rw [hcount]; exact period_le cfg0) hsum'
  have hwarm' : p.warm ≤ cfg0.count := UInt32.le_iff_toNat_le.mpr (by omega)
  have htimes : ∀ hw times0 times1,
      let hw' := setPair hw chId0.toUInt8.toNat chId1.toUInt8.toNat times0 times1
      hw'.times chId0.toUInt8.toNat = times0 ∧ hw'.times chId1.toUInt8.toNat = times1 := by
    intro hw times0 times1
    unfold setPair
    simp only [Function.update_of_ne hne, Function.update_self]
    exact ⟨trivial, trivial⟩
  have hr : r = ((tklPwmMultichannelStart {} s chId0.toUInt8 chId1.toUInt8 num).2,
    (tklPwmMultichannelStart {} s chId0.toUInt8 chId1.toUInt8 num).1) := rfl
  rw [hr, pairStart_eq h]
  simp only [if_pos htest]
  by_cases hflag : flagged s chId0.toUInt8.toNat
  · have hrunning := pwmPairStart_running {} (s := { s with
      pwmCfg := ((s.pwmCfg.read chId0.toUInt8.toNat).2.read chId1.toUInt8.toNat).2 })
      hch0 hch1 hroom hflag
    rw [hrunning]
    simp only [if_true, htimes]
    exact ⟨trivial, .inr rfl, trivial⟩
  · have hstopped := pwmPairStart_stopped {} (s := { s with
      pwmCfg := ((s.pwmCfg.read chId0.toUInt8.toNat).2.read chId1.toUInt8.toNat).2 })
      hch0 hch1 hroom hle hwarm' hflag
    rw [hstopped]
    simp only [and_self, if_true, cwStart_times _ hch0 hch1, htimes]
    exact ⟨trivial, .inl rfl, trivial⟩

/-- The dead time that is computed: half of what the on-times leave. -/
theorem toNat_pairDead {cfg0 cfg1 : PwmBaseCfg} (hfreq : cfg0.frequency = cfg1.frequency)
    (hsum : cutOnTime cfg0 + cutOnTime cfg1 ≤ period cfg0) :
    (pairCounts cfg0 cfg1).dead.toNat = (period cfg0 - cutOnTime cfg0 - cutOnTime cfg1) / 2 := by
  obtain ⟨hcold, hwarm⟩ := toNat_pairCounts_cut hfreq
  have hcount := toNat_count cfg0
  have hle : (pairCounts cfg0 cfg1).cold ≤ cfg0.count := UInt32.le_iff_toNat_le.mpr (by omega)
  have hsub := UInt32.toNat_sub_of_le _ _ hle
  have hle' : (pairCounts cfg0 cfg1).warm ≤ cfg0.count - (pairCounts cfg0 cfg1).cold :=
    UInt32.le_iff_toNat_le.mpr (by omega)
  show ((cfg0.count - (pairCounts cfg0 cfg1).cold - (pairCounts cfg0 cfg1).warm) / 2).toNat = _
  rw [UInt32.toNat_div, UInt32.toNat_sub_of_le _ _ hle', hsub, hcount, hcold, hwarm]
  rfl

/-- The times of a pair that is started are exact if and only if both products fit. -/
theorem pairTimes_exact_iff {cfg0 cfg1 : PwmBaseCfg} (hfreq : cfg0.frequency = cfg1.frequency)
    (hsum : cutOnTime cfg0 + cutOnTime cfg1 ≤ period cfg0) {times0 times1 : PwmTimes}
    (h0 : FirstTimes cfg0.count (pairCounts cfg0 cfg1) times0)
    (h1 : times1 = ⟨(pairCounts cfg0 cfg1).warm, cfg0.count, 0, cfg0.count⟩) :
    PairExact cfg0 cfg1 times0 times1 ↔ ProductFits cfg0 ∧ ProductFits cfg1 := by
  obtain ⟨hcold, hwarm⟩ := toNat_pairCounts_cut hfreq
  have hcount := toNat_count cfg0
  have hdead := toNat_pairDead hfreq hsum
  have hsum' : (pairCounts cfg0 cfg1).cold.toNat + (pairCounts cfg0 cfg1).warm.toNat ≤
      cfg0.count.toNat := by
    rw [hcold, hwarm, hcount]
    exact hsum
  obtain ⟨ht4, hon, ht2⟩ :=
    h0.spec (pair_fits (by rw [hcount]; exact period_le cfg0) hsum').2
  subst h1
  constructor
  · intro hexact
    have hon0 := hexact.onTime0
    have hon1 : (pairCounts cfg0 cfg1).warm.toNat = onTime cfg1 := hexact.onTime1
    rw [hon, hcold] at hon0
    rw [hwarm] at hon1
    exact ⟨(cutOnTime_eq_iff cfg0).mp hon0, (cutOnTime_eq_iff cfg1).mp hon1⟩
  · rintro ⟨hfits0, hfits1⟩
    have hcut0 := (cutOnTime_eq_iff cfg0).mpr hfits0
    have hcut1 := (cutOnTime_eq_iff cfg1).mpr hfits1
    refine ⟨by rw [ht4, hcount], hcount.trans (period_congr hfreq.symm), by rw [hon, hcold, hcut0],
      hwarm.trans hcut1, (pairCounts cfg0 cfg1).dead.toNat, by omega, fun hne => ?_⟩
    have hne' : (pairCounts cfg0 cfg1).cold ≠ 0 := by
      intro hzero
      rw [hzero] at hcold
      exact hne (hcut0.symm.trans hcold.symm)
    have hle : (pairCounts cfg0 cfg1).dead ≤ cfg0.count := by
      rw [UInt32.le_iff_toNat_le]
      omega
    rw [ht2 hne', UInt32.toNat_sub_of_le _ _ hle, hcount]

/-- A start of a pair is right if and only if both products fit, or it is refused even so. -/
theorem pair_arith_iff (h : PairStart s {} chId0 chId1 num) :
    ArithOk s ({}, .multichannelStart chId0 chId1 num) ↔
      ArithMeets s ({}, .multichannelStart chId0 chId1 num) := by
  obtain ⟨-, -, hfreq⟩ := h.2
  have hle0 := cutOnTime_le_onTime (cfgOf s chId0.toUInt8.toNat)
  have hle1 := cutOnTime_le_onTime (cfgOf s chId1.toUInt8.toNat)
  unfold ArithOk ArithMeets
  simp only [forall_prop_of_true h]
  rcases Nat.lt_or_ge (period (cfgOf s chId0.toUInt8.toNat))
    (cutOnTime (cfgOf s chId0.toUInt8.toNat) + cutOnTime (cfgOf s chId1.toUInt8.toNat)) with
      hsum | hsum
  · rw [pairStart_refused h hsum]
    refine iff_of_true ⟨iff_of_false comError_ne_ok (by omega), ?_⟩ (.inr hsum)
    exact fun hret => absurd hret comError_ne_ok
  · obtain ⟨hret, htimes0, htimes1⟩ := pairStart_accepted h hsum
    rw [or_iff_left (Nat.not_lt.mpr hsum), ← pairTimes_exact_iff hfreq hsum htimes0 htimes1, hret]
    constructor
    · rintro ⟨-, hexact⟩
      exact hexact rfl
    · intro hexact
      obtain ⟨dead, hdead, -⟩ := hexact.dead
      exact ⟨iff_of_true rfl (by omega), fun _ => hexact⟩

end Pair

/-! ## Runs -/

theorem single_arith_iff {s : PwmState} {chId : UInt32} (h : SingleStart s {} chId) :
    ArithOk s ({}, .start chId) ↔ ArithMeets s ({}, .start chId) := by
  obtain ⟨hret, htimes⟩ := start_times h
  unfold ArithOk ArithMeets
  simp only [forall_prop_of_true h]
  rw [hret, htimes, singleTimes_exact_iff h.2.2]
  exact and_iff_right rfl

/-- A call is right if and only if it meets the condition. -/
theorem pwmStep_arith_iff (s : PwmState) (i : PwmInput) : ArithOk s i ↔ ArithMeets s i := by
  obtain ⟨io, c⟩ := i
  cases c with
  | start chId =>
    by_cases h : SingleStart s io chId
    · obtain rfl := h.1
      exact single_arith_iff h
    · exact iff_of_true (fun hs => absurd hs h) (fun hs => absurd hs h)
  | multichannelStart chId0 chId1 num =>
    by_cases h : PairStart s io chId0 chId1 num
    · obtain rfl := h.1.1
      exact pair_arith_iff h
    · exact iff_of_true (fun hs => absurd hs h) (fun hs => absurd hs h)
  | _ => exact Iff.rfl

/-- In every sequence of calls, from any state, all starts are right if and only if for each of
    them the products of duty and period are below 2^32, or a pair is refused even so. -/
theorem pwm_arithmetic_iff (s : PwmState) (is : List PwmInput) :
    Along pwmStep ArithOk s is ↔ Along pwmStep ArithMeets s is :=
  along_congr (I := fun _ => True) (fun _ _ _ _ => trivial) (fun s i _ => pwmStep_arith_iff s i)
    trivial is

/-- A servo at 50 Hz that is on for all of the period: the product is 5200000000. -/
theorem pwm_arithmetic_servo : ¬Along pwmStep ArithOk pwmReset
    [({}, .init 0 ⟨.negative, 10000, 50⟩), ({}, .start 0)] := by
  rintro ⟨-, hstart, -⟩
  have h : SingleStart (pwmStep pwmReset ({}, .init 0 ⟨.negative, 10000, 50⟩)).1 {} 0 :=
    ⟨rfl, by decide, by decide, by decide, by decide⟩
  have hfits := (single_arith_iff h).mp hstart h
  exact absurd hfits (by unfold ProductFits; decide)

end ArduinoT2.Driver
