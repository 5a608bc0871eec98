import ArduinoT2.Adapter.TklPwm
import ArduinoT2.Lib.StepSys
import Mathlib.Algebra.Group.Nat.Defs

/-
  The start flags of the PWM channels (tkl_pwm.c) and the outputs behind them.

  `FlagsTrue` is the invariant: a flag is set if and only if the channel's output is enabled.
  A start that returns `OPRT_OK` promises that each channel runs with its configuration: the
  period in T4, the on-time up to T1, or between T1 and T2 for the first channel of a pair. The
  polarity is no part of it: the adapter does not support it.
  `pwm_start_state` says when both hold, by what the calls leave out: the flag of the second
  channel of a pair, the results of an update and of a stop, and the pair that `group_flag` is of.
-/

namespace ArduinoT2.Driver

open StepSys ArduinoT2.Adapter ArduinoT2.Vendor

/-! ## Configurations -/

/-- The period in counts of the 26 MHz clock. -/
def period (cfg : PwmBaseCfg) : Nat := 26000000 / cfg.frequency.toNat

/-- The on-time in counts. -/
def onTime (cfg : PwmBaseCfg) : Nat := cfg.duty.toNat * period cfg / 10000

/-- A configuration that the arithmetic of the adapter can carry: a frequency, a duty of at most
    one, and no overflow in their product. -/
structure CfgOk (cfg : PwmBaseCfg) : Prop where
  frequency : cfg.frequency.toNat ≠ 0
  duty : cfg.duty.toNat ≤ 10000
  fits : cfg.duty.toNat * period cfg < 2 ^ 32

theorem period_le (cfg : PwmBaseCfg) : period cfg ≤ 26000000 := Nat.div_le_self _ _

theorem onTime_le {cfg : PwmBaseCfg} (h : CfgOk cfg) : onTime cfg ≤ period cfg := by
  apply Nat.div_le_of_le_mul
  exact Nat.mul_le_mul_right _ h.duty

theorem toNat_count (cfg : PwmBaseCfg) : cfg.count.toNat = period cfg := by
  unfold PwmBaseCfg.count period
  rw [UInt32.toNat_div]
  rfl

theorem toNat_dutyCount {cfg : PwmBaseCfg} (h : CfgOk cfg) {count : UInt32}
    (hcount : count.toNat = period cfg) : (cfg.dutyCount count).toNat = onTime cfg := by
  unfold PwmBaseCfg.dutyCount onTime
  rw [UInt32.toNat_div, UInt32.toNat_mul, hcount, Nat.mod_eq_of_lt h.fits]
  rfl

/-! ## The state -/

/-- The configuration of a channel. -/
def cfgOf (s : PwmState) (ch : Nat) : PwmBaseCfg := s.pwmCfg.entry ch

/-- `pwm_start_flag` of a channel is set. -/
def flagged (s : PwmState) (ch : Nat) : Prop := s.pwmStartFlag.entry ch ≠ 0

/-- The output of a channel is started. -/
def started (s : PwmState) (ch : Nat) : Prop := s.hw.enabled ch = true

/-- The flags tell which outputs are started. -/
def FlagsTrue (s : PwmState) : Prop := ∀ ch < 6, flagged s ch ↔ started s ch

/-- The channel runs with its configuration: it is on up to T1. -/
structure Runs (s : PwmState) (ch : Nat) : Prop where
  started : started s ch
  period : (s.hw.times ch).t4.toNat = period (cfgOf s ch)
  onTime : (s.hw.times ch).t1.toNat = onTime (cfgOf s ch)

/-- The channel runs with its configuration as the first one of a pair: it is on from T1 to T2. -/
structure RunsFirst (s : PwmState) (ch : Nat) : Prop where
  started : started s ch
  period : (s.hw.times ch).t4.toNat = period (cfgOf s ch)
  onTime : ((s.hw.times ch).t2 - (s.hw.times ch).t1).toNat = onTime (cfgOf s ch)

/-- A call, with which calls of the driver succeed in it. -/
abbrev PwmInput := PwmIo × PwmCall

/-- One call. -/
def pwmStep (s : PwmState) (i : PwmInput) : PwmState × OperateRet :=
  ((pwmCall i.1 s i.2).2, (pwmCall i.1 s i.2).1)

/-- What a start promises about the state behind it. -/
def promised (s : PwmState) : PwmCall → Prop
  | .start chId => Runs s chId.toUInt8.toNat
  | .multichannelStart chId0 chId1 _ => RunsFirst s chId0.toUInt8.toNat ∧ Runs s chId1.toUInt8.toNat
  | _ => True

/-- The flags are true behind the call, and a start that returns `OPRT_OK` has kept its promise. -/
def StartOk (s : PwmState) (i : PwmInput) : Prop :=
  FlagsTrue (pwmStep s i).1 ∧ ((pwmStep s i).2 = oprtOk → promised (pwmStep s i).1 i.2)

/-! ## What the driver does -/

theorem not_ge_pwmCount {ch : Nat} (h : ch < 6) : ¬ch ≥ pwmCount := Nat.not_le.mpr h

theorem pwmUnitEnable_eq (hw : PwmHw) {ch : Nat} (h : ch < 6) :
    pwmUnitEnable hw ch = { hw with enabled := Function.update hw.enabled ch true } :=
  if_neg (not_ge_pwmCount h)

theorem pwmUnitDisable_eq (hw : PwmHw) {ch : Nat} (h : ch < 6) :
    pwmUnitDisable hw ch = { hw with enabled := Function.update hw.enabled ch false } :=
  if_neg (not_ge_pwmCount h)

theorem pwmUpdateParam_eq (hw : PwmHw) {ch : Nat} (h : ch < 6) (param : PwmTimes) :
    pwmUpdateParam hw ch param = { hw with times := Function.update hw.times ch param } :=
  if_neg (not_ge_pwmCount h)

theorem initPwmParam_eq (hw : PwmHw) {ch : Nat} (h : ch < 6) {param : PwmTimes}
    (hparam : param.t1 ≤ param.t4) :
    initPwmParam hw ch param = { hw with times := Function.update hw.times ch param } :=
  if_neg (not_or.mpr ⟨not_ge_pwmCount h, UInt32.not_lt.mpr hparam⟩)

theorem getSetGroup_eq {ch : Nat} (h : ch < 6) : getSetGroup ch = ch / 2 := by
  unfold getSetGroup
  split
  · omega
  · split <;> omega

theorem setGroup_enabled (hw : PwmHw) {ch : Nat} (h : ch < 6) (value : Bool) {c : Nat}
    (hc : c < 6) : (setGroup hw ch value).enabled c =
      if getSetGroup c = getSetGroup ch then value else hw.enabled c := by
  unfold setGroup
  rw [getSetGroup_eq h, getSetGroup_eq hc]
  simp only [Function.update_apply]
  by_cases hgroup : c / 2 = ch / 2
  · rw [if_pos hgroup]
    split
    · rfl
    · rw [if_pos (by omega)]
  · rw [if_neg hgroup, if_neg (by omega), if_neg (by omega)]

/-- `pwm_check_group` is true of the two channels of a group. -/
theorem pwmCheckGroup_iff {ch0 ch1 : Nat} (h0 : ch0 < 6) (h1 : ch1 < 6) :
    pwmCheckGroup ch0 ch1 = true ↔ ch0 ≠ ch1 ∧ getSetGroup ch0 = getSetGroup ch1 := by
  rw [getSetGroup_eq h0, getSetGroup_eq h1]
  unfold pwmCheckGroup
  split
  · split_ifs <;> simp only [decide_eq_true_eq] <;> omega
  · refine iff_of_false (fun h => nomatch h) ?_
    omega

/-- The channels that a start of the pair enables: the group of the first one, or the two. -/
theorem cwStart_enabled {hw : PwmHw} {ch0 ch1 : Nat} (h0 : ch0 < 6) (h1 : ch1 < 6)
    (hgroup : hw.groupFlag = pwmCheckGroup ch0 ch1) {c : Nat} (hc : c < 6) :
    (bkPwmCwStart true hw ch0 ch1).2.enabled c =
      if c = ch0 ∨ c = ch1 then true else hw.enabled c := by
  unfold bkPwmCwStart
  simp only [Bool.not_true, Bool.false_eq_true, if_false]
  by_cases hflag : hw.groupFlag = true
  · rw [if_pos hflag]
    rw [hgroup, pwmCheckGroup_iff h0 h1] at hflag
    obtain ⟨hne, hsame⟩ := hflag
    have henable : pwmGroupModeEnable hw ch0 = setGroup hw ch0 true :=
      if_neg (not_ge_pwmCount h0)
    rw [henable, setGroup_enabled hw h0 true hc]
    rw [getSetGroup_eq h0, getSetGroup_eq h1] at hsame
    rw [getSetGroup_eq h0, getSetGroup_eq hc]
    exact if_congr (by omega) rfl rfl
  · rw [if_neg hflag]
    simp only [pwmUnitEnable_eq _ h0, pwmUnitEnable_eq _ h1, Function.update_apply]
    split_ifs <;> first | rfl | omega

/-- The channels that a stop of the pair disables: the group of the first one if `group_flag` is
    set, whatever pair it is of, and the two if it is not. -/
theorem cwStop_enabled {hw : PwmHw} {ch0 ch1 : Nat} (h0 : ch0 < 6) (h1 : ch1 < 6) {c : Nat}
    (hc : c < 6) : (bkPwmCwStop true hw ch0 ch1).2.enabled c =
      if (if hw.groupFlag then getSetGroup c = getSetGroup ch0 else c = ch0 ∨ c = ch1) then false
      else hw.enabled c := by
  unfold bkPwmCwStop
  simp only [Bool.not_true, Bool.false_eq_true, if_false]
  by_cases hflag : hw.groupFlag = true
  · simp only [if_pos hflag]
    have hdisable : pwmGroupModeDisable hw ch0 = setGroup hw ch0 false :=
      if_neg (not_ge_pwmCount h0)
    rw [hdisable, setGroup_enabled hw h0 false hc]
  · simp only [if_neg hflag]
    simp only [pwmUnitDisable_eq _ h0, pwmUnitDisable_eq _ h1, Function.update_apply]
    split_ifs <;> first | rfl | omega

/-! ## The arithmetic of a pair -/

theorem onWindow (count cold dead : UInt32) :
    count - dead - (count - cold - dead) = cold := by
  grind

/-- Two on-times that fit into the period leave room for the dead time around them. -/
theorem pair_fits {count cold warm : UInt32} (hcount : count.toNat ≤ 26000000)
    (hsum : cold.toNat + warm.toNat ≤ count.toNat) :
    ¬count < cold + warm + 2 * ((count - cold - warm) / 2) ∧
      count - cold - (count - cold - warm) / 2 ≤ count := by
  have hadd : (cold + warm).toNat = cold.toNat + warm.toNat := by
    rw [UInt32.toNat_add]
    omega
  have hle : cold ≤ count := UInt32.le_iff_toNat_le.mpr (by omega)
  have hsub : (count - cold).toNat = count.toNat - cold.toNat := UInt32.toNat_sub_of_le _ _ hle
  have hle' : warm ≤ count - cold := UInt32.le_iff_toNat_le.mpr (by omega)
  have hdead : ((count - cold - warm) / 2).toNat =
      (count.toNat - cold.toNat - warm.toNat) / 2 := by
    rw [UInt32.toNat_div, UInt32.toNat_sub_of_le _ _ hle', hsub]
    rfl
  have hdeadle : (count - cold - warm) / 2 ≤ count - cold :=
    UInt32.le_iff_toNat_le.mpr (by omega)
  constructor
  · rw [UInt32.not_lt, UInt32.le_iff_toNat_le, UInt32.toNat_add, UInt32.toNat_mul, hadd, hdead,
      show (2 : UInt32).toNat = 2 from rfl]
    omega
  · rw [UInt32.le_iff_toNat_le, UInt32.toNat_sub_of_le _ _ hdeadle, hsub]
    omega

/-! ## The calls with one channel -/

theorem comError_ne_ok : ¬oprtComError = oprtOk := by decide

/-- A call that leaves flags and outputs leaves the flags true. -/
theorem FlagsTrue.congr {s s' : PwmState} (h : FlagsTrue s)
    (hflag : s'.pwmStartFlag.entry = s.pwmStartFlag.entry)
    (henabled : s'.hw.enabled = s.hw.enabled) : FlagsTrue s' := by
  unfold FlagsTrue flagged started
  rw [hflag, henabled]
  exact h

/-- The flag of a channel and its output change together. -/
theorem FlagsTrue.set {s s' : PwmState} (h : FlagsTrue s) {ch : Nat} {flag : UInt8} {on : Bool}
    (hflag : s'.pwmStartFlag.entry = Function.update s.pwmStartFlag.entry ch flag)
    (henabled : s'.hw.enabled = Function.update s.hw.enabled ch on)
    (heq : flag ≠ 0 ↔ on = true) : FlagsTrue s' := by
  intro c hc
  unfold flagged started
  rw [hflag, henabled, Function.update_apply, Function.update_apply]
  split
  · exact heq
  · exact h c hc

/-- The flag of a channel whose output is off may be cleared. -/
theorem FlagsTrue.clear {s s' : PwmState} (h : FlagsTrue s) {ch : Nat}
    (hoff : ¬flagged s ch)
    (hflag : s'.pwmStartFlag.entry = Function.update s.pwmStartFlag.entry ch 0)
    (henabled : s'.hw.enabled = s.hw.enabled) : FlagsTrue s' := by
  intro c hc
  unfold flagged started
  rw [hflag, henabled, Function.update_apply]
  split
  · rename_i hcch
    rw [hcch] at hc ⊢
    exact iff_of_false (fun h0 => h0 rfl) (fun hon => hoff ((h ch hc).mpr hon))
  · exact h c hc

/-- The parameters that a start hands to the driver. -/
def singleTimes (cfg : PwmBaseCfg) : PwmTimes := ⟨cfg.dutyCount cfg.count, 0, 0, cfg.count⟩

theorem tklPwmStart_stopped (io : PwmIo) {s : PwmState} {chId : UInt8}
    (hch : chId.toNat < 6) (hflag : ¬flagged s chId.toNat) :
    tklPwmStart io s chId =
      let ch := chId.toNat
      let hw := initPwmParam s.hw ch (singleTimes (cfgOf s ch))
      let pwmCfg := (s.pwmCfg.read ch).2
      let pwmStartFlag := (s.pwmStartFlag.read ch).2
      if io.initOk = true ∧ io.startOk = true then
        (oprtOk, { pwmCfg, pwmStartFlag := pwmStartFlag.write ch 1, hw := pwmUnitEnable hw ch })
      else
        (oprtComError, { pwmCfg, pwmStartFlag := pwmStartFlag.write ch 0,
                         hw := if io.initOk then hw else s.hw }) := by
  have hnum : ¬chId.toNat > pwmDevNum := by unfold pwmDevNum; omega
  have hzero : s.pwmStartFlag.entry chId.toNat = 0 := not_not.mp hflag
  unfold tklPwmStart
  simp only [if_neg hnum, Table.read_fst, hzero, if_true]
  cases hinit : io.initOk with
  | false => rfl
  | true =>
    cases hstart : io.startOk with
    | false => rfl
    | true => rfl

theorem tklPwmStart_running (io : PwmIo) {s : PwmState} {chId : UInt8}
    (hch : chId.toNat < 6) (hflag : flagged s chId.toNat) :
    tklPwmStart io s chId =
      let ch := chId.toNat
      (oprtOk, { pwmCfg := (s.pwmCfg.read ch).2, pwmStartFlag := (s.pwmStartFlag.read ch).2,
                 hw := if io.updateOk then pwmUpdateParam s.hw ch (singleTimes (cfgOf s ch))
                  else s.hw }) := by
  have hnum : ¬chId.toNat > pwmDevNum := by unfold pwmDevNum; omega
  have hone : ¬s.pwmStartFlag.entry chId.toNat = 0 := hflag
  unfold tklPwmStart
  simp only [if_neg hnum, Table.read_fst, hone, if_false]
  cases hupdate : io.updateOk with
  | false => rfl
  | true => rfl

theorem toNat_singleTimes {cfg : PwmBaseCfg} (h : CfgOk cfg) :
    (singleTimes cfg).t1.toNat = onTime cfg ∧ (singleTimes cfg).t4.toNat = period cfg ∧
      (singleTimes cfg).t1 ≤ (singleTimes cfg).t4 := by
  have hcount := toNat_count cfg
  have hduty := toNat_dutyCount h hcount
  refine ⟨hduty, hcount, ?_⟩
  rw [UInt32.le_iff_toNat_le]
  show (cfg.dutyCount cfg.count).toNat ≤ cfg.count.toNat
  rw [hduty, hcount]
  exact onTime_le h

theorem start_ok {io : PwmIo} {s : PwmState} (h : FlagsTrue s) {chId : UInt32}
    (hch : chId.toUInt8.toNat < 6) (hcfg : CfgOk (cfgOf s chId.toUInt8.toNat))
    (hupdate : flagged s chId.toUInt8.toNat → io.updateOk = true) :
    StartOk s (io, .start chId) := by
  obtain ⟨ht1, ht4, hle⟩ := toNat_singleTimes hcfg
  unfold StartOk pwmStep pwmCall promised
  simp only
  by_cases hflag : flagged s chId.toUInt8.toNat
  · rw [tklPwmStart_running io hch hflag]
    simp only [hupdate hflag, if_true, pwmUpdateParam_eq _ hch]
    refine ⟨h.congr rfl rfl, fun _ => ⟨(h _ hch).mp hflag, ?_, ?_⟩⟩
    · simp only [Function.update_self]
      exact ht4
    · simp only [Function.update_self]
      exact ht1
  · rw [tklPwmStart_stopped io hch hflag]
    simp only [initPwmParam_eq _ hch hle, pwmUnitEnable_eq _ hch]
    split
    · refine ⟨h.set rfl rfl (by decide), fun _ => ⟨Function.update_self .., ?_, ?_⟩⟩
      · simp only [Function.update_self]
        exact ht4
      · simp only [Function.update_self]
        exact ht1
    · refine ⟨h.clear hflag rfl ?_, fun hret => absurd hret comError_ne_ok⟩
      split <;> rfl

theorem stop_ok {io : PwmIo} {s : PwmState} (h : FlagsTrue s) {chId : UInt32}
    (hch : chId.toUInt8.toNat < 6) (hstop : flagged s chId.toUInt8.toNat → io.stopOk = true) :
    StartOk s (io, .stop chId) := by
  have hnum : ¬chId.toUInt8.toNat > pwmDevNum := by unfold pwmDevNum; omega
  unfold StartOk pwmStep pwmCall tklPwmStop bkPwmStop promised
  simp only [if_neg hnum, if_neg (not_ge_pwmCount hch), pwmUnitDisable_eq _ hch]
  refine ⟨?_, fun _ => trivial⟩
  cases hok : io.stopOk with
  | true => exact h.set rfl rfl (by decide)
  | false =>
    refine h.clear ?_ rfl rfl
    intro hflag
    rw [hok] at hstop
    exact nomatch hstop hflag

/-! ## The calls with a pair -/

/-- The configurations of a pair have one frequency, and on-times that fit into one period. -/
structure PairFits (cfg0 cfg1 : PwmBaseCfg) : Prop where
  frequency : cfg0.frequency = cfg1.frequency
  sum : onTime cfg0 + onTime cfg1 ≤ period cfg0

/-- The on-times of a pair and the dead time between them, in counts. -/
structure PairCounts where
  cold : UInt32
  warm : UInt32
  dead : UInt32

/-- The counts that a start of the pair computes. -/
def pairCounts (cfg0 cfg1 : PwmBaseCfg) : PairCounts :=
  let cold := cfg0.dutyCount cfg0.count
  let warm := cfg1.dutyCount cfg0.count
  ⟨cold, warm, (cfg0.count - cold - warm) / 2⟩

/-- The times of the first channel, as `bk_pwm_cw_initialize` sets them. -/
def initTimes (count : UInt32) (p : PairCounts) : PwmTimes :=
  if p.cold = 0 then ⟨0, 0, 0, count⟩ else ⟨count - p.cold - p.dead, count - p.dead, 0, count⟩

/-- The times of the first channel, as `bk_pwm_cw_update_param` sets them. -/
def updateTimes (count : UInt32) (p : PairCounts) : PwmTimes :=
  let dead := if p.cold = 0 then 0 else p.dead
  ⟨count - p.cold - dead, count - dead, 0, count⟩

/-- Both channels have got their times, and `group_flag` is of them. -/
def setPair (hw : PwmHw) (ch0 ch1 : Nat) (times0 times1 : PwmTimes) : PwmHw where
  times := Function.update (Function.update hw.times ch0 times0) ch1 times1
  enabled := hw.enabled
  groupFlag := pwmCheckGroup ch0 ch1

theorem period_congr {cfg0 cfg1 : PwmBaseCfg} (h : cfg0.frequency = cfg1.frequency) :
    period cfg1 = period cfg0 := by
  unfold period
  rw [h]

theorem toNat_pairCounts {cfg0 cfg1 : PwmBaseCfg} (h0 : CfgOk cfg0) (h1 : CfgOk cfg1)
    (hfreq : cfg0.frequency = cfg1.frequency) :
    (pairCounts cfg0 cfg1).cold.toNat = onTime cfg0 ∧
      (pairCounts cfg0 cfg1).warm.toNat = onTime cfg1 := by
  have hcount := toNat_count cfg0
  refine ⟨toNat_dutyCount h0 hcount, toNat_dutyCount h1 ?_⟩
  rw [hcount, period_congr hfreq]

/-- The counts of a pair that fits pass the checks of the driver. -/
theorem pairCounts_fit {cfg0 cfg1 : PwmBaseCfg} (h0 : CfgOk cfg0) (h1 : CfgOk cfg1)
    (h : PairFits cfg0 cfg1) :
    let p := pairCounts cfg0 cfg1
    ¬cfg0.count < p.cold + p.warm + 2 * p.dead ∧ cfg0.count - p.cold - p.dead ≤ cfg0.count ∧
      p.warm ≤ cfg0.count := by
  intro p
  obtain ⟨hcold, hwarm⟩ := toNat_pairCounts h0 h1 h.frequency
  have hcount := toNat_count cfg0
  have hsum : p.cold.toNat + p.warm.toNat ≤ cfg0.count.toNat := by
    rw [hcold, hwarm, hcount]
    exact h.sum
  obtain ⟨hroom, hle⟩ := pair_fits (by rw [hcount]; exact period_le cfg0) hsum
  refine ⟨hroom, hle, ?_⟩
  rw [UInt32.le_iff_toNat_le]
  omega

theorem initTimes_spec (count : UInt32) (p : PairCounts)
    (hle : count - p.cold - p.dead ≤ count) :
    (initTimes count p).t2 - (initTimes count p).t1 = p.cold ∧
      (initTimes count p).t4 = count ∧ (initTimes count p).t1 ≤ (initTimes count p).t4 := by
  unfold initTimes
  split
  · rename_i hzero
    exact ⟨(UInt32.sub_self 0).trans hzero.symm, rfl, UInt32.zero_le⟩
  · exact ⟨onWindow .., rfl, hle⟩

theorem updateTimes_spec (count : UInt32) (p : PairCounts) :
    (updateTimes count p).t2 - (updateTimes count p).t1 = p.cold ∧
      (updateTimes count p).t4 = count := ⟨onWindow .., rfl⟩

theorem bkPwmCwInitialize_eq (hw : PwmHw) {ch0 ch1 : Nat} (hch0 : ch0 < 6) (hch1 : ch1 < 6)
    {count : UInt32} {p : PairCounts} (hroom : ¬count < p.cold + p.warm + 2 * p.dead)
    (hle : count - p.cold - p.dead ≤ count) (hwarm : p.warm ≤ count) :
    bkPwmCwInitialize true hw ch0 ch1 count p.cold p.warm p.dead =
      (kNoErr, setPair hw ch0 ch1 (initTimes count p) ⟨p.warm, count, 0, count⟩) := by
  have hok : ¬((!true) = true ∨ count < p.cold + p.warm + 2 * p.dead) :=
    not_or.mpr ⟨Bool.false_ne_true, hroom⟩
  unfold bkPwmCwInitialize
  rw [if_neg hok]
  simp only
  rw [show (if p.cold = 0 then (⟨0, 0, 0, count⟩ : PwmTimes)
    else ⟨count - p.cold - p.dead, count - p.dead, 0, count⟩) = initTimes count p from rfl,
    initPwmParam_eq _ hch0 (initTimes_spec count p hle).2.2, initPwmParam_eq _ hch1 hwarm]
  rfl

theorem bkPwmCwUpdateParam_eq (hw : PwmHw) {ch0 ch1 : Nat} (hch0 : ch0 < 6) (hch1 : ch1 < 6)
    {count : UInt32} {p : PairCounts} (hroom : ¬count < p.cold + p.warm + 2 * p.dead) :
    bkPwmCwUpdateParam true hw ch0 ch1 count p.cold p.warm p.dead =
      (kNoErr, setPair hw ch0 ch1 (updateTimes count p) ⟨p.warm, count, 0, count⟩) := by
  have hok : ¬((!true) = true ∨ count < p.cold + p.warm + 2 * p.dead) :=
    not_or.mpr ⟨Bool.false_ne_true, hroom⟩
  unfold bkPwmCwUpdateParam
  rw [if_neg hok]
  simp only [pwmUpdateParam_eq _ hch0, pwmUpdateParam_eq _ hch1]
  rfl

/-- The test of the adapter is that the on-times fit. -/
theorem sum_le_iff {cfg0 cfg1 : PwmBaseCfg} (h0 : CfgOk cfg0) (h1 : CfgOk cfg1)
    (hfreq : cfg0.frequency = cfg1.frequency) :
    cfg0.count ≥ cfg0.dutyCount cfg0.count + cfg1.dutyCount cfg0.count ↔
      onTime cfg0 + onTime cfg1 ≤ period cfg0 := by
  obtain ⟨hcold, hwarm⟩ := toNat_pairCounts h0 h1 hfreq
  have hle0 := onTime_le h0
  have hle1 := onTime_le h1
  have hperiod := period_le cfg0
  rw [period_congr hfreq] at hle1
  rw [ge_iff_le, UInt32.le_iff_toNat_le, UInt32.toNat_add, toNat_count]
  rw [show (cfg0.dutyCount cfg0.count).toNat = _ from hcold,
    show (cfg1.dutyCount cfg0.count).toNat = _ from hwarm, Nat.mod_eq_of_lt (by omega)]

section Start

variable (io : PwmIo) {s : PwmState} {chId0 chId1 : UInt8}
  (hch0 : chId0.toNat < 6) (hch1 : chId1.toNat < 6)
  (h0 : CfgOk (cfgOf s chId0.toNat)) (h1 : CfgOk (cfgOf s chId1.toNat))

include hch0 hch1 in
theorem not_gt_pwmDevNum : ¬(chId0.toNat > pwmDevNum ∨ chId1.toNat > pwmDevNum) := by
  unfold pwmDevNum
  omega

include hch0 hch1 h0 h1

/-- A pair that does not fit is refused, and all but the record of accesses is left. -/
theorem multichannelStart_unfit (h : ¬PairFits (cfgOf s chId0.toNat) (cfgOf s chId1.toNat)) :
    ∃ s', tklPwmMultichannelStart io s chId0 chId1 2 = (oprtComError, s') ∧
      s'.pwmStartFlag.entry = s.pwmStartFlag.entry ∧ s'.hw = s.hw := by
  have hnum := not_gt_pwmDevNum hch0 hch1
  refine ⟨{ s with pwmCfg := ((s.pwmCfg.read chId0.toNat).2.read chId1.toNat).2 }, ?_, rfl, rfl⟩
  unfold tklPwmMultichannelStart
  simp only [if_true, if_neg hnum, Table.read_fst, Table.entry_read]
  by_cases hfreq : (s.pwmCfg.entry chId0.toNat).frequency = (s.pwmCfg.entry chId1.toNat).frequency
  · have hsum := (sum_le_iff h0 h1 hfreq).not.mpr fun hsum => h ⟨hfreq, hsum⟩
    simp only [ne_eq, hfreq, not_true_eq_false, if_false]
    exact if_neg hsum
  · simp only [ne_eq, hfreq, not_false_eq_true, if_true]

/-- A pair that fits passes the checks. -/
theorem multichannelStart_fit (h : PairFits (cfgOf s chId0.toNat) (cfgOf s chId1.toNat)) :
    tklPwmMultichannelStart io s chId0 chId1 2 =
      let p := pairCounts (cfgOf s chId0.toNat) (cfgOf s chId1.toNat)
      pwmPairStart io { s with pwmCfg := ((s.pwmCfg.read chId0.toNat).2.read chId1.toNat).2 }
        chId0.toNat chId1.toNat (cfgOf s chId0.toNat).count p.cold p.warm p.dead := by
  have hnum := not_gt_pwmDevNum hch0 hch1
  have hfreq : (s.pwmCfg.entry chId0.toNat).frequency = (s.pwmCfg.entry chId1.toNat).frequency :=
    h.frequency
  have hsum := (sum_le_iff h0 h1 h.frequency).mpr h.sum
  unfold tklPwmMultichannelStart
  simp only [if_true, if_neg hnum, Table.read_fst, Table.entry_read]
  simp only [ne_eq, hfreq, not_true_eq_false, if_false]
  exact if_pos hsum

end Start

/-- The end of the call, where the flag of the first channel is clear. -/
theorem pwmPairStart_stopped (io : PwmIo) {s : PwmState} {ch0 ch1 : Nat} (hch0 : ch0 < 6)
    (hch1 : ch1 < 6) {count : UInt32} {p : PairCounts}
    (hroom : ¬count < p.cold + p.warm + 2 * p.dead) (hle : count - p.cold - p.dead ≤ count)
    (hwarm : p.warm ≤ count) (hflag : ¬flagged s ch0) :
    pwmPairStart io s ch0 ch1 count p.cold p.warm p.dead =
      let hw := setPair s.hw ch0 ch1 (initTimes count p) ⟨p.warm, count, 0, count⟩
      let pwmStartFlag := (s.pwmStartFlag.read ch0).2
      if io.initOk = true ∧ io.startOk = true then
        (oprtOk, { s with pwmStartFlag := (pwmStartFlag.write ch0 1).write ch1 1
                          hw := (bkPwmCwStart true hw ch0 ch1).2 })
      else
        (oprtComError, { s with pwmStartFlag := (pwmStartFlag.write ch0 0).write ch1 0
                                hw := if io.initOk then hw else s.hw }) := by
  have hzero : s.pwmStartFlag.entry ch0 = 0 := not_not.mp hflag
  unfold pwmPairStart
  simp only [Table.read_fst, hzero, if_true]
  cases hinit : io.initOk with
  | false => rfl
  | true =>
    rw [bkPwmCwInitialize_eq s.hw hch0 hch1 hroom hle hwarm]
    cases hstart : io.startOk with
    | false => rfl
    | true =>
      simp only [if_true]
      have hret : (bkPwmCwStart true (setPair s.hw ch0 ch1 (initTimes count p)
          ⟨p.warm, count, 0, count⟩) ch0 ch1).1 = kNoErr := by
        unfold bkPwmCwStart
        simp only [Bool.not_true, Bool.false_eq_true, if_false]
        split <;> rfl
      simp only [hret, if_true, and_self]
      rfl

/-- The end of the call, where the flag of the first channel is set. -/
theorem pwmPairStart_running (io : PwmIo) {s : PwmState} {ch0 ch1 : Nat} (hch0 : ch0 < 6)
    (hch1 : ch1 < 6) {count : UInt32} {p : PairCounts}
    (hroom : ¬count < p.cold + p.warm + 2 * p.dead) (hflag : flagged s ch0) :
    pwmPairStart io s ch0 ch1 count p.cold p.warm p.dead =
      let hw := setPair s.hw ch0 ch1 (updateTimes count p) ⟨p.warm, count, 0, count⟩
      let pwmStartFlag := (s.pwmStartFlag.read ch0).2
      if io.updateOk then (oprtOk, { s with pwmStartFlag, hw })
      else (oprtComError, { s with pwmStartFlag }) := by
  have hone : ¬s.pwmStartFlag.entry ch0 = 0 := hflag
  unfold pwmPairStart
  simp only [Table.read_fst, hone, if_false]
  cases hupdate : io.updateOk with
  | false => rfl
  | true =>
    rw [bkPwmCwUpdateParam_eq s.hw hch0 hch1 hroom]
    rfl

theorem cwStart_times (hw : PwmHw) {ch0 ch1 : Nat} (hch0 : ch0 < 6) (hch1 : ch1 < 6) :
    (bkPwmCwStart true hw ch0 ch1).2.times = hw.times := by
  unfold bkPwmCwStart pwmGroupModeEnable
  simp only [pwmUnitEnable_eq _ hch0, pwmUnitEnable_eq _ hch1, if_neg (not_ge_pwmCount hch0)]
  split
  · rfl
  · split <;> rfl

/-- The two channels of a pair that has got its times, once they are started. -/
theorem pair_runs {s s' : PwmState} {ch0 ch1 : Nat} (hne : ch0 ≠ ch1)
    (h0 : CfgOk (cfgOf s ch0)) (h1 : CfgOk (cfgOf s ch1))
    (h : PairFits (cfgOf s ch0) (cfgOf s ch1)) {times0 : PwmTimes}
    (ht0 : times0.t2 - times0.t1 = (pairCounts (cfgOf s ch0) (cfgOf s ch1)).cold ∧
      times0.t4 = (cfgOf s ch0).count)
    (hcfg : s'.pwmCfg.entry = s.pwmCfg.entry)
    (htimes : s'.hw.times = (setPair s.hw ch0 ch1 times0
      ⟨(pairCounts (cfgOf s ch0) (cfgOf s ch1)).warm, (cfgOf s ch0).count, 0,
        (cfgOf s ch0).count⟩).times)
    (hon0 : started s' ch0) (hon1 : started s' ch1) : RunsFirst s' ch0 ∧ Runs s' ch1 := by
  obtain ⟨hcold, hwarm⟩ := toNat_pairCounts h0 h1 h.frequency
  have hcfg' : ∀ ch, cfgOf s' ch = cfgOf s ch := fun ch => congrFun hcfg ch
  have hat0 : s'.hw.times ch0 = times0 := by
    rw [htimes]
    unfold setPair
    simp only [Function.update_of_ne hne, Function.update_self]
  have hat1 : s'.hw.times ch1 = ⟨(pairCounts (cfgOf s ch0) (cfgOf s ch1)).warm,
      (cfgOf s ch0).count, 0, (cfgOf s ch0).count⟩ := by
    rw [htimes]
    unfold setPair
    simp only [Function.update_self]
  refine ⟨⟨hon0, ?_, ?_⟩, ⟨hon1, ?_, ?_⟩⟩
  · rw [hat0, hcfg', ht0.2, toNat_count]
  · rw [hat0, hcfg', ht0.1, hcold]
  · rw [hat1, hcfg', toNat_count, period_congr h.frequency]
  · rw [hat1, hcfg', hwarm]

/-- What the flags and the calls of the driver must be for a start of a pair. -/
structure PairFlags (io : PwmIo) (s : PwmState) (ch0 ch1 : Nat) : Prop where
  stopped : ¬flagged s ch0 → ¬flagged s ch1 ∨ (io.initOk = true ∧ io.startOk = true)
  running : flagged s ch0 → flagged s ch1 ∨ io.updateOk = false

/-- The flags of two channels and their outputs change together. -/
theorem FlagsTrue.setPair {s s' : PwmState} (h : FlagsTrue s) {ch0 ch1 : Nat} {flag : UInt8}
    {on : Bool} (hflag : s'.pwmStartFlag.entry =
      Function.update (Function.update s.pwmStartFlag.entry ch0 flag) ch1 flag)
    (henabled : ∀ c < 6, s'.hw.enabled c = if c = ch0 ∨ c = ch1 then on else s.hw.enabled c)
    (heq : flag ≠ 0 ↔ on = true) : FlagsTrue s' := by
  intro c hc
  unfold flagged started
  rw [hflag, henabled c hc, Function.update_apply, Function.update_apply]
  by_cases h1 : c = ch1
  · rw [if_pos h1, if_pos (.inr h1)]
    exact heq
  · by_cases h0 : c = ch0
    · rw [if_neg h1, if_pos h0, if_pos (.inl h0)]
      exact heq
    · rw [if_neg h1, if_neg h0, if_neg (not_or.mpr ⟨h0, h1⟩)]
      exact h c hc

/-- The flags of two channels whose outputs are off may be cleared. -/
theorem FlagsTrue.clearPair {s s' : PwmState} (h : FlagsTrue s) {ch0 ch1 : Nat}
    (hoff0 : ¬flagged s ch0) (hoff1 : ¬flagged s ch1)
    (hflag : s'.pwmStartFlag.entry =
      Function.update (Function.update s.pwmStartFlag.entry ch0 0) ch1 0)
    (henabled : s'.hw.enabled = s.hw.enabled) : FlagsTrue s' := by
  have hclear : FlagsTrue { s with pwmStartFlag := s.pwmStartFlag.write ch0 0 } :=
    h.clear hoff0 rfl rfl
  refine hclear.clear ?_ hflag henabled
  unfold flagged
  rw [Table.entry_write, Function.update_apply]
  split
  · exact not_not.mpr rfl
  · exact hoff1

theorem pwmPairStart_ok {io : PwmIo} {s : PwmState} (h : FlagsTrue s) {ch0 ch1 : Nat}
    (hch0 : ch0 < 6) (hch1 : ch1 < 6) (hne : ch0 ≠ ch1) (h0 : CfgOk (cfgOf s ch0))
    (h1 : CfgOk (cfgOf s ch1)) (hfits : PairFits (cfgOf s ch0) (cfgOf s ch1))
    (hflags : PairFlags io s ch0 ch1) :
    let p := pairCounts (cfgOf s ch0) (cfgOf s ch1)
    let r := pwmPairStart io s ch0 ch1 (cfgOf s ch0).count p.cold p.warm p.dead
    FlagsTrue r.2 ∧ (r.1 = oprtOk → RunsFirst r.2 ch0 ∧ Runs r.2 ch1) := by
  intro p r
  obtain ⟨hroom, hle, hwarm⟩ := pairCounts_fit h0 h1 hfits
  by_cases hflag : flagged s ch0
  · have hr : r = _ := pwmPairStart_running io hch0 hch1 hroom hflag
    rw [hr]
    simp only
    split
    · rename_i hupdate
      have hflag1 : flagged s ch1 := by
        rcases hflags.running hflag with h | h
        · exact h
        · rw [h] at hupdate
          exact nomatch hupdate
      refine ⟨h.congr rfl rfl, fun _ => ?_⟩
      exact pair_runs hne h0 h1 hfits (updateTimes_spec ..) rfl rfl ((h _ hch0).mp hflag)
        ((h _ hch1).mp hflag1)
    · exact ⟨h.congr rfl rfl, fun hret => absurd hret comError_ne_ok⟩
  · have hr : r = _ := pwmPairStart_stopped io hch0 hch1 hroom hle hwarm hflag
    rw [hr]
    simp only
    split
    · have henabled : ∀ c < 6, _ := fun c hc => cwStart_enabled hch0 hch1
        (show (setPair s.hw ch0 ch1 (initTimes (cfgOf s ch0).count p)
          ⟨p.warm, (cfgOf s ch0).count, 0, (cfgOf s ch0).count⟩).groupFlag = _ from rfl) hc
      refine ⟨h.setPair rfl henabled (by decide), fun _ => ?_⟩
      have htimes := initTimes_spec (cfgOf s ch0).count p hle
      have htimes' := cwStart_times (setPair s.hw ch0 ch1 (initTimes (cfgOf s ch0).count p)
        ⟨p.warm, (cfgOf s ch0).count, 0, (cfgOf s ch0).count⟩) hch0 hch1
      have hon0 := (henabled ch0 hch0).trans (if_pos (.inl rfl))
      have hon1 := (henabled ch1 hch1).trans (if_pos (.inr rfl))
      exact pair_runs hne h0 h1 hfits ⟨htimes.1, htimes.2.1⟩ rfl htimes' hon0 hon1
    · rename_i hfail
      have hflag1 : ¬flagged s ch1 := (hflags.stopped hflag).resolve_right hfail
      refine ⟨h.clearPair hflag hflag1 rfl ?_, fun hret => absurd hret comError_ne_ok⟩
      split <;> rfl

theorem multichannelStart_ok {io : PwmIo} {s : PwmState} (h : FlagsTrue s)
    {chId0 chId1 : UInt32} (hch0 : chId0.toUInt8.toNat < 6) (hch1 : chId1.toUInt8.toNat < 6)
    (hne : chId0.toUInt8.toNat ≠ chId1.toUInt8.toNat) (h0 : CfgOk (cfgOf s chId0.toUInt8.toNat))
    (h1 : CfgOk (cfgOf s chId1.toUInt8.toNat))
    (hflags : PairFits (cfgOf s chId0.toUInt8.toNat) (cfgOf s chId1.toUInt8.toNat) →
      PairFlags io s chId0.toUInt8.toNat chId1.toUInt8.toNat) :
    StartOk s (io, .multichannelStart chId0 chId1 2) := by
  unfold StartOk pwmStep pwmCall promised
  simp only
  by_cases hfits : PairFits (cfgOf s chId0.toUInt8.toNat) (cfgOf s chId1.toUInt8.toNat)
  · obtain ⟨hstopped, hrunning⟩ := hflags hfits
    rw [multichannelStart_fit io hch0 hch1 h0 h1 hfits]
    let s' := { s with
      pwmCfg := ((s.pwmCfg.read chId0.toUInt8.toNat).2.read chId1.toUInt8.toNat).2 }
    have hflags' : PairFlags io s' chId0.toUInt8.toNat chId1.toUInt8.toNat := ⟨hstopped, hrunning⟩
    have hs' : FlagsTrue s' := h.congr rfl rfl
    exact pwmPairStart_ok hs' hch0 hch1 hne h0 h1 hfits hflags'
  · obtain ⟨s', hret, hentry, hhw⟩ := multichannelStart_unfit io hch0 hch1 h0 h1 hfits
    rw [hret]
    exact ⟨h.congr hentry (by rw [hhw]), fun hret => absurd hret comError_ne_ok⟩

/-- What a stop of a pair leaves is right if the driver stops the pair, and nothing but the
    pair. -/
structure PairStops (io : PwmIo) (s : PwmState) (ch0 ch1 : Nat) : Prop where
  failed : io.stopOk = false → ¬flagged s ch0 ∧ ¬flagged s ch1
  group : io.stopOk = true → s.hw.groupFlag = true → ∀ c < 6, flagged s c →
    (getSetGroup c = getSetGroup ch0 ↔ c = ch0 ∨ c = ch1)

theorem multichannelStop_ok {io : PwmIo} {s : PwmState} (h : FlagsTrue s)
    {chId0 chId1 : UInt32} (hch0 : chId0.toUInt8.toNat < 6) (hch1 : chId1.toUInt8.toNat < 6)
    (hstops : PairStops io s chId0.toUInt8.toNat chId1.toUInt8.toNat) :
    StartOk s (io, .multichannelStop chId0 chId1 2) := by
  have hnum := not_gt_pwmDevNum hch0 hch1
  unfold StartOk pwmStep pwmCall tklPwmMultichannelStop promised
  simp only [if_true, if_neg hnum]
  refine ⟨?_, fun _ => trivial⟩
  cases hok : io.stopOk with
  | false =>
    obtain ⟨hoff0, hoff1⟩ := hstops.failed hok
    exact h.clearPair hoff0 hoff1 rfl rfl
  | true =>
    have henabled : ∀ c < 6,
        (bkPwmCwStop true s.hw chId0.toUInt8.toNat chId1.toUInt8.toNat).2.enabled c =
          if c = chId0.toUInt8.toNat ∨ c = chId1.toUInt8.toNat then false else s.hw.enabled c := by
      intro c hc
      rw [cwStop_enabled hch0 hch1 hc]
      by_cases hflag : flagged s c
      · refine if_congr ?_ rfl rfl
        split
        · rename_i hgroup
          exact hstops.group hok hgroup c hc hflag
        · exact Iff.rfl
      · have hoff : s.hw.enabled c = false :=
          Bool.eq_false_iff.mpr fun hon => hflag ((h c hc).mpr hon)
        rw [hoff, ite_self, ite_self]
    exact h.setPair rfl henabled (by decide)

/-! ## Runs -/

/-- What the flags and the calls of the driver must be for a start or a stop to do what it says.
    The channels are among the six; a channel that is started has a configuration. -/
def PwmCond (s : PwmState) : PwmInput → Prop
  | (_, .init chId _) | (_, .dutySet chId _) | (_, .frequencySet chId _)
  | (_, .infoSet chId _) | (_, .infoGet chId) => chId.toUInt8.toNat < 6
  | (io, .start chId) => chId.toUInt8.toNat < 6 ∧ CfgOk (cfgOf s chId.toUInt8.toNat) ∧
      (flagged s chId.toUInt8.toNat → io.updateOk = true)
  | (io, .stop chId) => chId.toUInt8.toNat < 6 ∧ (flagged s chId.toUInt8.toNat → io.stopOk = true)
  | (io, .multichannelStart chId0 chId1 num) => num = 2 →
      (chId0.toUInt8.toNat < 6 ∧ chId1.toUInt8.toNat < 6 ∧
        chId0.toUInt8.toNat ≠ chId1.toUInt8.toNat) ∧
      CfgOk (cfgOf s chId0.toUInt8.toNat) ∧ CfgOk (cfgOf s chId1.toUInt8.toNat) ∧
      (PairFits (cfgOf s chId0.toUInt8.toNat) (cfgOf s chId1.toUInt8.toNat) →
        PairFlags io s chId0.toUInt8.toNat chId1.toUInt8.toNat)
  | (io, .multichannelStop chId0 chId1 num) => num = 2 →
      (chId0.toUInt8.toNat < 6 ∧ chId1.toUInt8.toNat < 6) ∧
      PairStops io s chId0.toUInt8.toNat chId1.toUInt8.toNat

/-- A call that only touches the configurations keeps the flags true. -/
theorem cfgCall_ok {s : PwmState} (h : FlagsTrue s) {i : PwmInput}
    (hcall : promised (pwmStep s i).1 i.2 = True)
    (hkeep : (pwmStep s i).1.pwmStartFlag = s.pwmStartFlag ∧ (pwmStep s i).1.hw = s.hw) :
    StartOk s i := by
  refine ⟨h.congr (by rw [hkeep.1]) (by rw [hkeep.2]), fun _ => ?_⟩
  rw [hcall]
  trivial

theorem cfgModify_keeps (s : PwmState) (chId : UInt8) (f : PwmBaseCfg → PwmBaseCfg) :
    (pwmCfgModify s chId f).2.pwmStartFlag = s.pwmStartFlag ∧
      (pwmCfgModify s chId f).2.hw = s.hw := by
  unfold pwmCfgModify
  simp only
  split <;> exact ⟨rfl, rfl⟩

theorem init_keeps (s : PwmState) (chId : UInt8) (cfg : PwmBaseCfg) :
    (tklPwmInit s chId cfg).2.pwmStartFlag = s.pwmStartFlag ∧
      (tklPwmInit s chId cfg).2.hw = s.hw := by
  unfold tklPwmInit
  split <;> exact ⟨rfl, rfl⟩

theorem infoGet_keeps (s : PwmState) (chId : UInt8) :
    (tklPwmInfoGet s chId).2.2.pwmStartFlag = s.pwmStartFlag ∧
      (tklPwmInfoGet s chId).2.2.hw = s.hw := by
  unfold tklPwmInfoGet
  simp only
  split <;> exact ⟨rfl, rfl⟩

/-- One call that meets the condition: the flags stay true, and a start keeps its promise. -/
theorem pwmStep_ok {s : PwmState} {i : PwmInput} (h : FlagsTrue s) (hc : PwmCond s i) :
    StartOk s i := by
  obtain ⟨io, c⟩ := i
  cases c with
  | init chId cfg => exact cfgCall_ok h rfl (init_keeps ..)
  | infoSet chId info => exact cfgCall_ok h rfl (init_keeps ..)
  | dutySet chId duty => exact cfgCall_ok h rfl (cfgModify_keeps ..)
  | frequencySet chId frequency => exact cfgCall_ok h rfl (cfgModify_keeps ..)
  | infoGet chId => exact cfgCall_ok h rfl (infoGet_keeps ..)
  | start chId => exact start_ok h hc.1 hc.2.1 hc.2.2
  | stop chId => exact stop_ok h hc.1 hc.2
  | multichannelStart chId0 chId1 num =>
    by_cases hnum : num = 2
    · obtain ⟨⟨hch0, hch1, hne⟩, h0, h1, hflags⟩ := hc hnum
      rw [hnum]
      exact multichannelStart_ok h hch0 hch1 hne h0 h1 hflags
    · unfold StartOk pwmStep pwmCall tklPwmMultichannelStart
      simp only [if_neg hnum]
      exact ⟨h, fun hret => absurd hret (by decide)⟩
  | multichannelStop chId0 chId1 num =>
    by_cases hnum : num = 2
    · obtain ⟨⟨hch0, hch1⟩, hstops⟩ := hc hnum
      rw [hnum]
      exact multichannelStop_ok h hch0 hch1 hstops
    · unfold StartOk pwmStep pwmCall tklPwmMultichannelStop
      simp only [if_neg hnum]
      exact ⟨h, fun _ => trivial⟩

/-- The state before the first call: any configurations, no flag set and no output enabled. -/
structure PwmReset (s : PwmState) : Prop where
  flags : ∀ ch < 6, s.pwmStartFlag.entry ch = 0
  outputs : ∀ ch < 6, s.hw.enabled ch = false

theorem PwmReset.flagsTrue {s : PwmState} (h : PwmReset s) : FlagsTrue s := fun ch hch =>
  iff_of_false (fun hflag => hflag (h.flags ch hch))
    (fun hon => Bool.false_ne_true ((h.outputs ch hch).symm.trans hon))

/-- In every run whose calls meet the condition, each flag tells whether its output is started, and
    each start that returns `OPRT_OK` leaves its channels running with their configurations. -/
theorem pwm_start_state {s : PwmState} (h : PwmReset s) {is : List PwmInput}
    (hc : Along pwmStep PwmCond s is) : Along pwmStep StartOk s is :=
  along_of_inv (I := FlagsTrue)
    (fun _ _ hflags hcond => ⟨(pwmStep_ok hflags hcond).1, pwmStep_ok hflags hcond⟩)
    h.flagsTrue hc

/-- The tables as the program starts, without a configuration. -/
def pwmReset : PwmState where
  pwmCfg := .of _ fun _ => ⟨.negative, 0, 0⟩
  pwmStartFlag := .of _ fun _ => 0
  hw := ⟨fun _ => ⟨0, 0, 0, 0⟩, fun _ => false, false⟩

/-- Half of 1 kHz. -/
def halfDuty : PwmBaseCfg := ⟨.negative, 5000, 1000⟩

theorem halfDuty_ok : CfgOk halfDuty := ⟨by decide, by decide, by decide⟩

/-- One channel on its own, and then it and its neighbour as a pair. -/
def pairAfterStop : List PwmInput :=
  [({}, .init 0 halfDuty), ({}, .init 1 halfDuty), ({}, .start 0), ({}, .stop 0),
    ({}, .multichannelStart 0 1 2), ({}, .multichannelStop 0 1 2)]

theorem pwm_start_state_sample : Along pwmStep StartOk pwmReset pairAfterStop := by
  refine pwm_start_state ⟨fun _ _ => rfl, fun _ _ => rfl⟩ ?_
  have h0 : (0 : UInt32).toNat < 6 := by decide
  have h1 : (1 : UInt32).toNat < 6 := by decide
  refine ⟨h0, h1, ⟨h0, halfDuty_ok, fun _ => rfl⟩, ⟨h0, fun _ => rfl⟩,
    fun _ => ⟨⟨h0, h1, by decide⟩, halfDuty_ok, halfDuty_ok, fun _ => ⟨?_, ?_⟩⟩,
    fun _ => ⟨⟨h0, h1⟩, ?_, ?_⟩, trivial⟩
  · exact fun _ => .inr ⟨rfl, rfl⟩
  · exact fun hflag => absurd rfl hflag
  · exact (fun hfail => nomatch hfail)
  · exact fun _ _ c hc _ => (show ∀ c < 6, getSetGroup c = 0 ↔ c = 0 ∨ c = 1 by decide) c hc

/-- The start of a pair whose first channel runs returns `OPRT_OK`, and the second one is off,
    though every call of the driver has succeeded. -/
theorem pwm_start_state_pair : ¬Along pwmStep StartOk pwmReset
    [({}, .init 0 halfDuty), ({}, .init 1 halfDuty), ({}, .start 0),
      ({}, .multichannelStart 0 1 2)] := by
  intro hrun
  obtain ⟨-, -, -, ⟨-, hruns⟩, -⟩ := hrun
  have hon : started _ 1 := (hruns (by decide)).2.started
  exact absurd hon Bool.false_ne_true

end ArduinoT2.Driver
