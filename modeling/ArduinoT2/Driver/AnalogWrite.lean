import ArduinoT2.Driver.PwmStart

/-
  `analogWrite` (wiring_analog.cpp) and the outputs of the PWM channels.

  A value from 0 to 100 is to be the on-time in percent of a period of 1 ms. The duty is taken
  modulo 10000, and 100 percent is 10000: the output that is to be on all the time is off all the
  time. `analog_write_iff` says that this is the only value that is not programmed as asked.
  The calls of the driver succeed, as they do in BkDriverPwm.c.
-/

namespace ArduinoT2.Driver

open StepSys ArduinoT2.Adapter ArduinoT2.Vendor

/-! ## The call -/

/-- The channels of the PWM pins. -/
def analogPwm (pinNumber : UInt8) : Option UInt8 :=
  if pinNumber = 6 then some 0
  else if pinNumber = 7 then some 1
  else if pinNumber = 8 then some 2
  else if pinNumber = 9 then some 3
  else if pinNumber = 24 then some 4
  else if pinNumber = 26 then some 5
  else none

/-- The configuration for a value, with `DEFAULT_PWM_FREQ`. -/
def pwmCfgFor (value : Int32) : PwmBaseCfg where
  frequency := 1000
  polarity := .negative
  duty := (value * 100 % 10000).toUInt32

/-- `analogWrite`. -/
def analogWrite (s : PwmState) (pinNumber : UInt8) (value : Int32) : PwmState :=
  match analogPwm pinNumber with
  | none => s
  | some pwmNum =>
    let (_, s) := tklPwmInit s pwmNum (pwmCfgFor value)
    (tklPwmStart {} s pwmNum).2

/-- A call with a PWM pin and a value from 0 to 100. -/
structure AnalogInput where
  pinNumber : UInt8
  value : Int32
  isPwm : (analogPwm pinNumber).isSome
  nonneg : 0 ≤ value
  le : value ≤ 100

/-- The state, with the last value that has been written to each pin. -/
structure AnalogRun where
  pwm : PwmState
  last : UInt8 → Option Int32

/-- One call. -/
def analogStep (r : AnalogRun) (w : AnalogInput) : AnalogRun × Unit :=
  (⟨analogWrite r.pwm w.pinNumber w.value, Function.update r.last w.pinNumber (some w.value)⟩, ())

/-- The channel runs with a period of 26000 counts and is on for 260 of them for each percent. -/
structure RunsAt (s : PwmState) (ch : Nat) (value : Int32) : Prop where
  started : started s ch
  period : (s.hw.times ch).t4 = 26000
  onTime : ((s.hw.times ch).t1.toNat : Int) = 260 * value.toInt

/-- Each pin that has been written runs with the last value. -/
def Programmed (r : AnalogRun) : Prop :=
  ∀ pin pwmNum value, analogPwm pin = some pwmNum → r.last pin = some value →
    RunsAt r.pwm pwmNum.toNat value

/-- Behind the call each pin that has been written runs with its value, and the call has left the
    outputs of the other pins. -/
def AsAsked (r : AnalogRun) (w : AnalogInput) : Prop :=
  Programmed (analogStep r w).1 ∧
    ∀ pin pwmNum, pin ≠ w.pinNumber → analogPwm pin = some pwmNum →
      (analogStep r w).1.pwm.hw.times pwmNum.toNat = r.pwm.hw.times pwmNum.toNat ∧
        (analogStep r w).1.pwm.hw.enabled pwmNum.toNat = r.pwm.hw.enabled pwmNum.toNat

/-! ## The configuration -/

theorem analogPwm_lt {pin : UInt8} {pwmNum : UInt8} (h : analogPwm pin = some pwmNum) :
    pwmNum.toNat < 6 := by
  unfold analogPwm at h
  split_ifs at h <;> cases h <;> decide

/-- The pin of a channel. -/
def analogPin : Nat → UInt8
  | 0 => 6
  | 1 => 7
  | 2 => 8
  | 3 => 9
  | 4 => 24
  | _ => 26

theorem analogPin_of_analogPwm {pin : UInt8} {pwmNum : UInt8} (h : analogPwm pin = some pwmNum) :
    analogPin pwmNum.toNat = pin := by
  unfold analogPwm at h
  split_ifs at h with h6 h7 h8 h9 h24 h26
  · cases h
    exact h6.symm
  · cases h
    exact h7.symm
  · cases h
    exact h8.symm
  · cases h
    exact h9.symm
  · cases h
    exact h24.symm
  · cases h
    exact h26.symm

/-- Different pins have different channels. -/
theorem analogPwm_ne {pin pin' : UInt8} {pwmNum pwmNum' : UInt8}
    (h : analogPwm pin = some pwmNum) (h' : analogPwm pin' = some pwmNum')
    (hne : pin ≠ pin') : pwmNum.toNat ≠ pwmNum'.toNat := by
  intro heq
  rw [← analogPin_of_analogPwm h, ← analogPin_of_analogPwm h', heq] at hne
  exact hne rfl

/-- The duty of a value in percent, which is 0 for 100. -/
theorem duty_pwmCfgFor {value : Int32} (hnonneg : 0 ≤ value) (hle : value ≤ 100) :
    (pwmCfgFor value).duty.toNat = value.toInt.toNat * 100 % 10000 := by
  have hall : ∀ n ≤ 100, (pwmCfgFor (Int32.ofNat n)).duty.toNat = n * 100 % 10000 := by decide
  rw [Int32.le_iff_toInt_le] at hnonneg hle
  have hpos : (0 : Int) ≤ value.toInt := hnonneg
  have hmax : value.toInt ≤ 100 := hle
  have hvalue : Int32.ofNat value.toInt.toNat = value := by
    rw [← Int32.ofInt_eq_ofNat, Int.toNat_of_nonneg hpos, Int32.ofInt_toInt]
  have hn := hall value.toInt.toNat (by omega)
  rwa [hvalue] at hn

/-- The counts for a value: the period is 26000, the on-time 260 for each percent below 100. -/
theorem cfgOk_pwmCfgFor {value : Int32} (hnonneg : 0 ≤ value) (hle : value ≤ 100) :
    CfgOk (pwmCfgFor value) ∧ (singleTimes (pwmCfgFor value)).t4 = 26000 ∧
      (singleTimes (pwmCfgFor value)).t1.toNat =
        26000 * (value.toInt.toNat * 100 % 10000) / 10000 := by
  have hduty := duty_pwmCfgFor hnonneg hle
  have hperiod : period (pwmCfgFor value) = 26000 := by
    show 26000000 / (1000 : UInt32).toNat = 26000
    decide
  have hok : CfgOk (pwmCfgFor value) := by
    refine ⟨?_, ?_, ?_⟩
    · exact (show (1000 : UInt32).toNat ≠ 0 by decide)
    · omega
    · rw [hperiod, hduty]
      omega
  refine ⟨hok, ?_, ?_⟩
  · show (26 * 1000000 / 1000 : UInt32) = 26000
    decide
  rw [(toNat_singleTimes hok).1, onTime, hperiod, hduty, Nat.mul_comm]

/-- Below 100 the on-time is 260 counts for each percent. -/
theorem onCount {value : Int32} (hnonneg : 0 ≤ value) (hle : value ≤ 100) (hne : value ≠ 100) :
    ((26000 * (value.toInt.toNat * 100 % 10000) / 10000 : Nat) : Int) = 260 * value.toInt := by
  rw [Int32.le_iff_toInt_le] at hnonneg hle
  have hpos : (0 : Int) ≤ value.toInt := hnonneg
  have hmax : value.toInt ≤ 100 := hle
  have hne' : value.toInt ≠ 100 := fun heq => hne (Int32.toInt_inj.mp heq)
  omega

/-! ## One call -/

/-- A start with a sound configuration programs the channel and enables it. -/
theorem tklPwmStart_spec {s : PwmState} (h : FlagsTrue s) {chId : UInt8} (hch : chId.toNat < 6)
    (hcfg : CfgOk (cfgOf s chId.toNat)) :
    let s' := (tklPwmStart {} s chId).2
    FlagsTrue s' ∧
      s'.hw.times = Function.update s.hw.times chId.toNat (singleTimes (cfgOf s chId.toNat)) ∧
      s'.hw.enabled = Function.update s.hw.enabled chId.toNat true := by
  have hstart : StartOk s ({}, .start chId.toUInt32) := by
    refine start_ok h ?_ ?_ fun _ => rfl
    · rwa [UInt8.toUInt8_toUInt32]
    · rwa [UInt8.toUInt8_toUInt32]
  have hflags : FlagsTrue (tklPwmStart {} s chId.toUInt32.toUInt8).2 := hstart.1
  rw [UInt8.toUInt8_toUInt32] at hflags
  refine ⟨hflags, ?_⟩
  by_cases hflag : flagged s chId.toNat
  · rw [tklPwmStart_running {} hch hflag]
    simp only [if_true, pwmUpdateParam_eq _ hch]
    refine ⟨trivial, ?_⟩
    -- the channel is enabled already
    have hon : s.hw.enabled chId.toNat = true := (h _ hch).mp hflag
    rw [← hon, Function.update_eq_self]
  · rw [tklPwmStart_stopped {} hch hflag]
    simp only [and_self, if_true, initPwmParam_eq _ hch (toNat_singleTimes hcfg).2.2,
      pwmUnitEnable_eq _ hch]

theorem analogWrite_spec {s : PwmState} (h : FlagsTrue s) (w : AnalogInput) {pwmNum : UInt8}
    (hpwm : analogPwm w.pinNumber = some pwmNum) :
    let s' := analogWrite s w.pinNumber w.value
    FlagsTrue s' ∧
      s'.hw.times = Function.update s.hw.times pwmNum.toNat (singleTimes (pwmCfgFor w.value)) ∧
      s'.hw.enabled = Function.update s.hw.enabled pwmNum.toNat true := by
  have hch := analogPwm_lt hpwm
  have hinit : tklPwmInit s pwmNum (pwmCfgFor w.value) =
      (oprtOk, { s with pwmCfg := s.pwmCfg.write pwmNum.toNat (pwmCfgFor w.value) }) := by
    refine if_neg ?_
    unfold pwmDevNum
    omega
  unfold analogWrite
  rw [hpwm]
  simp only [hinit]
  have hcfg : cfgOf { s with pwmCfg := s.pwmCfg.write pwmNum.toNat (pwmCfgFor w.value) }
      pwmNum.toNat = pwmCfgFor w.value := Function.update_self ..
  have hstart := tklPwmStart_spec (s := { s with
    pwmCfg := s.pwmCfg.write pwmNum.toNat (pwmCfgFor w.value) }) (h.congr rfl rfl) hch (by
      rw [hcfg]
      exact (cfgOk_pwmCfgFor w.nonneg w.le).1)
  rw [hcfg] at hstart
  exact hstart

/-- The flags are true, and each pin that has been written runs with its value. -/
structure AnalogOk (r : AnalogRun) : Prop where
  flags : FlagsTrue r.pwm
  programmed : Programmed r

theorem RunsAt.congr {s s' : PwmState} {ch : Nat} {value : Int32} (h : RunsAt s ch value)
    (htimes : s'.hw.times ch = s.hw.times ch) (henabled : s'.hw.enabled ch = s.hw.enabled ch) :
    RunsAt s' ch value :=
  ⟨henabled.trans h.started, htimes ▸ h.period, htimes ▸ h.onTime⟩

/-- A call programs its channel as asked if and only if the value is not 100. -/
theorem runsAt_analogWrite_iff {s : PwmState} (h : FlagsTrue s) (w : AnalogInput) {pwmNum : UInt8}
    (hpwm : analogPwm w.pinNumber = some pwmNum) :
    RunsAt (analogWrite s w.pinNumber w.value) pwmNum.toNat w.value ↔ w.value ≠ 100 := by
  obtain ⟨-, htimes, henabled⟩ := analogWrite_spec h w hpwm
  obtain ⟨-, hperiod, hon⟩ := cfgOk_pwmCfgFor w.nonneg w.le
  have hself : (analogWrite s w.pinNumber w.value).hw.times pwmNum.toNat =
      singleTimes (pwmCfgFor w.value) := by
    rw [htimes, Function.update_self]
  constructor
  · intro hruns hfull
    have honTime := hruns.onTime
    rw [hself, hon, hfull] at honTime
    exact absurd honTime (by decide)
  · intro hne
    refine ⟨?_, ?_, ?_⟩
    · unfold started
      rw [henabled, Function.update_self]
    · rw [hself, hperiod]
    · rw [hself, hon]
      exact onCount w.nonneg w.le hne

/-- A call leaves the outputs of the other pins. -/
theorem analogWrite_others {s : PwmState} (h : FlagsTrue s) (w : AnalogInput) {pin : UInt8}
    {pwmNum : UInt8} (hne : pin ≠ w.pinNumber) (hpwm : analogPwm pin = some pwmNum) :
    (analogWrite s w.pinNumber w.value).hw.times pwmNum.toNat = s.hw.times pwmNum.toNat ∧
      (analogWrite s w.pinNumber w.value).hw.enabled pwmNum.toNat =
        s.hw.enabled pwmNum.toNat := by
  obtain ⟨pwmNum', hpwm'⟩ := Option.isSome_iff_exists.mp w.isPwm
  obtain ⟨-, htimes, henabled⟩ := analogWrite_spec h w hpwm'
  have hch := analogPwm_ne hpwm hpwm' hne
  rw [htimes, henabled, Function.update_of_ne hch, Function.update_of_ne hch]
  exact ⟨rfl, rfl⟩

/-- A call programs the pin as asked, and leaves the others, if and only if the value is not 100. -/
theorem asAsked_iff {r : AnalogRun} (h : AnalogOk r) (w : AnalogInput) :
    AsAsked r w ↔ w.value ≠ 100 := by
  obtain ⟨pwmNum, hpwm⟩ := Option.isSome_iff_exists.mp w.isPwm
  constructor
  · rintro ⟨hprogrammed, -⟩
    refine (runsAt_analogWrite_iff h.flags w hpwm).mp ?_
    exact hprogrammed w.pinNumber pwmNum w.value hpwm (Function.update_self ..)
  · intro hne
    refine ⟨fun pin pwmNum' value hpwm' hlast => ?_,
      fun pin pwmNum' hpin hpwm' => analogWrite_others h.flags w hpin hpwm'⟩
    have hlast' : Function.update r.last w.pinNumber (some w.value) pin = some value := hlast
    by_cases hpin : pin = w.pinNumber
    · subst hpin
      rw [Function.update_self] at hlast'
      cases hlast'
      exact (runsAt_analogWrite_iff h.flags w hpwm').mpr hne
    · obtain ⟨htimes, henabled⟩ := analogWrite_others h.flags w hpin hpwm'
      rw [Function.update_of_ne hpin] at hlast'
      exact (h.programmed pin pwmNum' value hpwm' hlast').congr htimes henabled

/-! ## Runs -/

/-- In every sequence of calls with PWM pins and values from 0 to 100: behind each call the pins
    that have been written run with their values, and the call has left the other pins, if and
    only if no value is 100. -/
theorem analog_write_iff {s : PwmState} (hs : PwmReset s) (ws : List AnalogInput) :
    Along analogStep AsAsked ⟨s, fun _ => none⟩ ws ↔ ∀ w ∈ ws, w.value ≠ 100 := by
  have hinputs : Along analogStep (fun _ w => w.value ≠ 100) ⟨s, fun _ => none⟩ ws ↔
      ∀ w ∈ ws, w.value ≠ 100 := along_inputs ..
  rw [← hinputs]
  apply along_congr (I := AnalogOk)
  · intro r w h hasked
    obtain ⟨pwmNum, hpwm⟩ := Option.isSome_iff_exists.mp w.isPwm
    exact ⟨(analogWrite_spec h.flags w hpwm).1, hasked.1⟩
  · exact fun r w h => asAsked_iff h w
  · exact ⟨hs.flagsTrue, fun _ _ _ _ hlast => nomatch hlast⟩

/-- Two pins, one of them twice. -/
def analogSample : List AnalogInput :=
  [⟨6, 30, rfl, by decide, by decide⟩, ⟨26, 99, rfl, by decide, by decide⟩,
    ⟨6, 0, rfl, by decide, by decide⟩]

theorem analog_write_sample : PwmReset pwmReset ∧
    (Along analogStep AsAsked ⟨pwmReset, fun _ => none⟩ analogSample ↔
      ∀ w ∈ analogSample, w.value ≠ 100) := by
  have hreset : PwmReset pwmReset := ⟨fun _ _ => rfl, fun _ _ => rfl⟩
  exact ⟨hreset, analog_write_iff hreset analogSample⟩

/-- The output of pin 6 is to be on all the time, and is off. -/
theorem analog_write_full : ¬Along analogStep AsAsked ⟨pwmReset, fun _ => none⟩
    [⟨6, 100, rfl, by decide, by decide⟩] := by
  intro hrun
  have hruns := hrun.1.1 6 0 100 rfl rfl
  exact absurd hruns.onTime (by decide)

end ArduinoT2.Driver
