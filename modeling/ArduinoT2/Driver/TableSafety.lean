import ArduinoT2.Adapter.TklAdc
import ArduinoT2.Adapter.TklGpio
import ArduinoT2.Driver.PwmStart
import Mathlib.Tactic.Tauto

/-
  The bound checks of the PWM, GPIO and ADC adapters.

  A call is safe if its accesses are inside the tables, if it refuses every id outside its table,
  and if a refused call leaves the tables. `pwm_safe_iff`, `gpio_safe_iff` and `adc_safe_iff` say
  which calls are: `ch_id > PWM_DEV_NUM` lets 6 pass, `tkl_gpio_init` checks nothing, and
  `ch_id > ADC_DEV_CHANNEL_SUM` lets 6 pass, too. And a call gets the low byte of its id only: an
  id from 256 on is outside the table, and the call does not see it. `SafeCall.wide_iff` takes the
  two apart. `driver_tables_safe_iff` is about whole runs.
-/

namespace ArduinoT2.Driver

open StepSys ArduinoT2.Adapter ArduinoT2.Vendor

/-! ## Safe calls -/

/-- The error codes of the checks at the beginning of a call. -/
def Refused (ret : OperateRet) : Prop :=
  ret = oprtInvalidParm ∨ ret = oprtNotSupported ∨ ret = oprtOsAdapterComError

/-- A call from `s` that returns `r.1` in `r.2`, by what the tables of the driver are. -/
structure SafeCall {σ : Type} (inBounds : σ → Prop) (same : σ → σ → Prop) (outside : Prop)
    (s : σ) (r : OperateRet × σ) : Prop where
  inBounds : inBounds r.2
  rejected : outside → r.1 ≠ oprtOk
  unchanged : outside ∨ Refused r.1 → same s r.2

theorem refused_ne {ret : OperateRet} (h : Refused ret) : ret ≠ oprtOk := by
  rcases h with rfl | rfl | rfl <;> decide

/-- A call from `s` has failed and left the tables. -/
def FailsClean {σ : Type} (same : σ → σ → Prop) (s : σ) (r : OperateRet × σ) : Prop :=
  r.1 ≠ oprtOk ∧ same s r.2

/-- Ids that the call sees to be outside, and ids that it does not: with the latter it must fail
    and leave the tables, as it does when it refuses. -/
theorem SafeCall.wide_iff {σ : Type} {inBounds : σ → Prop} {same : σ → σ → Prop}
    {outside wide checked fails : Prop} {s : σ} {r : OperateRet × σ}
    (hsafe : SafeCall inBounds same outside s r ↔ checked)
    (hfails : checked → ¬outside → (FailsClean same s r ↔ fails)) :
    SafeCall inBounds same (outside ∨ wide) s r ↔ checked ∧ (¬wide ∨ outside ∨ fails) := by
  constructor
  · intro h
    have hc := hsafe.mp
      ⟨h.inBounds, fun ho => h.rejected (.inl ho), fun ho => h.unchanged (ho.imp_left .inl)⟩
    refine ⟨hc, ?_⟩
    by_cases hout : outside
    · exact .inr (.inl hout)
    · by_cases hwide : wide
      · exact .inr (.inr ((hfails hc hout).mp
          ⟨h.rejected (.inr hwide), h.unchanged (.inl (.inr hwide))⟩))
      · exact .inl hwide
  · rintro ⟨hc, h⟩
    have hs := hsafe.mpr hc
    -- an id that is no byte is refused, or the call fails
    have hclean : wide → FailsClean same s r := fun hw => by
      by_cases hout : outside
      · exact ⟨hs.rejected hout, hs.unchanged (.inl hout)⟩
      · exact (hfails hc hout).mpr ((h.resolve_left (not_not.mpr hw)).resolve_left hout)
    refine ⟨hs.inBounds, fun ho => ho.elim hs.rejected fun hw => (hclean hw).1, fun ho => ?_⟩
    rcases ho with (ho | hw) | href
    · exact hs.unchanged (.inl ho)
    · exact (hclean hw).2
    · exact hs.unchanged (.inr href)

/-- An id is outside a table of at most 256 entries if its low byte is, or if it is no byte. -/
theorem outside_iff (id : UInt32) {size : Nat} (hsize : size ≤ 256) :
    id.toNat ≥ size ↔ id.toUInt8.toNat ≥ size ∨ id.toNat ≥ 256 := by
  rw [UInt32.toNat_toUInt8]
  omega

theorem not_failsClean_ok {σ : Type} {same : σ → σ → Prop} {s : σ} {r : OperateRet × σ}
    (h : r.1 = oprtOk) : ¬FailsClean same s r := fun hf => hf.1 h

/-- A call that refuses is safe. -/
theorem SafeCall.refuse {σ : Type} {inBounds : σ → Prop} {same : σ → σ → Prop}
    {outside : Prop} {s : σ} {ret : OperateRet} (hs : inBounds s) (hsame : same s s)
    (h : Refused ret) : SafeCall inBounds same outside s (ret, s) :=
  ⟨hs, fun _ => refused_ne h, fun _ => hsame⟩

/-- A call with no id outside its table that does not refuse. -/
theorem SafeCall.accept {σ : Type} {inBounds : σ → Prop} {same : σ → σ → Prop}
    {outside : Prop} {s : σ} {r : OperateRet × σ} (hs : inBounds r.2) (hin : ¬outside)
    (h : ¬Refused r.1) : SafeCall inBounds same outside s r :=
  ⟨hs, fun ho => absurd ho hin, fun ho => absurd ho (not_or.mpr ⟨hin, h⟩)⟩

/-! ## PWM -/

/-- The accesses to `pwm_cfg` and `pwm_start_flag`. -/
def PwmInBounds (s : PwmState) : Prop := s.pwmCfg.InBounds ∧ s.pwmStartFlag.InBounds

/-- The entries of `pwm_cfg` and `pwm_start_flag`. -/
def PwmSame (s s' : PwmState) : Prop :=
  s.pwmCfg.Same s'.pwmCfg ∧ s.pwmStartFlag.Same s'.pwmStartFlag

theorem PwmSame.refl (s : PwmState) : PwmSame s s := ⟨Table.Same.refl _, Table.Same.refl _⟩

/-- Some id of the call is outside the tables. -/
def pwmOutside : PwmCall → Prop
  | .init chId _ => chId.toNat ≥ 6
  | .start chId => chId.toNat ≥ 6
  | .stop chId => chId.toNat ≥ 6
  | .multichannelStart chId0 chId1 _ => chId0.toNat ≥ 6 ∨ chId1.toNat ≥ 6
  | .multichannelStop chId0 chId1 _ => chId0.toNat ≥ 6 ∨ chId1.toNat ≥ 6
  | .dutySet chId _ => chId.toNat ≥ 6
  | .frequencySet chId _ => chId.toNat ≥ 6
  | .infoSet chId _ => chId.toNat ≥ 6
  | .infoGet chId => chId.toNat ≥ 6

/-- The low byte of the id is not 6, and it is the id, or is refused, or the call fails. -/
def SingleChecked (chId : UInt32) (fails : Prop) : Prop :=
  chId.toUInt8.toNat ≠ 6 ∧ (chId.toNat < 256 ∨ chId.toUInt8.toNat > 6 ∨ fails)

/-- The same for a pair: neither low byte is 6 unless the other one is larger, and they are the
    ids, or one of them is refused, or the call fails. -/
def PairChecked (chId0 chId1 : UInt32) (fails : Prop) : Prop :=
  let larger := max chId0.toUInt8.toNat chId1.toUInt8.toNat
  larger ≠ 6 ∧ ((chId0.toNat < 256 ∧ chId1.toNat < 256) ∨ larger > 6 ∨ fails)

/-- A start of a channel that is off, in which the driver fails. -/
def StartFails (io : PwmIo) (s : PwmState) (ch : Nat) : Prop :=
  s.pwmStartFlag.entry ch = 0 ∧ ¬(io.initOk = true ∧ io.startOk = true)

/-- A start of a pair that does not fit, or of one that is off in which the driver fails, or an
    update of one that is not. -/
def PairStartFails (io : PwmIo) (s : PwmState) (ch0 ch1 : Nat) : Prop :=
  let cfg0 := s.pwmCfg.entry ch0
  let cfg1 := s.pwmCfg.entry ch1
  cfg0.frequency ≠ cfg1.frequency ∨
    cfg0.count < cfg0.dutyCount cfg0.count + cfg1.dutyCount cfg0.count ∨
    if s.pwmStartFlag.entry ch0 = 0 then
      s.pwmStartFlag.entry ch1 = 0 ∧ ¬(io.initOk = true ∧ io.startOk = true)
    else ¬io.updateOk = true

/-- The calls whose checks do what they should. -/
def pwmChecked (io : PwmIo) (s : PwmState) : PwmCall → Prop
  | .init chId _ | .stop chId | .dutySet chId _ | .frequencySet chId _ | .infoSet chId _
  | .infoGet chId => SingleChecked chId False
  | .start chId => SingleChecked chId (StartFails io s chId.toUInt8.toNat)
  | .multichannelStart chId0 chId1 num => num = 2 →
    PairChecked chId0 chId1 (PairStartFails io s chId0.toUInt8.toNat chId1.toUInt8.toNat)
  | .multichannelStop chId0 chId1 num => num = 2 → PairChecked chId0 chId1 False

/-- What a call with one id does: it refuses ids above 6, and otherwise accesses the entry. -/
theorem single_safe_iff {s : PwmState} {ch : Nat} {r : OperateRet × PwmState}
    (hs : PwmInBounds s) (hgt : ch > pwmDevNum → r = (oprtInvalidParm, s))
    (hle : ¬ch > pwmDevNum →
      (PwmInBounds r.2 ↔ PwmInBounds s ∧ ch < pwmDevNum) ∧ ¬Refused r.1) :
    SafeCall PwmInBounds PwmSame (ch ≥ 6) s r ↔ ch ≠ 6 := by
  have hnum : pwmDevNum = 6 := rfl
  rcases Nat.lt_or_ge pwmDevNum ch with h | h
  · rw [hgt h]
    exact iff_of_true (.refuse hs (.refl s) (.inl rfl)) (by omega)
  · obtain ⟨hbounds, haccept⟩ := hle (Nat.not_lt.mpr h)
    constructor
    · intro hsafe
      have := (hbounds.mp hsafe.inBounds).2
      omega
    · intro hne
      exact .accept (hbounds.mpr ⟨hs, by omega⟩) (by omega) haccept

theorem not_refused_ok : ¬Refused oprtOk := fun h => refused_ne h rfl

theorem not_refused_comError : ¬Refused oprtComError := by
  unfold Refused
  decide

theorem tklPwmInit_safe_iff {s : PwmState} (hs : PwmInBounds s) (chId : UInt8)
    (cfg : PwmBaseCfg) :
    SafeCall PwmInBounds PwmSame (chId.toNat ≥ 6) s (tklPwmInit s chId cfg) ↔
      chId.toNat ≠ 6 := by
  apply single_safe_iff hs
  · exact fun h => if_pos h
  · intro h
    unfold tklPwmInit
    rw [if_neg h]
    refine ⟨?_, not_refused_ok⟩
    simp only [PwmInBounds, Table.inBounds_write]
    tauto

theorem pwmCfgModify_safe_iff {s : PwmState} (hs : PwmInBounds s) (chId : UInt8)
    (f : PwmBaseCfg → PwmBaseCfg) :
    SafeCall PwmInBounds PwmSame (chId.toNat ≥ 6) s (pwmCfgModify s chId f) ↔
      chId.toNat ≠ 6 := by
  apply single_safe_iff hs
  · exact fun h => if_pos h
  · intro h
    unfold pwmCfgModify
    simp only [if_neg h]
    refine ⟨?_, not_refused_ok⟩
    simp only [PwmInBounds, Table.inBounds_write]
    tauto

theorem tklPwmInfoGet_safe_iff {s : PwmState} (hs : PwmInBounds s) (chId : UInt8) :
    SafeCall PwmInBounds PwmSame (chId.toNat ≥ 6) s
      ((tklPwmInfoGet s chId).1, (tklPwmInfoGet s chId).2.2) ↔ chId.toNat ≠ 6 := by
  apply single_safe_iff hs
  · intro h
    have hret : tklPwmInfoGet s chId = (oprtInvalidParm, none, s) := if_pos h
    rw [hret]
  · intro h
    unfold tklPwmInfoGet
    simp only [if_neg h]
    refine ⟨?_, not_refused_ok⟩
    simp only [PwmInBounds, Table.inBounds_read]
    tauto

/-- The code of a start is `OPRT_OK` or `OPRT_COM_ERROR`. -/
theorem not_refused_start (b : Prop) [Decidable b] :
    ¬Refused (if b then oprtOk else oprtComError) := by
  split
  · exact not_refused_ok
  · exact not_refused_comError

theorem tklPwmStart_safe_iff (io : PwmIo) {s : PwmState} (hs : PwmInBounds s) (chId : UInt8) :
    SafeCall PwmInBounds PwmSame (chId.toNat ≥ 6) s (tklPwmStart io s chId) ↔
      chId.toNat ≠ 6 := by
  apply single_safe_iff hs
  · exact fun h => if_pos h
  · intro h
    unfold tklPwmStart
    simp only [if_neg h]
    split
    · refine ⟨?_, not_refused_start _⟩
      simp only [PwmInBounds, Table.inBounds_read, Table.inBounds_write]
      tauto
    · refine ⟨?_, not_refused_ok⟩
      simp only [PwmInBounds, Table.inBounds_read]
      tauto

theorem tklPwmStop_safe_iff (io : PwmIo) {s : PwmState} (hs : PwmInBounds s) (chId : UInt8) :
    SafeCall PwmInBounds PwmSame (chId.toNat ≥ 6) s (tklPwmStop io s chId) ↔
      chId.toNat ≠ 6 := by
  apply single_safe_iff hs
  · exact fun h => if_pos h
  · intro h
    unfold tklPwmStop
    simp only [if_neg h]
    refine ⟨?_, not_refused_ok⟩
    simp only [PwmInBounds, Table.inBounds_write]
    tauto

/-- What a call with a pair of ids does: it refuses what is no pair and ids above 6. -/
theorem pair_safe_iff {s : PwmState} {ch0 ch1 : Nat} {num : UInt8} {r : OperateRet × PwmState}
    (hs : PwmInBounds s) (hnum : num ≠ 2 → r = (oprtNotSupported, s))
    (hgt : num = 2 → ch0 > pwmDevNum ∨ ch1 > pwmDevNum → r = (oprtInvalidParm, s))
    (hle : num = 2 → ¬(ch0 > pwmDevNum ∨ ch1 > pwmDevNum) →
      (PwmInBounds r.2 ↔ PwmInBounds s ∧ ch0 < pwmDevNum ∧ ch1 < pwmDevNum) ∧ ¬Refused r.1) :
    SafeCall PwmInBounds PwmSame (ch0 ≥ 6 ∨ ch1 ≥ 6) s r ↔ (num = 2 → max ch0 ch1 ≠ 6) := by
  have hdev : pwmDevNum = 6 := rfl
  by_cases h2 : num = 2
  · by_cases h : ch0 > pwmDevNum ∨ ch1 > pwmDevNum
    · rw [hgt h2 h]
      exact iff_of_true (.refuse hs (.refl s) (.inl rfl)) (fun _ => by omega)
    · obtain ⟨hbounds, haccept⟩ := hle h2 h
      constructor
      · intro hsafe _
        have := (hbounds.mp hsafe.inBounds).2
        omega
      · intro hne
        have := hne h2
        exact .accept (hbounds.mpr ⟨hs, by omega⟩) (by omega) haccept
  · rw [hnum h2]
    exact iff_of_true (.refuse hs (.refl s) (.inr (.inl rfl))) (fun h => absurd h h2)

theorem tklPwmMultichannelStop_safe_iff (io : PwmIo) {s : PwmState} (hs : PwmInBounds s)
    (chId0 chId1 num : UInt8) :
    SafeCall PwmInBounds PwmSame (chId0.toNat ≥ 6 ∨ chId1.toNat ≥ 6) s
        (tklPwmMultichannelStop io s chId0 chId1 num) ↔
      (num = 2 → max chId0.toNat chId1.toNat ≠ 6) := by
  apply pair_safe_iff hs
  · exact fun h => if_neg h
  · intro h2 h
    unfold tklPwmMultichannelStop
    simp only [if_pos h2]
    exact if_pos h
  · intro h2 h
    unfold tklPwmMultichannelStop
    simp only [if_pos h2]
    rw [if_neg h]
    refine ⟨?_, not_refused_ok⟩
    simp only [PwmInBounds, Table.inBounds_write]
    tauto

/-- What the end of the call with a pair does to the tables. -/
theorem pwmPairStart_inBounds (io : PwmIo) (s : PwmState) (ch0 ch1 : Nat)
    (count coldDuty warmDuty dead : UInt32) :
    let r := pwmPairStart io s ch0 ch1 count coldDuty warmDuty dead
    (r.2.pwmStartFlag.InBounds → s.pwmStartFlag.InBounds) ∧ r.2.pwmCfg = s.pwmCfg ∧
      (s.pwmStartFlag.InBounds → ch0 < pwmDevNum → ch1 < pwmDevNum →
        r.2.pwmStartFlag.InBounds) ∧ ¬Refused r.1 := by
  intro r
  show (r.2.pwmStartFlag.InBounds → _) ∧ _
  unfold r pwmPairStart
  simp only
  split
  · simp only [Table.inBounds_read, Table.inBounds_write]
    exact ⟨fun h => h.1.1.1, trivial, fun h h0 h1 => ⟨⟨⟨h, h0⟩, h0⟩, h1⟩, not_refused_start _⟩
  · simp only [Table.inBounds_read]
    exact ⟨fun h => h.1, trivial, fun h h0 _ => ⟨h, h0⟩, not_refused_start _⟩

theorem tklPwmMultichannelStart_safe_iff (io : PwmIo) {s : PwmState} (hs : PwmInBounds s)
    (chId0 chId1 num : UInt8) :
    SafeCall PwmInBounds PwmSame (chId0.toNat ≥ 6 ∨ chId1.toNat ≥ 6) s
        (tklPwmMultichannelStart io s chId0 chId1 num) ↔
      (num = 2 → max chId0.toNat chId1.toNat ≠ 6) := by
  apply pair_safe_iff hs
  · exact fun h => if_neg h
  · intro h2 h
    unfold tklPwmMultichannelStart
    simp only [if_pos h2]
    exact if_pos h
  · intro h2 h
    unfold tklPwmMultichannelStart
    simp only [if_pos h2]
    rw [if_neg h]
    split
    · refine ⟨?_, not_refused_comError⟩
      simp only [PwmInBounds, Table.inBounds_read]
      tauto
    · split
      · obtain ⟨hback, hcfg, hfwd, haccept⟩ := pwmPairStart_inBounds io
          { s with pwmCfg := ((s.pwmCfg.read chId0.toNat).2.read chId1.toNat).2 } chId0.toNat
          chId1.toNat (s.pwmCfg.read chId0.toNat).1.count _ _ _
        refine ⟨?_, haccept⟩
        unfold PwmInBounds
        rw [hcfg, Table.inBounds_read, Table.inBounds_read]
        constructor
        · rintro ⟨⟨⟨hc, h0⟩, h1⟩, hf⟩
          exact ⟨⟨hc, hback hf⟩, h0, h1⟩
        · rintro ⟨⟨hc, hf⟩, h0, h1⟩
          exact ⟨⟨⟨hc, h0⟩, h1⟩, hfwd hf h0 h1⟩
      · refine ⟨?_, not_refused_comError⟩
        simp only [PwmInBounds, Table.inBounds_read]
        tauto

/-- A call with one id, as a byte and as it is passed. -/
theorem single_wide_iff {s : PwmState} {chId : UInt32} {r : OperateRet × PwmState} {fails : Prop}
    (hsafe : SafeCall PwmInBounds PwmSame (chId.toUInt8.toNat ≥ 6) s r ↔ chId.toUInt8.toNat ≠ 6)
    (hfails : chId.toUInt8.toNat < 6 → (FailsClean PwmSame s r ↔ fails)) :
    SafeCall PwmInBounds PwmSame (chId.toNat ≥ 6) s r ↔ SingleChecked chId fails := by
  rw [outside_iff chId (by decide), SafeCall.wide_iff hsafe fun _ hin => hfails (Nat.not_le.mp hin)]
  unfold SingleChecked
  refine and_congr_right fun hne => or_congr (by omega) (or_congr_left (by omega))

/-- A call with a pair of ids. -/
theorem pair_wide_iff {s : PwmState} (hs : PwmInBounds s) {chId0 chId1 : UInt32} {num : UInt8}
    {r : OperateRet × PwmState} {fails : Prop}
    (hsafe : SafeCall PwmInBounds PwmSame (chId0.toUInt8.toNat ≥ 6 ∨ chId1.toUInt8.toNat ≥ 6) s r ↔
      (num = 2 → max chId0.toUInt8.toNat chId1.toUInt8.toNat ≠ 6))
    (hnum : num ≠ 2 → r = (oprtNotSupported, s))
    (hfails : num = 2 → chId0.toUInt8.toNat < 6 → chId1.toUInt8.toNat < 6 →
      (FailsClean PwmSame s r ↔ fails)) :
    SafeCall PwmInBounds PwmSame (chId0.toNat ≥ 6 ∨ chId1.toNat ≥ 6) s r ↔
      (num = 2 → PairChecked chId0 chId1 fails) := by
  rw [outside_iff chId0 (by decide), outside_iff chId1 (by decide), or_or_or_comm]
  by_cases h2 : num = 2
  · have hfails' := fun (_ : num = 2 → max chId0.toUInt8.toNat chId1.toUInt8.toNat ≠ 6)
      (hin : ¬(chId0.toUInt8.toNat ≥ 6 ∨ chId1.toUInt8.toNat ≥ 6)) =>
      hfails h2 (by omega) (by omega)
    rw [SafeCall.wide_iff hsafe hfails', forall_prop_of_true h2, forall_prop_of_true h2]
    unfold PairChecked
    refine and_congr_right fun hne => or_congr (by omega) (or_congr_left (by omega))
  · rw [hnum h2]
    exact iff_of_true (.refuse hs (.refl s) (.inr (.inl rfl))) fun h => absurd h h2

/-- A start fails and leaves the tables if the channel is off and the driver fails. -/
theorem tklPwmStart_fails_iff (io : PwmIo) (s : PwmState) {chId : UInt8} (hch : chId.toNat < 6) :
    FailsClean PwmSame s (tklPwmStart io s chId) ↔ StartFails io s chId.toNat := by
  unfold StartFails
  by_cases hflag : flagged s chId.toNat
  · rw [tklPwmStart_running io hch hflag]
    exact iff_of_false (not_failsClean_ok rfl) fun h => hflag h.1
  · have hzero : s.pwmStartFlag.entry chId.toNat = 0 := not_not.mp hflag
    rw [tklPwmStart_stopped io hch hflag]
    simp only [hzero, true_and]
    split
    · rename_i hok
      exact iff_of_false (not_failsClean_ok rfl) (not_not.mpr hok)
    · rename_i hfail
      refine iff_of_true ⟨comError_ne_ok, Table.Same.of_eq rfl, Table.Same.of_eq ?_⟩ hfail
      rw [Table.entry_write, Table.entry_read, ← hzero, Function.update_eq_self]

/-- The dead time that the adapter computes leaves room for the on-times. -/
theorem pair_room {count cold warm : UInt32} (h : cold + warm ≤ count) :
    ¬count < cold + warm + 2 * ((count - cold - warm) / 2) := by
  have hsub : count - cold - warm = count - (cold + warm) := by
    grind
  have hle := UInt32.le_iff_toNat_le.mp h
  have hlt := count.toNat_lt
  rw [hsub, UInt32.not_lt, UInt32.le_iff_toNat_le]
  simp only [UInt32.toNat_add (cold + warm), UInt32.toNat_mul, UInt32.toNat_div,
    UInt32.toNat_sub_of_le _ _ h, show (2 : UInt32).toNat = 2 from rfl]
  omega

/-- Clearing the flags of a pair whose first flag is clear changes nothing if the second is. -/
theorem same_clearPair_iff {t t' : Table pwmDevNum UInt8} {ch0 ch1 : Nat} (hch1 : ch1 < 6)
    (hentry : t'.entry = t.entry) (h0 : t.entry ch0 = 0) :
    t.Same ((t'.write ch0 0).write ch1 0) ↔ t.entry ch1 = 0 := by
  constructor
  · intro hsame
    rw [← hsame ch1 hch1, Table.entry_write, Function.update_self]
  · intro h1
    apply Table.Same.of_eq
    rw [Table.entry_write, Table.entry_write, hentry, ← h0, Function.update_eq_self, h0, ← h1,
      Function.update_eq_self]

theorem bkPwmCwInitialize_ret (ok : Bool) (hw : PwmHw) (ch0 ch1 : Nat)
    {count cold warm dead : UInt32} (hroom : ¬count < cold + warm + 2 * dead) :
    (bkPwmCwInitialize ok hw ch0 ch1 count cold warm dead).1 =
      if ok then kNoErr else kGeneralErr := by
  unfold bkPwmCwInitialize
  cases ok with
  | false => rfl
  | true => simp [hroom]

theorem bkPwmCwUpdateParam_ret (ok : Bool) (hw : PwmHw) (ch0 ch1 : Nat)
    {count cold warm dead : UInt32} (hroom : ¬count < cold + warm + 2 * dead) :
    (bkPwmCwUpdateParam ok hw ch0 ch1 count cold warm dead).1 =
      if ok then kNoErr else kGeneralErr := by
  unfold bkPwmCwUpdateParam
  cases ok with
  | false => rfl
  | true => simp [hroom]

theorem bkPwmCwStart_ret (ok : Bool) (hw : PwmHw) (ch0 ch1 : Nat) :
    (bkPwmCwStart ok hw ch0 ch1).1 = if ok then kNoErr else kGeneralErr := by
  unfold bkPwmCwStart
  cases ok with
  | false => rfl
  | true => cases hw.groupFlag <;> rfl

/-- What the end of the call with a pair returns, and the flags behind it. -/
theorem pwmPairStart_flags (io : PwmIo) (s : PwmState) (ch0 ch1 : Nat)
    {count cold warm dead : UInt32} (hroom : ¬count < cold + warm + 2 * dead) :
    let r := pwmPairStart io s ch0 ch1 count cold warm dead
    let read := (s.pwmStartFlag.read ch0).2
    r.2.pwmCfg = s.pwmCfg ∧
    if s.pwmStartFlag.entry ch0 = 0 then
      if io.initOk = true ∧ io.startOk = true then r.1 = oprtOk
      else r.1 = oprtComError ∧ r.2.pwmStartFlag = (read.write ch0 0).write ch1 0
    else r.1 = (if io.updateOk = true then oprtOk else oprtComError) ∧ r.2.pwmStartFlag = read := by
  unfold pwmPairStart
  have hinit := bkPwmCwInitialize_ret io.initOk s.hw ch0 ch1 hroom
  have hupdate := bkPwmCwUpdateParam_ret io.updateOk s.hw ch0 ch1 hroom
  by_cases hflag : s.pwmStartFlag.entry ch0 = 0
  · simp only [Table.read_fst, if_pos hflag, hinit, true_and]
    cases io.initOk with
    | false => simp
    | true => cases hstart : io.startOk <;> simp [bkPwmCwStart_ret]
  · simp only [Table.read_fst, if_neg hflag, hupdate, true_and]
    cases io.updateOk <;> simp

/-- The end of the call fails and leaves the flags if the driver fails, and a pair that is off is
    off in both channels. -/
theorem pwmPairStart_fails_iff (io : PwmIo) {s s' : PwmState} (hflag : s'.pwmStartFlag =
    s.pwmStartFlag) (hcfg : s'.pwmCfg.entry = s.pwmCfg.entry) (ch0 : Nat) {ch1 : Nat}
    (hch1 : ch1 < 6) {count cold warm : UInt32} (hfits : cold + warm ≤ count) :
    FailsClean PwmSame s (pwmPairStart io s' ch0 ch1 count cold warm ((count - cold - warm) / 2)) ↔
      if s.pwmStartFlag.entry ch0 = 0 then
        s.pwmStartFlag.entry ch1 = 0 ∧ ¬(io.initOk = true ∧ io.startOk = true)
      else ¬io.updateOk = true := by
  obtain ⟨hkeep, hflags⟩ := pwmPairStart_flags io s' ch0 ch1 (pair_room hfits)
  rw [hflag] at hflags
  generalize pwmPairStart io s' ch0 ch1 _ _ _ _ = r at hkeep hflags
  have hsame : s.pwmCfg.Same r.2.pwmCfg := .of_eq (by rw [hkeep, hcfg])
  split at hflags
  · rename_i hoff
    rw [if_pos hoff]
    split at hflags
    · rename_i hok
      exact iff_of_false (not_failsClean_ok hflags) fun h => h.2 hok
    · rename_i hfail
      have hiff := same_clearPair_iff hch1 (Table.entry_read s.pwmStartFlag ch0) hoff
      rw [← hflags.2] at hiff
      unfold FailsClean PwmSame
      rw [hflags.1, hiff]
      exact ⟨fun h => ⟨h.2.2, hfail⟩, fun h => ⟨comError_ne_ok, hsame, h.1⟩⟩
  · rename_i hon
    rw [if_neg hon]
    split at hflags
    · rename_i hok
      exact iff_of_false (not_failsClean_ok hflags.1) (not_not.mpr hok)
    · rename_i hfail
      refine iff_of_true ⟨?_, hsame, .of_eq ?_⟩ hfail
      · rw [hflags.1]
        exact comError_ne_ok
      · rw [hflags.2, Table.entry_read]

/-- A start of a pair fails and leaves the tables if the pair does not fit, or the driver fails. -/
theorem tklPwmMultichannelStart_fails_iff (io : PwmIo) (s : PwmState) {chId0 chId1 : UInt8}
    (hch0 : chId0.toNat < 6) (hch1 : chId1.toNat < 6) :
    FailsClean PwmSame s (tklPwmMultichannelStart io s chId0 chId1 2) ↔
      PairStartFails io s chId0.toNat chId1.toNat := by
  let cfg0 := s.pwmCfg.entry chId0.toNat
  let cfg1 := s.pwmCfg.entry chId1.toNat
  let s' := { s with pwmCfg := ((s.pwmCfg.read chId0.toNat).2.read chId1.toNat).2 }
  have hcall : tklPwmMultichannelStart io s chId0 chId1 2 =
      if cfg0.frequency ≠ cfg1.frequency then (oprtComError, s')
      else if cfg0.count ≥ cfg0.dutyCount cfg0.count + cfg1.dutyCount cfg0.count then
        pwmPairStart io s' chId0.toNat chId1.toNat cfg0.count (cfg0.dutyCount cfg0.count)
          (cfg1.dutyCount cfg0.count)
          ((cfg0.count - cfg0.dutyCount cfg0.count - cfg1.dutyCount cfg0.count) / 2)
      else (oprtComError, s') := by
    unfold tklPwmMultichannelStart
    rw [if_pos rfl]
    exact if_neg (not_gt_pwmDevNum hch0 hch1)
  have hrefused : FailsClean PwmSame s (oprtComError, s') :=
    ⟨comError_ne_ok, Table.Same.of_eq rfl, .refl _⟩
  rw [hcall]
  unfold PairStartFails
  by_cases hfreq : cfg0.frequency = cfg1.frequency
  · rw [if_neg (not_not.mpr hfreq)]
    dsimp only
    rw [or_iff_right (not_not.mpr hfreq)]
    split
    · rename_i hfits
      rw [or_iff_right (UInt32.not_lt.mpr hfits)]
      exact pwmPairStart_fails_iff io rfl rfl _ hch1 hfits
    · rename_i hlong
      exact iff_of_true hrefused (.inl (UInt32.not_le.mp hlong))
  · rw [if_pos hfreq]
    exact iff_of_true hrefused (.inl hfreq)

/-- A call of the PWM adapter is safe if and only if its checks do what they should. -/
theorem pwm_safe_iff (io : PwmIo) {s : PwmState} (hs : PwmInBounds s) (c : PwmCall) :
    SafeCall PwmInBounds PwmSame (pwmOutside c) s (pwmCall io s c) ↔ pwmChecked io s c := by
  have hnum : pwmDevNum = 6 := rfl
  -- a call that returns `OPRT_OK` for the channels of the table does not fail
  have hok : ∀ {r : OperateRet × PwmState}, r.1 = oprtOk → (FailsClean PwmSame s r ↔ False) :=
    fun hr => iff_of_false (not_failsClean_ok hr) id
  cases c with
  | init chId cfg =>
    refine single_wide_iff (tklPwmInit_safe_iff hs _ cfg) fun hch => hok ?_
    unfold pwmCall tklPwmInit
    simp only [if_neg (show ¬chId.toUInt8.toNat > pwmDevNum by omega)]
  | start chId => exact single_wide_iff (tklPwmStart_safe_iff io hs _) (tklPwmStart_fails_iff io s)
  | stop chId =>
    refine single_wide_iff (tklPwmStop_safe_iff io hs _) fun hch => hok ?_
    unfold pwmCall tklPwmStop
    simp only [if_neg (show ¬chId.toUInt8.toNat > pwmDevNum by omega)]
  | multichannelStart chId0 chId1 num =>
    refine pair_wide_iff hs (tklPwmMultichannelStart_safe_iff io hs _ _ num) (fun h => if_neg h) ?_
    rintro rfl
    exact tklPwmMultichannelStart_fails_iff io s
  | multichannelStop chId0 chId1 num =>
    refine pair_wide_iff hs (tklPwmMultichannelStop_safe_iff io hs _ _ num) (fun h => if_neg h) ?_
    rintro rfl hch0 hch1
    refine hok ?_
    unfold pwmCall tklPwmMultichannelStop
    simp only [if_true, if_neg (not_gt_pwmDevNum hch0 hch1)]
  | dutySet chId duty =>
    refine single_wide_iff (pwmCfgModify_safe_iff hs _ fun cfg => { cfg with duty }) fun hch =>
      hok ?_
    unfold pwmCall tklPwmDutySet pwmCfgModify
    simp only [if_neg (show ¬chId.toUInt8.toNat > pwmDevNum by omega)]
  | frequencySet chId frequency =>
    refine single_wide_iff (pwmCfgModify_safe_iff hs _ fun cfg => { cfg with frequency }) fun hch =>
      hok ?_
    unfold pwmCall tklPwmFrequencySet pwmCfgModify
    simp only [if_neg (show ¬chId.toUInt8.toNat > pwmDevNum by omega)]
  | infoSet chId info =>
    refine single_wide_iff (tklPwmInit_safe_iff hs _ info) fun hch => hok ?_
    unfold pwmCall tklPwmInfoSet tklPwmInit
    simp only [if_neg (show ¬chId.toUInt8.toNat > pwmDevNum by omega)]
  | infoGet chId =>
    refine single_wide_iff (tklPwmInfoGet_safe_iff hs _) fun hch => hok ?_
    unfold pwmCall tklPwmInfoGet
    simp only [if_neg (show ¬chId.toUInt8.toNat > pwmDevNum by omega)]

/-! ## GPIO -/

/-- The accesses to `pinmap`. -/
def GpioInBounds (s : GpioState) : Prop := s.pinmap.InBounds

/-- The entries of `pinmap`. -/
def GpioSame (s s' : GpioState) : Prop := s.pinmap.Same s'.pinmap

theorem GpioSame.refl (s : GpioState) : GpioSame s s := Table.Same.refl _

theorem gpioInBounds_op (s : GpioState) (o : BkGpioOp) :
    GpioInBounds (s.op o) ↔ GpioInBounds s := Iff.rfl

theorem gpioInBounds_gpio (s : GpioState) (pin : Nat) :
    GpioInBounds (s.gpio pin).2 ↔ GpioInBounds s ∧ pin < 40 := Table.inBounds_read _ _

/-- The pin of the call. -/
def gpioPin : GpioCall → Nat
  | .init pinId _ => pinId.toNat
  | .write pinId _ => pinId.toNat
  | .read pinId _ => pinId.toNat
  | .irqInit pinId _ => pinId.toNat
  | .irqEnable pinId => pinId.toNat
  | .irqDisable pinId => pinId.toNat

/-- `tkl_gpio_init` is called with a pin of the table, or with a direction that it refuses; the
    other calls with a pin that is a byte or whose low byte they refuse, or they refuse the rest:
    `tkl_gpio_irq_init` no configuration, or one for both edges. -/
def gpioChecked : GpioCall → Prop
  | .init pinId cfg => pinId.toNat < 40 ∨ (cfg.direct ≠ .input ∧ cfg.direct ≠ .output)
  | .write pinId _ | .read pinId _ | .irqEnable pinId | .irqDisable pinId =>
    pinId.toNat < 256 ∨ pinId.toUInt8.toNat ≥ 40
  | .irqInit pinId cfg => pinId.toNat < 256 ∨ pinId.toUInt8.toNat ≥ 40 ∨
    ∀ irq, cfg = some irq → irq.mode = .riseFall

theorem bkGpioCfg_eq_none {cfg : GpioBaseCfg} :
    bkGpioCfg cfg = none ↔ cfg.direct ≠ .input ∧ cfg.direct ≠ .output := by
  unfold bkGpioCfg
  cases cfg.direct with
  | input =>
    refine iff_of_false ?_ (fun h => h.1 rfl)
    simp only
    split
    · exact fun h => nomatch h
    · split <;> exact fun h => nomatch h
  | output => exact iff_of_false (fun h => nomatch h) (fun h => h.2 rfl)
  | other value => exact iff_of_true rfl ⟨(fun h => nomatch h), fun h => nomatch h⟩

theorem tklGpioInit_safe_iff {s : GpioState} (hs : GpioInBounds s) (pinId : UInt8)
    (cfg : GpioBaseCfg) :
    SafeCall GpioInBounds GpioSame (pinId.toNat ≥ 40) s (tklGpioInit s pinId cfg) ↔
      pinId.toNat < 40 ∨ (cfg.direct ≠ .input ∧ cfg.direct ≠ .output) := by
  rw [← bkGpioCfg_eq_none]
  unfold tklGpioInit
  cases bkGpioCfg cfg with
  | none => exact iff_of_true (.refuse hs (.refl s) (.inr (.inl rfl))) (.inr rfl)
  | some bkCfg =>
    -- the call returns `OPRT_OK` and has accessed the entry of the pin
    have haccess : ∀ r : OperateRet × GpioState, r.1 = oprtOk →
        (GpioInBounds r.2 ↔ GpioInBounds s ∧ pinId.toNat < 40) →
        (SafeCall GpioInBounds GpioSame (pinId.toNat ≥ 40) s r ↔
          pinId.toNat < 40 ∨ some bkCfg = none) := by
      intro r hret hbounds
      constructor
      · intro hsafe
        exact .inl (hbounds.mp hsafe.inBounds).2
      · rintro (hlt | hnone)
        · exact .accept (hbounds.mpr ⟨hs, hlt⟩) (by omega) (by rw [hret]; exact not_refused_ok)
        · exact nomatch hnone
    simp only
    split
    · split
      · apply haccess _ rfl
        simp only [gpioInBounds_op, gpioInBounds_gpio]
        tauto
      · apply haccess _ rfl
        simp only [gpioInBounds_op, gpioInBounds_gpio]
        tauto
    · apply haccess _ rfl
      simp only [gpioInBounds_op, gpioInBounds_gpio]

/-- A call that refuses pins from 40 on, and otherwise accesses no other pin, is safe. -/
theorem pin_safe {s : GpioState} {pin : Nat} {r : OperateRet × GpioState}
    (hs : GpioInBounds s) (hge : pin ≥ 40 → r.2 = s ∧ Refused r.1)
    (hlt : pin < 40 → GpioInBounds r.2 ∧ (Refused r.1 → r.2 = s)) :
    SafeCall GpioInBounds GpioSame (pin ≥ 40) s r := by
  rcases Nat.lt_or_ge pin 40 with h | h
  · obtain ⟨hbounds, hsame⟩ := hlt h
    refine ⟨hbounds, fun ho => by omega, ?_⟩
    rintro (ho | href)
    · omega
    · rw [hsame href]
      exact .refl s
  · obtain ⟨hr, href⟩ := hge h
    refine ⟨by rwa [hr], fun _ => refused_ne href, fun _ => ?_⟩
    rw [hr]
    exact .refl s

theorem tklGpioIrqInit_safe {s : GpioState} (hs : GpioInBounds s) (pinId : UInt8)
    (cfg : Option GpioIrq) :
    SafeCall GpioInBounds GpioSame (pinId.toNat ≥ 40) s (tklGpioIrqInit s pinId cfg) := by
  apply pin_safe hs
  · intro h
    unfold tklGpioIrqInit
    rw [if_pos h]
    exact ⟨rfl, .inr (.inl rfl)⟩
  · intro h
    unfold tklGpioIrqInit
    rw [if_neg (by omega)]
    cases cfg with
    | none => exact ⟨hs, fun _ => rfl⟩
    | some cfg =>
      simp only
      cases irqTrigger cfg.mode with
      | none => exact ⟨hs, fun _ => rfl⟩
      | some trigger =>
        refine ⟨?_, fun href => absurd href not_refused_ok⟩
        rw [gpioInBounds_op, gpioInBounds_gpio]
        exact ⟨(Table.inBounds_write _ _ _).mpr ⟨hs, h⟩, h⟩

/-- A call behind `PIN_DEV_CHECK_ERROR_RETURN`. -/
theorem pin_checked_safe {s : GpioState} {pin : Nat} {r : OperateRet × GpioState}
    (hs : GpioInBounds s) (hge : pin ≥ pinDevNum → r = (oprtInvalidParm, s))
    (hlt : ¬pin ≥ pinDevNum → GpioInBounds r.2 ∧ r.1 = oprtOk) :
    SafeCall GpioInBounds GpioSame (pin ≥ 40) s r := by
  apply pin_safe hs
  · intro h
    rw [hge h]
    exact ⟨rfl, .inl rfl⟩
  · intro h
    obtain ⟨hbounds, hok⟩ := hlt (Nat.not_le.mpr h)
    exact ⟨hbounds, fun href => absurd hok (refused_ne href)⟩

theorem tklGpioWrite_safe {s : GpioState} (hs : GpioInBounds s) (pinId : UInt8)
    (level : GpioLevel) :
    SafeCall GpioInBounds GpioSame (pinId.toNat ≥ 40) s (tklGpioWrite s pinId level) := by
  apply pin_checked_safe hs
  · exact fun h => if_pos h
  · intro h
    have hbounds := (gpioInBounds_gpio s pinId.toNat).mpr ⟨hs, Nat.not_le.mp h⟩
    unfold tklGpioWrite
    rw [if_neg h]
    simp only
    split
    · exact ⟨hbounds, rfl⟩
    · exact ⟨hbounds, rfl⟩

theorem tklGpioRead_safe {s : GpioState} (hs : GpioInBounds s) (pinId : UInt8)
    (inputGet : Bool) : SafeCall GpioInBounds GpioSame (pinId.toNat ≥ 40) s
      ((tklGpioRead s pinId inputGet).1, (tklGpioRead s pinId inputGet).2.2) := by
  apply pin_checked_safe hs
  · intro h
    have hret : tklGpioRead s pinId inputGet = (oprtInvalidParm, none, s) := if_pos h
    rw [hret]
  · intro h
    unfold tklGpioRead
    rw [if_neg h]
    exact ⟨(gpioInBounds_gpio s pinId.toNat).mpr ⟨hs, Nat.not_le.mp h⟩, rfl⟩

theorem tklGpioIrqEnable_safe {s : GpioState} (hs : GpioInBounds s) (pinId : UInt8) :
    SafeCall GpioInBounds GpioSame (pinId.toNat ≥ 40) s (tklGpioIrqEnable s pinId) := by
  apply pin_checked_safe hs
  · exact fun h => if_pos h
  · intro h
    unfold tklGpioIrqEnable
    rw [if_neg h]
    exact ⟨hs, rfl⟩

theorem tklGpioIrqDisable_safe {s : GpioState} (hs : GpioInBounds s) (pinId : UInt8) :
    SafeCall GpioInBounds GpioSame (pinId.toNat ≥ 40) s (tklGpioIrqDisable s pinId) := by
  apply pin_checked_safe hs
  · exact fun h => if_pos h
  · intro h
    unfold tklGpioIrqDisable
    rw [if_neg h]
    exact ⟨(gpioInBounds_gpio s pinId.toNat).mpr ⟨hs, Nat.not_le.mp h⟩, rfl⟩

/-- A call that is safe with the pin as a byte, and the pin as it is passed. -/
theorem pin_wide_iff {s : GpioState} {pinId : UInt32} {r : OperateRet × GpioState} {fails : Prop}
    (hsafe : SafeCall GpioInBounds GpioSame (pinId.toUInt8.toNat ≥ 40) s r)
    (hfails : pinId.toUInt8.toNat < 40 → (FailsClean GpioSame s r ↔ fails)) :
    SafeCall GpioInBounds GpioSame (pinId.toNat ≥ 40) s r ↔
      pinId.toNat < 256 ∨ pinId.toUInt8.toNat ≥ 40 ∨ fails := by
  rw [outside_iff pinId (by decide), SafeCall.wide_iff (iff_true_intro hsafe)
    fun _ hin => hfails (Nat.not_le.mp hin), true_and, Nat.not_le]

/-- A call that returns `OPRT_OK` for each pin of the table. -/
theorem pin_ok_wide_iff {s : GpioState} {pinId : UInt32} {r : OperateRet × GpioState}
    (hsafe : SafeCall GpioInBounds GpioSame (pinId.toUInt8.toNat ≥ 40) s r)
    (hok : pinId.toUInt8.toNat < 40 → r.1 = oprtOk) :
    SafeCall GpioInBounds GpioSame (pinId.toNat ≥ 40) s r ↔
      pinId.toNat < 256 ∨ pinId.toUInt8.toNat ≥ 40 := by
  have hfails : pinId.toUInt8.toNat < 40 → (FailsClean GpioSame s r ↔ False) := fun hlt =>
    iff_of_false (not_failsClean_ok (hok hlt)) id
  have h := pin_wide_iff hsafe hfails
  rwa [or_false] at h

theorem tklGpioInit_fails_iff (s : GpioState) (pinId : UInt8) (cfg : GpioBaseCfg) :
    FailsClean GpioSame s (tklGpioInit s pinId cfg) ↔
      cfg.direct ≠ .input ∧ cfg.direct ≠ .output := by
  rw [← bkGpioCfg_eq_none]
  unfold tklGpioInit
  cases bkGpioCfg cfg with
  | none => exact iff_of_true ⟨refused_ne (.inr (.inl rfl)), .refl s⟩ rfl
  | some bkCfg =>
    refine iff_of_false (not_failsClean_ok ?_) fun h => nomatch h
    simp only
    split
    · split <;> rfl
    · rfl

theorem tklGpioIrqInit_fails_iff (s : GpioState) {pinId : UInt8} (h : pinId.toNat < 40)
    (cfg : Option GpioIrq) : FailsClean GpioSame s (tklGpioIrqInit s pinId cfg) ↔
      ∀ irq, cfg = some irq → irq.mode = .riseFall := by
  unfold tklGpioIrqInit
  rw [if_neg (by omega)]
  cases cfg with
  | none => exact iff_of_true ⟨refused_ne (.inl rfl), .refl s⟩ nofun
  | some cfg =>
    have hmode : irqTrigger cfg.mode = none ↔ cfg.mode = .riseFall := by
      cases cfg.mode <;> decide
    simp only [Option.some.injEq, forall_eq']
    rw [← hmode]
    cases irqTrigger cfg.mode with
    | none => exact iff_of_true ⟨refused_ne (.inr (.inl rfl)), .refl s⟩ rfl
    | some trigger => exact iff_of_false (not_failsClean_ok rfl) fun h => nomatch h

/-- A call of the GPIO adapter is safe if and only if its checks do what they should. -/
theorem gpio_safe_iff {s : GpioState} (hs : GpioInBounds s) (c : GpioCall) :
    SafeCall GpioInBounds GpioSame (gpioPin c ≥ 40) s (gpioCall s c) ↔ gpioChecked c := by
  have hnum : pinDevNum = 40 := rfl
  cases c with
  | init pinId cfg =>
    show SafeCall GpioInBounds GpioSame (pinId.toNat ≥ 40) s (tklGpioInit s pinId.toUInt8 cfg) ↔ _
    rw [outside_iff pinId (by decide), SafeCall.wide_iff (tklGpioInit_safe_iff hs _ cfg)
      fun _ _ => tklGpioInit_fails_iff s _ cfg, UInt32.toNat_toUInt8]
    show _ ↔ pinId.toNat < 40 ∨ _
    by_cases hrefused : cfg.direct ≠ .input ∧ cfg.direct ≠ .output
    · exact iff_of_true ⟨.inr hrefused, .inr (.inr hrefused)⟩ (.inr hrefused)
    · rw [or_iff_left hrefused, or_iff_left hrefused, or_iff_left hrefused]
      omega
  | write pinId level =>
    refine pin_ok_wide_iff (tklGpioWrite_safe hs _ level) fun hlt => ?_
    unfold gpioCall tklGpioWrite
    simp only [if_neg (show ¬pinId.toUInt8.toNat ≥ pinDevNum by omega)]
    split <;> rfl
  | read pinId inputGet =>
    refine pin_ok_wide_iff (tklGpioRead_safe hs _ inputGet) fun hlt => ?_
    unfold gpioCall tklGpioRead
    simp only [if_neg (show ¬pinId.toUInt8.toNat ≥ pinDevNum by omega)]
  | irqInit pinId cfg =>
    exact pin_wide_iff (tklGpioIrqInit_safe hs _ cfg) fun hlt => tklGpioIrqInit_fails_iff s hlt cfg
  | irqEnable pinId =>
    refine pin_ok_wide_iff (tklGpioIrqEnable_safe hs _) fun hlt => ?_
    unfold gpioCall tklGpioIrqEnable
    simp only [if_neg (show ¬pinId.toUInt8.toNat ≥ pinDevNum by omega)]
  | irqDisable pinId =>
    refine pin_ok_wide_iff (tklGpioIrqDisable_safe hs _) fun hlt => ?_
    unfold gpioCall tklGpioIrqDisable
    simp only [if_neg (show ¬pinId.toUInt8.toNat ≥ pinDevNum by omega)]

/-! ## ADC -/

/-- The accesses to `g_adc_init`. -/
def AdcInBounds (s : AdcState) : Prop := s.gAdcInit.InBounds

/-- The entries of `g_adc_init`. -/
def AdcSame (s s' : AdcState) : Prop := s.gAdcInit.Same s'.gAdcInit

/-- `tkl_adc_read_single_channel` with a port and a channel id of 32 bits, of which its parameters
    take the low 8. -/
structure AdcRead where
  io : AdcIo
  portNum : UInt32
  chId : UInt32
  data : UInt32

/-- The call. -/
def adcRead (s : AdcState) (c : AdcRead) : OperateRet × AdcState :=
  tklAdcReadSingleChannel c.io s c.portNum.toUInt8 c.chId.toUInt8 c.data

/-- A read of a channel that is not initialised, without a buffer, or without a device. -/
def AdcReadFails (s : AdcState) (c : AdcRead) : Prop :=
  s.gAdcInit.entry c.chId.toUInt8.toNat = 0 ∨ c.data = 0 ∨ c.io.opened = false

/-- The low byte of the port is refused, or that of the channel is not 6, and they are the ids, or
    it is refused, or the read fails. -/
def adcChecked (s : AdcState) (c : AdcRead) : Prop :=
  c.portNum.toUInt8.toNat > 0 ∨ (c.chId.toUInt8.toNat ≠ 6 ∧
    ((c.portNum.toNat < 256 ∧ c.chId.toNat < 256) ∨ c.chId.toUInt8.toNat > 6 ∨ AdcReadFails s c))

/-- What a read behind the checks does to the table, and when it fails. -/
theorem adcRead_table {s : AdcState} {c : AdcRead} (hport : ¬c.portNum.toUInt8.toNat > 0)
    (hch : ¬c.chId.toUInt8.toNat > 6) :
    (adcRead s c).2.gAdcInit = (s.gAdcInit.read c.chId.toUInt8.toNat).2 ∧
      ((adcRead s c).1 ≠ oprtOk ↔ AdcReadFails s c) := by
  unfold adcRead tklAdcReadSingleChannel AdcReadFails
  rw [if_neg (by unfold adcDevNum adcDevChannelSum; omega)]
  simp only [Table.read_fst]
  split
  · rename_i h0
    exact ⟨rfl, iff_of_true (show oprtOsAdapterComError ≠ oprtOk by decide) (.inl h0)⟩
  · rename_i h0
    split
    · rename_i hdata
      exact ⟨rfl, iff_of_true (show oprtMallocFailed ≠ oprtOk by decide) (.inr (.inl hdata))⟩
    · rename_i hdata
      split
      · rename_i hopen
        refine ⟨rfl, iff_of_false (not_not.mpr rfl) ?_⟩
        rintro (h | h | h)
        · exact h0 h
        · exact hdata h
        · exact Bool.false_ne_true (h.symm.trans hopen)
      · rename_i hopen
        exact ⟨rfl, iff_of_true comError_ne_ok (.inr (.inr (Bool.not_eq_true _ ▸ hopen)))⟩

/-- A read by the low bytes: the check lets the channel 6 pass. -/
theorem adcRead_safe_iff {s : AdcState} (hs : AdcInBounds s) (c : AdcRead) :
    SafeCall AdcInBounds AdcSame (c.portNum.toUInt8.toNat ≥ 1 ∨ c.chId.toUInt8.toNat ≥ 6) s
        (adcRead s c) ↔
      (c.portNum.toUInt8.toNat > 0 ∨ c.chId.toUInt8.toNat ≠ 6) := by
  by_cases hrefuse : c.portNum.toUInt8.toNat > 0 ∨ c.chId.toUInt8.toNat > 6
  · have hret : adcRead s c = (oprtInvalidParm, s) := if_pos hrefuse
    rw [hret]
    exact iff_of_true (.refuse hs (Table.Same.refl _) (.inl rfl)) (by omega)
  · obtain ⟨hport, hch⟩ := not_or.mp hrefuse
    obtain ⟨htable, -⟩ := adcRead_table (s := s) hport hch
    have hbounds : AdcInBounds (adcRead s c).2 ↔ c.chId.toUInt8.toNat < 6 := by
      unfold AdcInBounds
      rw [htable, Table.inBounds_read]
      exact and_iff_right hs
    have hsame : AdcSame s (adcRead s c).2 := by
      apply Table.Same.of_eq
      rw [htable, Table.entry_read]
    constructor
    · intro hsafe
      have hin := hbounds.mp hsafe.inBounds
      omega
    · intro hne
      exact ⟨hbounds.mpr (by omega), fun hout => by omega, fun _ => hsame⟩

/-- A read is safe if and only if its check does what it should. -/
theorem adc_safe_iff {s : AdcState} (hs : AdcInBounds s) (c : AdcRead) :
    SafeCall AdcInBounds AdcSame (c.portNum.toNat ≥ 1 ∨ c.chId.toNat ≥ 6) s (adcRead s c) ↔
      adcChecked s c := by
  have hfails : ¬(c.portNum.toUInt8.toNat ≥ 1 ∨ c.chId.toUInt8.toNat ≥ 6) →
      (FailsClean AdcSame s (adcRead s c) ↔ AdcReadFails s c) := by
    intro hin
    obtain ⟨hport, hch⟩ := not_or.mp hin
    obtain ⟨htable, hret⟩ := adcRead_table (s := s) (c := c) (by omega) (by omega)
    unfold FailsClean
    rw [hret]
    refine and_iff_left (Table.Same.of_eq ?_)
    rw [htable, Table.entry_read]
  rw [outside_iff c.portNum (by decide), outside_iff c.chId (by decide), or_or_or_comm,
    SafeCall.wide_iff (adcRead_safe_iff hs c) fun _ => hfails]
  unfold adcChecked
  by_cases hport : c.portNum.toUInt8.toNat > 0
  · exact iff_of_true ⟨.inl hport, .inr (.inl (.inl hport))⟩ (.inl hport)
  · rw [or_iff_right hport, or_iff_right hport]
    refine and_congr_right fun hne => or_congr (by omega) (or_congr_left (by omega))

/-! ## Runs -/

/-- The state of the three adapters. -/
structure DrvState where
  pwm : PwmState
  gpio : GpioState
  adc : AdcState

/-- The calls of the three adapters. -/
inductive DrvCall
  | pwm (io : PwmIo) (c : PwmCall)
  | gpio (c : GpioCall)
  | adc (c : AdcRead)

/-- One call. -/
def drvStep (s : DrvState) : DrvCall → DrvState × OperateRet
  | .pwm io c => ({ s with pwm := (pwmCall io s.pwm c).2 }, (pwmCall io s.pwm c).1)
  | .gpio c => ({ s with gpio := (gpioCall s.gpio c).2 }, (gpioCall s.gpio c).1)
  | .adc c => ({ s with adc := (adcRead s.adc c).2 }, (adcRead s.adc c).1)

/-- Every access so far has been inside its table. -/
structure TablesInBounds (s : DrvState) : Prop where
  pwm : PwmInBounds s.pwm
  gpio : GpioInBounds s.gpio
  adc : AdcInBounds s.adc

/-- All four tables have the same entries. -/
structure TablesSame (s s' : DrvState) : Prop where
  pwm : PwmSame s.pwm s'.pwm
  gpio : GpioSame s.gpio s'.gpio
  adc : AdcSame s.adc s'.adc

/-- Some id of the call is outside its table. -/
def Outside : DrvCall → Prop
  | .pwm _ c => pwmOutside c
  | .gpio c => gpioPin c ≥ 40
  | .adc c => c.portNum.toNat ≥ 1 ∨ c.chId.toNat ≥ 6

/-- A step is safe: all accesses inside the tables, ids outside them refused, and the tables
    unchanged by a refused call. -/
def SafeStep (s : DrvState) (c : DrvCall) : Prop :=
  SafeCall TablesInBounds TablesSame (Outside c) s ((drvStep s c).2, (drvStep s c).1)

/-- The call passes the checks that are missing or wrong. -/
def Checked (s : DrvState) : DrvCall → Prop
  | .pwm io c => pwmChecked io s.pwm c
  | .gpio c => gpioChecked c
  | .adc c => adcChecked s.adc c

/-- The safety of a call of one adapter is that of the step. -/
theorem safeCall_congr {σ τ : Type} {inBounds : σ → Prop} {same : σ → σ → Prop}
    {inBounds' : τ → Prop} {same' : τ → τ → Prop} {outside : Prop} {s s' : σ} {t t' : τ}
    {ret : OperateRet} (hb : inBounds s' ↔ inBounds' t') (hsame : same s s' ↔ same' t t') :
    SafeCall inBounds same outside s (ret, s') ↔
      SafeCall inBounds' same' outside t (ret, t') := by
  constructor
  · rintro ⟨h1, h2, h3⟩
    exact ⟨hb.mp h1, h2, fun ho => hsame.mp (h3 ho)⟩
  · rintro ⟨h1, h2, h3⟩
    exact ⟨hb.mpr h1, h2, fun ho => hsame.mpr (h3 ho)⟩

theorem safeStep_iff {s : DrvState} (hs : TablesInBounds s) (c : DrvCall) :
    SafeStep s c ↔ Checked s c := by
  unfold SafeStep
  cases c with
  | pwm io c =>
    rw [show Checked s (.pwm io c) ↔ _ from (pwm_safe_iff io hs.pwm c).symm]
    apply safeCall_congr
    · exact ⟨fun h => h.pwm, fun h => ⟨h, hs.gpio, hs.adc⟩⟩
    · exact ⟨fun h => h.pwm, fun h => ⟨h, .refl _, Table.Same.refl _⟩⟩
  | gpio c =>
    rw [show Checked s (.gpio c) ↔ _ from (gpio_safe_iff hs.gpio c).symm]
    apply safeCall_congr
    · exact ⟨fun h => h.gpio, fun h => ⟨hs.pwm, h, hs.adc⟩⟩
    · exact ⟨fun h => h.gpio, fun h => ⟨.refl _, h, Table.Same.refl _⟩⟩
  | adc c =>
    rw [show Checked s (.adc c) ↔ _ from (adc_safe_iff hs.adc c).symm]
    apply safeCall_congr
    · exact ⟨fun h => h.adc, fun h => ⟨hs.pwm, hs.gpio, h⟩⟩
    · exact ⟨fun h => h.adc, fun h => ⟨.refl _, .refl _, h⟩⟩

/-- The state with these tables, before any access. -/
def DrvState.of (pwmCfg : Nat → PwmBaseCfg) (pwmStartFlag : Nat → UInt8) (hw : Vendor.PwmHw)
    (pinmap : Nat → PinDevMap) (gAdcInit : Nat → UInt8) (adcDesc : SaradcDesc)
    (adcChNums : UInt8) : DrvState where
  pwm := { pwmCfg := .of _ pwmCfg, pwmStartFlag := .of _ pwmStartFlag, hw }
  gpio := { pinmap := .of _ pinmap, ops := [] }
  adc := { adcDesc, gAdcInit := .of _ gAdcInit, adcChNums }

theorem inBounds_drvState (pwmCfg : Nat → PwmBaseCfg) (pwmStartFlag : Nat → UInt8)
    (hw : Vendor.PwmHw) (pinmap : Nat → PinDevMap) (gAdcInit : Nat → UInt8)
    (adcDesc : SaradcDesc) (adcChNums : UInt8) : TablesInBounds
      (.of pwmCfg pwmStartFlag hw pinmap gAdcInit adcDesc adcChNums) :=
  ⟨⟨Table.inBounds_of _, Table.inBounds_of _⟩, Table.inBounds_of _, Table.inBounds_of _⟩

/-- Every sequence of calls, from any contents of the tables: all steps are safe if and only if no
    PWM call is made with an id whose low byte is 6 (for a pair, with 6 as the larger one),
    `tkl_gpio_init` with no pin outside the table unless it refuses the direction, no ADC read of
    port 0 with an id whose low byte is 6, and no call with an id from 256 on whose low byte it
    accepts and that succeeds. -/
theorem driver_tables_safe_iff (pwmCfg : Nat → PwmBaseCfg) (pwmStartFlag : Nat → UInt8)
    (hw : Vendor.PwmHw) (pinmap : Nat → PinDevMap) (gAdcInit : Nat → UInt8)
    (adcDesc : SaradcDesc) (adcChNums : UInt8) (cs : List DrvCall) :
    let s := DrvState.of pwmCfg pwmStartFlag hw pinmap gAdcInit adcDesc adcChNums
    Along drvStep SafeStep s cs ↔ Along drvStep Checked s cs := by
  apply along_congr (I := TablesInBounds)
  · exact fun s c _ hsafe => hsafe.inBounds
  · exact fun s c hs => safeStep_iff hs c
  · exact inBounds_drvState ..

/-- `tkl_pwm_init` for `PWM_NUM_MAX`, the id that `analogWrite` starts from. -/
theorem driver_tables_unsafe :
    ¬ ∀ (pwmCfg : Nat → PwmBaseCfg) (pwmStartFlag : Nat → UInt8) (hw : Vendor.PwmHw)
      (pinmap : Nat → PinDevMap) (gAdcInit : Nat → UInt8) (adcDesc : SaradcDesc)
      (adcChNums : UInt8) (cs : List DrvCall),
      Along drvStep SafeStep
        (.of pwmCfg pwmStartFlag hw pinmap gAdcInit adcDesc adcChNums) cs := by
  intro h
  have hrun := h (fun _ => ⟨.negative, 0, 0⟩) (fun _ => 0) ⟨fun _ => ⟨0, 0, 0, 0⟩, fun _ => false,
    false⟩ (fun i => { gpio := i }) (fun _ => 0) {} 0 [.pwm {} (.init 6 ⟨.negative, 5000, 1000⟩)]
  have hchecked := (safeStep_iff (inBounds_drvState ..) _).mp hrun.1
  exact hchecked.1 rfl

end ArduinoT2.Driver
