import ArduinoT2.Adapter.TklAdc
import ArduinoT2.Lib.StepSys

/-
  The channel set of the ADC (tkl_adc.c): what `tkl_adc_init` reads of the caller's list, what
  `g_adc_init` says behind it, and what a refused call leaves.

  The loop runs over `ADC_DEV_CHANNEL_SUM` entries, whatever `ch_nums` says, and the mode is
  checked when the tables have been cleared. `adc_channel_set_iff` says for which calls this
  makes no difference: lists of six entries, and refusals of the mode on tables that are clear.
-/

namespace ArduinoT2.Driver

open StepSys ArduinoT2.Adapter

/-! ## The calls -/

/-- A call of the adapter. -/
inductive AdcCall
  | init (portNum : UInt8) (cfg : AdcBaseCfg)
  | readSingleChannel (io : AdcIo) (portNum chId : UInt8) (data : UInt32)
  | readData (io : AdcIo) (portNum : UInt8) (buff : UInt32) (len : UInt16)

/-- One call: the return value, and the entries of `ch_list` that it reads. -/
def adcStep (s : AdcState) : AdcCall → AdcState × OperateRet × List Nat
  | .init portNum cfg =>
    let (ret, reads, s) := tklAdcInit s portNum cfg
    (s, ret, reads)
  | .readSingleChannel io portNum chId data =>
    let (ret, s) := tklAdcReadSingleChannel io s portNum chId data
    (s, ret, [])
  | .readData io portNum buff len =>
    let (ret, s) := tklAdcReadData io s portNum buff len
    (s, ret, [])

/-- The configuration is the same. -/
structure AdcKeeps (s s' : AdcState) : Prop where
  gAdcInit : s.gAdcInit.Same s'.gAdcInit
  adcChNums : s'.adcChNums = s.adcChNums
  adcDesc : s'.adcDesc = s.adcDesc

/-- `c` is among the `ch_nums` channels of the list. -/
def Listed (cfg : AdcBaseCfg) (c : Nat) : Prop :=
  ∃ chList, cfg.chList = some chList ∧ ∃ i < cfg.chNums.toNat, (chList i).toNat = c

/-- What a call must do: an init reads its list only, it initialises the channels on it if it
    succeeds, and a call that refuses its parameters leaves the configuration. -/
def ChannelSetOk (s : AdcState) (c : AdcCall) : Prop :=
  let (s', ret, reads) := adcStep s c
  (ret = oprtInvalidParm → AdcKeeps s s') ∧
    match c with
    | .init _ cfg => (∀ i ∈ reads, i < cfg.chNums.toNat) ∧
        (ret = oprtOk → ∀ c < adcDevChannelSum, s'.gAdcInit.entry c = 1 ↔ Listed cfg c)
    | _ => True

/-- The first check of `tkl_adc_init` refuses the call. -/
def initRefused (portNum : UInt8) (cfg : AdcBaseCfg) : Prop :=
  portNum.toNat > 0 ∨ cfg.chNums.toNat > 6 ∨ cfg.chList = none

/-- No channel is initialised and the descriptor is clear. -/
structure AdcClear (s : AdcState) : Prop where
  gAdcInit : ∀ c < 6, s.gAdcInit.entry c = 0
  adcDesc : s.adcDesc = {}

/-- The calls that do what they must. -/
def initMeets (s : AdcState) : AdcCall → Prop
  | .init portNum cfg => initRefused portNum cfg ∨
      if (adcConfigMode cfg.mode).isSome then cfg.chNums.toNat = 6 else AdcClear s
  | _ => True

/-! ## The loop of `tkl_adc_init` -/

theorem adcInitChannel_entry (chList : Nat → UInt8) (t : Table adcDevChannelSum UInt8) (i : Nat)
    {c : Nat} (hc : c < 6) : (adcInitChannel chList t i).entry c =
      if (chList i).toNat = c then 1 else t.entry c := by
  unfold adcInitChannel
  simp only
  split
  · rw [Table.entry_write, Function.update_apply]
    exact if_congr eq_comm rfl rfl
  · rename_i hout
    have hne : ¬(chList i).toNat = c := fun heq => hout (heq ▸ hc)
    rw [if_neg hne]

/-- The loop sets the channels that it has read. -/
theorem initLoop_entry (chList : Nat → UInt8) (t : Table adcDevChannelSum UInt8) (n : Nat) {c : Nat}
    (hc : c < 6) : ((List.range n).foldl (adcInitChannel chList) t).entry c =
      if ∃ i < n, (chList i).toNat = c then 1 else t.entry c := by
  induction n with
  | zero => exact (if_neg fun ⟨i, hi, _⟩ => absurd hi (Nat.not_lt_zero i)).symm
  | succ n ih =>
    rw [List.range_succ, List.foldl_concat, adcInitChannel_entry chList _ n hc, ih]
    by_cases hn : (chList n).toNat = c
    · rw [if_pos hn, if_pos ⟨n, n.lt_succ_self, hn⟩]
    · rw [if_neg hn]
      refine if_congr ⟨fun ⟨i, hi, heq⟩ => ⟨i, Nat.lt_succ_of_lt hi, heq⟩, ?_⟩ rfl rfl
      intro hlisted
      obtain ⟨i, hi, heq⟩ := hlisted
      rcases Nat.lt_succ_iff_lt_or_eq.mp hi with hi | rfl
      · exact ⟨i, hi, heq⟩
      · exact absurd heq hn

/-! ## One call -/

theorem invalidParm_ne_ok : oprtInvalidParm ≠ oprtOk := by decide

theorem AdcKeeps.refl (s : AdcState) : AdcKeeps s s := ⟨.refl _, rfl, rfl⟩

theorem AdcKeeps.of_eq {s s' : AdcState} (h : s' = s) : AdcKeeps s s' := h ▸ .refl s

theorem init_refused {s : AdcState} {portNum : UInt8} {cfg : AdcBaseCfg}
    (h : initRefused portNum cfg) : tklAdcInit s portNum cfg = (oprtInvalidParm, [], s) := by
  unfold tklAdcInit adcDevNum adcDevChannelSum
  rcases h with h | h | h
  · exact if_pos (.inl h)
  · exact if_pos (.inr h)
  · rw [h]
    exact ite_self _

/-- The tables behind the `memset` calls. -/
def adcCleared (s : AdcState) : AdcState :=
  { s with gAdcInit := s.gAdcInit.fill 0, adcDesc := {} }

theorem adcCleared_entry (s : AdcState) {c : Nat} (hc : c < 6) :
    (adcCleared s).gAdcInit.entry c = 0 := if_pos hc

theorem adcKeeps_cleared (s : AdcState) : AdcKeeps s (adcCleared s) ↔ AdcClear s := by
  constructor
  · intro h
    exact ⟨fun c hc => (h.gAdcInit c hc).symm.trans (adcCleared_entry s hc), h.adcDesc.symm⟩
  · intro h
    exact ⟨fun c hc => (adcCleared_entry s hc).trans (h.gAdcInit c hc).symm, rfl, h.adcDesc.symm⟩

theorem init_passes {portNum : UInt8} {cfg : AdcBaseCfg} (h : ¬initRefused portNum cfg) :
    cfg.chNums.toNat ≤ 6 ∧ (∃ chList, cfg.chList = some chList) ∧
      ¬(portNum.toNat > adcDevNum - 1 ∨ cfg.chNums.toNat > adcDevChannelSum) := by
  unfold initRefused at h
  rw [not_or, not_or] at h
  obtain ⟨hport, hnums, hlist⟩ := h
  exact ⟨Nat.not_lt.mp hnums, Option.ne_none_iff_exists'.mp hlist, not_or.mpr ⟨hport, hnums⟩⟩

/-- An init with a mode that is not supported has cleared the tables. -/
theorem init_unsupported {s : AdcState} {portNum : UInt8} {cfg : AdcBaseCfg}
    (h : ¬initRefused portNum cfg) (hmode : adcConfigMode cfg.mode = none) :
    tklAdcInit s portNum cfg = (oprtInvalidParm, [], adcCleared s) := by
  obtain ⟨-, ⟨chList, hlist⟩, hpass⟩ := init_passes h
  unfold tklAdcInit
  rw [if_neg hpass, hlist]
  simp only [hmode]
  rfl

/-- An init that succeeds has read six entries, and has set the channels among them. -/
theorem init_accepted {s : AdcState} {portNum : UInt8} {cfg : AdcBaseCfg}
    (h : ¬initRefused portNum cfg) {mode : UInt8} (hmode : adcConfigMode cfg.mode = some mode) :
    ∃ chList s', cfg.chList = some chList ∧
      tklAdcInit s portNum cfg = (oprtOk, List.range 6, s') ∧
      s'.gAdcInit = (List.range 6).foldl (adcInitChannel chList) (s.gAdcInit.fill 0) := by
  obtain ⟨-, ⟨chList, hlist⟩, hpass⟩ := init_passes h
  unfold tklAdcInit
  rw [if_neg hpass, hlist]
  simp only [hmode]
  exact ⟨chList, _, rfl, rfl, rfl⟩

/-- A call of `tkl_adc_init` does what it must if and only if the check of its parameters refuses
    it, or its list has six entries, or its mode is refused and the tables are clear anyway. -/
theorem init_ok_iff (s : AdcState) (portNum : UInt8) (cfg : AdcBaseCfg) :
    ChannelSetOk s (.init portNum cfg) ↔ initMeets s (.init portNum cfg) := by
  unfold ChannelSetOk adcStep initMeets
  simp only
  by_cases hrefused : initRefused portNum cfg
  · rw [init_refused hrefused]
    refine iff_of_true ⟨fun _ => .refl s, ?_, ?_⟩ (.inl hrefused)
    · exact (fun i hi => nomatch hi)
    · exact fun hret => absurd hret invalidParm_ne_ok
  · rw [or_iff_right hrefused]
    cases hmode : adcConfigMode cfg.mode with
    | none =>
      rw [init_unsupported hrefused hmode]
      simp only [Option.isSome_none, Bool.false_eq_true, if_false]
      rw [← adcKeeps_cleared]
      constructor
      · exact fun h => h.1 trivial
      · intro h
        refine ⟨fun _ => h, ?_, ?_⟩
        · exact (fun i hi => nomatch hi)
        · exact fun hret => absurd hret invalidParm_ne_ok
    | some mode =>
      obtain ⟨chList, s', hlist, hinit, htable⟩ := init_accepted (s := s) hrefused hmode
      rw [hinit]
      simp only [Option.isSome_some, if_true]
      have hle := (init_passes hrefused).1
      constructor
      · intro h
        -- the last entry that is read is the sixth
        have hlast := h.2.1 5 (by decide)
        omega
      · intro h6
        refine ⟨fun hret => absurd hret invalidParm_ne_ok.symm, fun i hi => ?_, fun _ c hc => ?_⟩
        · rw [h6]
          exact List.mem_range.mp hi
        · have hentry := initLoop_entry chList (s.gAdcInit.fill 0) 6 hc
          rw [show (s.gAdcInit.fill 0).entry c = 0 from if_pos hc] at hentry
          rw [htable, hentry, ite_eq_left_iff]
          unfold Listed
          rw [hlist, h6]
          constructor
          · intro h
            exact ⟨chList, rfl, not_not.mp fun hno => absurd (h hno) (by decide)⟩
          · rintro ⟨_, heq, hlisted⟩ hno
            rw [Option.some.inj heq] at hno
            exact absurd hlisted hno

/-- A read refuses its parameters before it has changed anything. -/
theorem readSingleChannel_keeps {io : AdcIo} {s : AdcState} {portNum chId : UInt8}
    {data : UInt32} (h : (tklAdcReadSingleChannel io s portNum chId data).1 = oprtInvalidParm) :
    (tklAdcReadSingleChannel io s portNum chId data).2 = s ∧
      (portNum.toNat > 0 ∨ chId.toNat > 6) := by
  unfold tklAdcReadSingleChannel at h ⊢
  split at h
  · rename_i hrefused
    rw [if_pos hrefused]
    exact ⟨rfl, hrefused⟩
  · simp only at h
    split_ifs at h
    all_goals
      simp only at h
      exact absurd h (by decide)

/-- The reads of the loop do not refuse their parameters. -/
theorem readLoop_ret (io : AdcIo) {portNum : UInt8} (buff : UInt32) (hport : ¬portNum.toNat > 0)
    (is : List Nat) (his : ∀ i ∈ is, i < 6) {r : OperateRet × Nat × AdcState}
    (hr : r.1 ≠ oprtInvalidParm) :
    (is.foldl (adcReadChannel io portNum buff) r).1 ≠ oprtInvalidParm := by
  induction is generalizing r with
  | nil => exact hr
  | cons i is ih =>
    refine ih (fun j hj => his j (List.mem_cons_of_mem _ hj)) ?_
    have hi : (UInt8.ofNat i).toNat ≤ 6 := by
      have := his i List.mem_cons_self
      rw [UInt8.toNat_ofNat']
      omega
    unfold adcReadChannel
    simp only
    split
    · intro hret
      rcases (readSingleChannel_keeps hret).2 with h | h
      · exact hport h
      · omega
    · exact hr

theorem readData_keeps {io : AdcIo} {s : AdcState} {portNum : UInt8} {buff : UInt32} {len : UInt16}
    (h : (tklAdcReadData io s portNum buff len).1 = oprtInvalidParm) :
    (tklAdcReadData io s portNum buff len).2 = s := by
  unfold tklAdcReadData at h ⊢
  split at h
  · rename_i hrefused
    rw [if_pos hrefused]
  · rename_i hport
    have hstart : (if s.adcChNums.toNat * s.adcDesc.dataBuffSize.toNat > len.toNat then oprtComError
        else oprtOk) ≠ oprtInvalidParm := by
      split <;> decide
    have hloop := readLoop_ret io buff hport (List.range adcDevChannelSum)
      (fun i hi => List.mem_range.mp hi) (r := (_, 0, s)) hstart
    simp only at h
    exact absurd h hloop

/-- A call does what it must if and only if it is one of these. -/
theorem adcStep_ok_iff (s : AdcState) (c : AdcCall) : ChannelSetOk s c ↔ initMeets s c := by
  cases c with
  | init portNum cfg => exact init_ok_iff s portNum cfg
  | readSingleChannel io portNum chId data =>
    unfold ChannelSetOk adcStep
    simp only
    refine iff_of_true (And.intro ?_ trivial) trivial
    exact fun hret => .of_eq (readSingleChannel_keeps hret).1
  | readData io portNum buff len =>
    unfold ChannelSetOk adcStep
    simp only
    refine iff_of_true (And.intro ?_ trivial) trivial
    exact fun hret => .of_eq (readData_keeps hret)

/-! ## Runs -/

/-- In a sequence of calls, from any configuration, each does what it must if and only if each
    init has a list of six entries, or is refused for its parameters, or is refused for its mode
    when the tables are clear. -/
theorem adc_channel_set_iff (s : AdcState) (cs : List AdcCall) :
    Along adcStep ChannelSetOk s cs ↔ Along adcStep initMeets s cs :=
  along_congr (I := fun _ => True) (fun _ _ _ _ => trivial) (fun s c _ => adcStep_ok_iff s c)
    trivial cs

/-- The channels of the analog pins, as `analogRead` has them. -/
def analogChannel (pinNumber : Nat) : Option UInt8 :=
  if pinNumber = 22 then some 4
  else if pinNumber = 23 then some 2
  else if pinNumber = 24 then some 1
  else if pinNumber = 26 then some 0
  else if pinNumber = 28 then some 3
  else none

/-- The configuration of `analogRead`: a list of one byte, with `behind` behind it. -/
def analogCfg (chanList : UInt8) (behind : Nat → UInt8) : AdcBaseCfg where
  chList := some fun i => if i = 0 then chanList else behind i
  chNums := 1
  mode := .continuous
  convCnt := 1

/-- The init of `analogRead`. -/
def analogInit (pinNumber : Nat) (behind : Nat → UInt8) : Option AdcCall :=
  (analogChannel pinNumber).map fun chanList => .init 0 (analogCfg chanList behind)

/-- The init of `analogRead` reads behind its list, whatever the pin. -/
theorem analogInit_not_ok (s : AdcState) {pinNumber : Nat} {behind : Nat → UInt8} {c : AdcCall}
    (h : c ∈ analogInit pinNumber behind) : ¬ChannelSetOk s c := by
  obtain ⟨chanList, -, rfl⟩ := Option.map_eq_some_iff.mp h
  rw [adcStep_ok_iff]
  intro hmeets
  rcases hmeets with h | h
  · rcases h with h | h | h
    · exact absurd h (by decide)
    · exact absurd h (show ¬(1 : UInt8).toNat > 6 by decide)
    · exact nomatch h
  · exact absurd h (show ¬(1 : UInt8).toNat = 6 by decide)

/-- `analogRead` of pin 22, first thing: it reads five bytes behind its list. -/
theorem adc_channel_set_analogRead :
    ∃ c ∈ analogInit 22 (fun _ => 0), ¬Along adcStep ChannelSetOk .static [c] := by
  have hc : AdcCall.init 0 (analogCfg 4 fun _ => 0) ∈ analogInit 22 fun _ => 0 := rfl
  exact ⟨_, hc, fun h => analogInit_not_ok .static hc h.1⟩

end ArduinoT2.Driver
