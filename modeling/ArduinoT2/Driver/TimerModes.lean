import ArduinoT2.Adapter.TklTimer
import ArduinoT2.Lib.StepSys
import Mathlib.Tactic.IntervalCases

/-
  The timers of the adapter (tkl_timer.c) over the channels of bk_timer.c.

  The callbacks, the channels and the state of the timers are right in every run
  (`interrupt_calls`). The mode is stored and never looked at: a channel goes on until it is
  stopped, and so do the callbacks of a timer that has been initialised with
  `TUYA_TIMER_MODE_ONCE`. `timer_modes_iff` says that a second period of such a timer is all that
  goes wrong. The callbacks themselves make no calls here.
-/

namespace ArduinoT2.Driver

open StepSys ArduinoT2.Adapter ArduinoT2.Vendor

/-! ## What the timers promise -/

/-- The channel of a timer. -/
def timerChannel (timerId : Nat) : Nat := if timerId < 2 then timerId else timerId + 2

/-- The state, with what has been asked of each timer: its last configuration, whether it has been
    started and not stopped, how often its callback has run in mode ONCE since the last start, and
    whether a period has ended in that mode since then. -/
structure TimerRun where
  state : TimerState
  cfg : Nat → TimerBaseCfg
  running : Nat → Bool
  onceCalls : Nat → Nat
  onceEnded : Nat → Bool

/-- At reset no timer has a callback. -/
def TimerRun.static : TimerRun :=
  ⟨.static, fun _ => ⟨.once, 0, 0⟩, fun _ => false, fun _ => 0, fun _ => false⟩

/-- A start that is not refused: the timers 2 and 3 have a period of at least 1 ms. -/
def startTaken (timerId : Nat) (us : UInt32) : Prop := timerId < 4 ∧ (timerId < 2 ∨ 1000 ≤ us)

instance (timerId : Nat) (us : UInt32) : Decidable (startTaken timerId us) :=
  inferInstanceAs (Decidable (_ ∧ _))

/-- The timer is to call back when these periods end. -/
def due (r : TimerRun) (ends : Nat → Bool) (timerId : Nat) : Bool :=
  r.running timerId && ends (timerChannel timerId) && (r.cfg timerId).cb != 0

/-- The callbacks that are to be called when these periods end, in the order of the channels. -/
def expected (r : TimerRun) (ends : Nat → Bool) : List (Nat × TimerCallback) :=
  [0, 1, 2, 3].filterMap fun timerId =>
    if due r ends timerId then
      some (timerChannel timerId, ⟨(r.cfg timerId).cb, (r.cfg timerId).args⟩)
    else none

/-- What has been asked, with this step, which has called the callbacks `calls`. -/
def TimerRun.after (r : TimerRun) (state : TimerState) (calls : List (Nat × TimerCallback)) :
    TimerInput → TimerRun
  | .init timerId cfg =>
    match cfg with
    | some cfg =>
      { r with state, cfg := if timerId < 4 then Function.update r.cfg timerId cfg else r.cfg }
    | none => { r with state }
  | .start timerId us =>
    if startTaken timerId us then
      { r with
        state
        running := Function.update r.running timerId true
        onceCalls := Function.update r.onceCalls timerId 0
        onceEnded := Function.update r.onceEnded timerId false }
    else { r with state }
  | .stop timerId =>
    { r with
      state
      running := if timerId < 4 then Function.update r.running timerId false else r.running }
  | .interrupt ends =>
    { r with
      state
      onceCalls := fun timerId =>
        if (r.cfg timerId).mode = .once then
          r.onceCalls timerId + calls.countP fun call => call.1 = timerChannel timerId
        else r.onceCalls timerId
      onceEnded := fun timerId =>
        r.onceEnded timerId || ((r.cfg timerId).mode = .once && due r ends timerId) }

/-- One step. -/
def timerStep (r : TimerRun) (i : TimerInput) : TimerRun × List (Nat × TimerCallback) :=
  let (state, _, calls) := timerCall r.state i
  (r.after state calls i, calls)

/-- The callbacks that run are those of the timers that are started and whose periods end, with
    their last configurations, and in mode ONCE none has run twice since the start. -/
def TimerOk (r : TimerRun) (i : TimerInput) : Prop :=
  match i with
  | .interrupt ends => (timerStep r i).2 = expected r ends ∧
    ∀ timerId < 4, (r.cfg timerId).mode = .once → (timerStep r i).1.onceCalls timerId ≤ 1
  | _ => (timerStep r i).2 = []

/-- No second period of a timer in mode ONCE ends before it is stopped or started again. -/
def StoppedInTime (r : TimerRun) : TimerInput → Prop
  | .interrupt ends => ∀ timerId < 4, (r.cfg timerId).mode = .once → due r ends timerId →
    r.onceEnded timerId = false
  | _ => True

/-! ## The interrupt -/

/-- The table and the channels are as they have been asked to be. -/
structure TimerInv (r : TimerRun) : Prop where
  cfg : ∀ timerId < 4, r.state.timerMap (timerChannel timerId) = r.cfg timerId
  running : ∀ timerId < 4, r.state.hw.enabled (timerChannel timerId) = r.running timerId
  handler : ∀ timerId < 4, r.running timerId → r.state.hw.handler (timerChannel timerId) = true
  others : r.state.hw.enabled 2 = false ∧ r.state.hw.enabled 3 = false

/-- Different timers have different channels, and 2 and 3 are no timer's. -/
theorem timerChannel_injective : Function.Injective timerChannel := by
  intro timerId timerId' h
  unfold timerChannel at h
  split at h <;> split at h <;> omega

theorem timerChannel_ne (timerId : Nat) : timerChannel timerId ≠ 2 ∧ timerChannel timerId ≠ 3 := by
  unfold timerChannel
  split <;> omega

/-- The interrupt calls what has been asked for. -/
theorem interrupt_calls {r : TimerRun} (h : TimerInv r) (ends : Nat → Bool) :
    timerInterrupt r.state ends = expected r ends := by
  let call : Nat → Option (Nat × TimerCallback) := fun c =>
    if (ends c && r.state.hw.enabled c) && r.state.hw.handler c then
      (tklHwTimerCb r.state c).map fun call => (c, call)
    else none
  have hcall : timerInterrupt r.state ends = [0, 1, 2, 3, 4, 5].filterMap call :=
    List.filterMap_filter
  have hskip : ∀ c, r.state.hw.enabled c = false → call c = none := by
    intro c hoff
    simp only [call, hoff, Bool.and_false, Bool.false_and, Bool.false_eq_true, if_false]
  have htimer : ∀ timerId < 4, call (timerChannel timerId) = if due r ends timerId then
      some (timerChannel timerId, ⟨(r.cfg timerId).cb, (r.cfg timerId).args⟩) else none := by
    intro timerId hid
    simp only [call, due, tklHwTimerCb, h.cfg timerId hid, h.running timerId hid]
    by_cases hrun : r.running timerId = true
    · have hhandler := h.handler timerId hid hrun
      by_cases hcb : (r.cfg timerId).cb = 0
      · simp [hcb]
      · simp [hcb, hrun, hhandler]
    · simp [hrun]
  calc timerInterrupt r.state ends = [0, 1, 2, 3, 4, 5].filterMap call := hcall
    _ = ([0, 1, 2, 3].map timerChannel).filterMap call := by
      show _ = [0, 1, 4, 5].filterMap call
      simp only [List.filterMap_cons, hskip 2 h.others.1, hskip 3 h.others.2]
    _ = expected r ends := by
      rw [List.filterMap_map]
      refine List.filterMap_congr fun timerId hid => htimer timerId ?_
      simp at hid
      omega

/-- A callback that is to be called is called once. -/
theorem countP_expected (r : TimerRun) (ends : Nat → Bool) {timerId : Nat} (hid : timerId < 4) :
    ((expected r ends).countP fun call => call.1 = timerChannel timerId) =
      if due r ends timerId then 1 else 0 := by
  have hcount : ((expected r ends).countP fun call => call.1 = timerChannel timerId) =
      [0, 1, 2, 3].countP fun id => due r ends id && id = timerId := by
    unfold expected
    rw [List.countP_filterMap]
    refine List.countP_congr fun id _ => ?_
    by_cases hdue : due r ends id = true
    · simp [hdue, timerChannel_injective.eq_iff]
    · simp [hdue]
  rw [hcount]
  interval_cases timerId <;> simp [List.countP_cons]

/-! ## The calls -/

theorem not_ge_timerDevNum {timerId : Nat} (h : timerId < 4) : ¬timerId ≥ timerDevNum :=
  Nat.not_le.mpr h

theorem tklTimerInit_spec (s : TimerState) {timerId : Nat} (hid : timerId < 4)
    (cfg : TimerBaseCfg) : (tklTimerInit s timerId (some cfg)).2 =
      { s with timerMap := Function.update s.timerMap (timerChannel timerId) cfg } := by
  have hchannel : (if 2 = timerId ∨ 3 = timerId then timerId + 2 else timerId) =
      timerChannel timerId := by
    unfold timerChannel
    split_ifs <;> omega
  unfold tklTimerInit
  rw [if_neg (not_ge_timerDevNum hid)]
  simp only [hchannel]

theorem tklTimerInit_skips (s : TimerState) {timerId : Nat} {cfg : Option TimerBaseCfg}
    (h : cfg = none ∨ ¬timerId < 4) : (tklTimerInit s timerId cfg).2 = s := by
  unfold tklTimerInit
  split
  · rfl
  · rename_i hid
    rcases h with rfl | h
    · rfl
    · exact absurd (Nat.lt_of_not_le hid) h

/-- A start that is taken starts the channel of the timer. -/
theorem tklTimerStart_spec (s : TimerState) {timerId : Nat} {us : UInt32}
    (h : startTaken timerId us) : ∃ period, (tklTimerStart s timerId us).2 =
      { s with hw := timerStart s.hw (timerChannel timerId) period } := by
  obtain ⟨hid, hus⟩ := h
  unfold tklTimerStart
  rw [if_neg (not_ge_timerDevNum hid)]
  by_cases htwo : timerId < 2
  · have hchannel : timerChannel timerId = timerId := if_pos htwo
    rw [if_pos (by omega), hchannel]
    unfold bkTimerInitializeUs initTimerParamUs
    rw [if_neg (by omega)]
    exact ⟨_, rfl⟩
  · have hchannel : timerChannel timerId = timerId + 2 := if_neg htwo
    rw [if_neg (by omega), if_neg (UInt32.not_lt.mpr (hus.resolve_left htwo)), hchannel]
    unfold bkTimerInitialize initTimerParam
    rw [if_neg (by omega)]
    exact ⟨_, rfl⟩

theorem tklTimerStart_skips (s : TimerState) {timerId : Nat} {us : UInt32}
    (h : ¬startTaken timerId us) : (tklTimerStart s timerId us).2 = s := by
  unfold tklTimerStart
  split
  · rfl
  split
  · rename_i hid htwo
    exact absurd ⟨Nat.lt_of_not_le hid, Or.inl (by omega)⟩ h
  split
  · rfl
  · rename_i hid _ hus
    exact absurd ⟨Nat.lt_of_not_le hid, Or.inr (UInt32.not_lt.mp hus)⟩ h

/-- A stop disables the channel of the timer. -/
theorem tklTimerStop_spec (s : TimerState) {timerId : Nat} (hid : timerId < 4) :
    (tklTimerStop s timerId).2 = { s with hw := { s.hw with
      enabled := Function.update s.hw.enabled (timerChannel timerId) false } } := by
  unfold tklTimerStop bkTimerStop timerUnitDisable
  rw [if_neg (not_ge_timerDevNum hid)]
  by_cases htwo : timerId < 2
  · have hchannel : timerChannel timerId = timerId := if_pos htwo
    rw [if_pos (by omega), if_neg (by omega), hchannel]
  · have hchannel : timerChannel timerId = timerId + 2 := if_neg htwo
    rw [if_neg (by omega), if_neg (by omega), hchannel]

theorem tklTimerStop_skips (s : TimerState) {timerId : Nat} (hid : ¬timerId < 4) :
    (tklTimerStop s timerId).2 = s := by
  have hge : timerId ≥ timerDevNum := Nat.le_of_not_lt hid
  unfold tklTimerStop
  rw [if_pos hge]

/-! ## Steps -/

/-- An entry of a channel that is updated together with the entry of its timer. -/
theorem update_channel {α : Type} {f g : Nat → α} (h : ∀ id < 4, f (timerChannel id) = g id)
    (timerId : Nat) (a : α) : ∀ id < 4,
      Function.update f (timerChannel timerId) a (timerChannel id) =
        Function.update g timerId a id := by
  intro id hid
  simp only [Function.update_apply, timerChannel_injective.eq_iff, h id hid]

/-- The invariant, and in mode ONCE a callback has run if and only if a period has ended. -/
structure TimerGood (r : TimerRun) : Prop extends TimerInv r where
  calls : ∀ timerId < 4, r.onceCalls timerId = if r.onceEnded timerId then 1 else 0

theorem TimerGood.init {r : TimerRun} (h : TimerGood r) (timerId : Nat)
    (cfg : Option TimerBaseCfg) : TimerGood (timerStep r (.init timerId cfg)).1 := by
  cases cfg with
  | none =>
    have hskip : (tklTimerInit r.state timerId none).2 = r.state :=
      tklTimerInit_skips _ (Or.inl rfl)
    simp only [timerStep, timerCall, TimerRun.after, hskip]
    exact h
  | some cfg =>
    by_cases hid : timerId < 4
    · simp only [timerStep, timerCall, TimerRun.after, tklTimerInit_spec r.state hid, if_pos hid]
      exact ⟨⟨update_channel h.cfg timerId cfg, h.running, h.handler, h.others⟩, h.calls⟩
    · have hskip : (tklTimerInit r.state timerId (some cfg)).2 = r.state :=
        tklTimerInit_skips _ (Or.inr hid)
      simp only [timerStep, timerCall, TimerRun.after, hskip, if_neg hid]
      exact h

theorem TimerGood.start {r : TimerRun} (h : TimerGood r) (timerId : Nat) (us : UInt32) :
    TimerGood (timerStep r (.start timerId us)).1 := by
  by_cases htaken : startTaken timerId us
  · obtain ⟨period, hstart⟩ := tklTimerStart_spec r.state htaken
    simp only [timerStep, timerCall, TimerRun.after, hstart, if_pos htaken]
    refine ⟨⟨h.cfg, update_channel h.running timerId true, fun id hid hrun => ?_, ?_⟩, ?_⟩
    · simp only [timerStart, Function.update_apply, timerChannel_injective.eq_iff] at hrun ⊢
      split
      · rfl
      · rename_i hne
        rw [if_neg hne] at hrun
        exact h.handler id hid hrun
    · obtain ⟨h2, h3⟩ := timerChannel_ne timerId
      simp only [timerStart, Function.update_of_ne h2.symm, Function.update_of_ne h3.symm]
      exact h.others
    · intro id hid
      simp only [Function.update_apply]
      split
      · rfl
      · exact h.calls id hid
  · simp only [timerStep, timerCall, TimerRun.after, tklTimerStart_skips r.state htaken,
      if_neg htaken]
    exact h

theorem TimerGood.stop {r : TimerRun} (h : TimerGood r) (timerId : Nat) :
    TimerGood (timerStep r (.stop timerId)).1 := by
  by_cases hid : timerId < 4
  · simp only [timerStep, timerCall, TimerRun.after, tklTimerStop_spec r.state hid, if_pos hid]
    refine ⟨⟨h.cfg, update_channel h.running timerId false, fun id hid hrun => ?_, ?_⟩, h.calls⟩
    · simp only [Function.update_apply] at hrun
      split at hrun
      · cases hrun
      · exact h.handler id hid hrun
    · obtain ⟨h2, h3⟩ := timerChannel_ne timerId
      simp only [Function.update_of_ne h2.symm, Function.update_of_ne h3.symm]
      exact h.others
  · simp only [timerStep, timerCall, TimerRun.after, tklTimerStop_skips r.state hid, if_neg hid]
    exact h

/-- How often the callback of a timer has run in mode ONCE, behind an interrupt. -/
theorem onceCalls_interrupt {r : TimerRun} (h : TimerGood r) (ends : Nat → Bool) {timerId : Nat}
    (hid : timerId < 4) : (timerStep r (.interrupt ends)).1.onceCalls timerId =
      (if r.onceEnded timerId then 1 else 0) +
        if (r.cfg timerId).mode = .once ∧ due r ends timerId = true then 1 else 0 := by
  simp only [timerStep, timerCall, TimerRun.after, interrupt_calls h.toTimerInv,
    countP_expected r ends hid, h.calls timerId hid]
  by_cases hmode : (r.cfg timerId).mode = .once
  · simp only [hmode, true_and, if_true]
  · simp only [hmode, false_and, if_false, Nat.add_zero]

/-- The callbacks are right in every step, and no timer has called back twice in mode ONCE if and
    only if none has got to a second period. -/
theorem timerOk_iff {r : TimerRun} (h : TimerGood r) (i : TimerInput) :
    TimerOk r i ↔ StoppedInTime r i := by
  cases i with
  | init timerId cfg => exact iff_of_true rfl trivial
  | start timerId us => exact iff_of_true rfl trivial
  | stop timerId => exact iff_of_true rfl trivial
  | interrupt ends =>
    have hcalls : (timerStep r (.interrupt ends)).2 = expected r ends :=
      interrupt_calls h.toTimerInv ends
    constructor
    · rintro ⟨-, honce⟩ timerId hid hmode hdue
      have hle := honce timerId hid hmode
      simp only [onceCalls_interrupt h ends hid, hmode, hdue, and_self, if_true] at hle
      by_contra hended
      rw [if_pos (Bool.not_eq_false _ ▸ hended)] at hle
      exact absurd hle (by decide)
    · refine fun hstopped => ⟨hcalls, fun timerId hid hmode => ?_⟩
      rw [onceCalls_interrupt h ends hid]
      split
      · rename_i hended
        rw [if_neg]
        intro hdue
        exact Bool.false_ne_true ((hstopped timerId hid hmode hdue.2).symm.trans hended)
      · split
        · exact Nat.le_refl 1
        · exact Nat.zero_le 1

theorem TimerGood.interrupt {r : TimerRun} (h : TimerGood r) {ends : Nat → Bool}
    (hok : TimerOk r (.interrupt ends)) : TimerGood (timerStep r (.interrupt ends)).1 := by
  refine ⟨⟨h.cfg, h.running, h.handler, h.others⟩, fun timerId hid => ?_⟩
  have hstopped := (timerOk_iff h _).mp hok timerId hid
  have hended : (timerStep r (.interrupt ends)).1.onceEnded timerId =
    (r.onceEnded timerId || ((r.cfg timerId).mode = .once && due r ends timerId)) := rfl
  rw [onceCalls_interrupt h ends hid, hended]
  by_cases hmode : (r.cfg timerId).mode = .once
  · by_cases hdue : due r ends timerId = true
    · simp [hmode, hdue, hstopped hmode hdue]
    · simp [hdue]
  · simp [hmode]

/-! ## Runs -/

/-- Different timers have different channels. In every sequence of calls and interrupts from reset:
    an interrupt calls the callbacks of the timers that are started, with their last arguments, and
    no others, and the callback of a timer in mode ONCE runs at most once after a start, if and
    only if each such timer is stopped or started again before its second period ends. -/
theorem timer_modes_iff (is : List TimerInput) : Function.Injective timerChannel ∧
    (Along timerStep TimerOk .static is ↔ Along timerStep StoppedInTime .static is) := by
  refine ⟨timerChannel_injective, ?_⟩
  apply along_congr (I := TimerGood)
  · intro r i h hok
    cases i with
    | init timerId cfg => exact h.init timerId cfg
    | start timerId us => exact h.start timerId us
    | stop timerId => exact h.stop timerId
    | interrupt ends => exact h.interrupt hok
  · exact fun _ i h => timerOk_iff h i
  · exact ⟨⟨fun _ _ => rfl, fun _ _ => rfl, (fun _ _ hrun => nomatch hrun), ⟨rfl, rfl⟩⟩,
      fun _ _ => rfl⟩

/-- A timer in mode ONCE calls back at the end of each period. -/
theorem timer_modes_repeated : ¬Along timerStep TimerOk .static
    [.init 0 (some ⟨.once, 0x8000, 0⟩), .start 0 1000, .interrupt fun _ => true,
      .interrupt fun _ => true] := by
  intro hrun
  obtain ⟨-, -, -, ⟨-, honce⟩, -⟩ := hrun
  exact absurd (honce 0 (by decide) rfl) (by decide)

end ArduinoT2.Driver
