import ArduinoT2.Adapter.TklWifiLp
import ArduinoT2.Lib.StepSys

/-
  The low-power mode of the station (tkl_wifi.c) and the power save of the RF behind it.

  `wifi_lp_status` is the last request. It is not the power save: the other calls switch that,
  and `tkl_wifi_set_lp_mode` does nothing where its flags say that nothing is to be done.
  `lp_mode_iff` says when a request is met all the same: by the request, or before it.
-/

namespace ArduinoT2.Wifi

open StepSys ArduinoT2.Adapter

/-! ## Requests -/

/-- One call. -/
def lpStep (s : LpState) (c : LpCall) : LpState × OperateRet := ((lpCall s c).2, (lpCall s c).1)

/-- The power save of the RF is on. -/
def RfPs (s : LpState) : Prop := s.rfPsEnabled = 1

/-- The request that `wifi_lp_status` stands for behind a call: that of the call, or the one
    before. -/
def requested (s : LpState) : LpCall → UInt8
  | .setLpMode enable => if enable then 1 else 0
  | _ => s.wifiLpStatus

/-- Behind a request that returns `OPRT_OK` the power save is on or off as it says, and
    `wifi_lp_status` is the last request. -/
structure LpOk (s : LpState) (c : LpCall) : Prop where
  enabled : c = .setLpMode true → (lpStep s c).2 = oprtOk → RfPs (lpStep s c).1
  disabled : c = .setLpMode false → ¬RfPs (lpStep s c).1
  recorded : (lpStep s c).1.wifiLpStatus = requested s c

/-- A request to enable finds `wifi_lp_status` clear or the power save on; a request to disable
    finds a callback for management frames or a trace of one, or the power save off. -/
def LpMet (s : LpState) : LpCall → Prop
  | .setLpMode true => s.wifiLpStatus = 0 ∨ RfPs s
  | .setLpMode false => s.mgntRecvCb ≠ 0 ∨ s.mgntCbExistFlag ≠ 0 ∨ ¬RfPs s
  | _ => True

/-- `wifi_lp_status` is a flag. -/
def LpFlag (s : LpState) : Prop := s.wifiLpStatus = 0 ∨ s.wifiLpStatus = 1

/-! ## One call -/

/-- A request to enable that is not skipped. -/
theorem enable_clear {s : LpState} (h : s.wifiLpStatus = 0) :
    (tklWifiSetLpMode s true).2.rfPsEnabled = 1 ∧ (tklWifiSetLpMode s true).2.wifiLpStatus = 1 := by
  have hclear : ¬s.wifiLpStatus ≠ 0 := not_not.mpr h
  unfold tklWifiSetLpMode
  simp only [if_true, if_neg hclear]
  refine ⟨?_, trivial⟩
  split
  · split <;> rfl
  · rfl

theorem enable_set {s : LpState} (h : s.wifiLpStatus ≠ 0) :
    tklWifiSetLpMode s true = (oprtOk, s) := if_pos h

/-- A request to disable that is not skipped. -/
theorem disable_rfPs {s : LpState} (h : s.mgntRecvCb ≠ 0 ∨ s.mgntCbExistFlag ≠ 0) :
    (tklWifiSetLpMode s false).2.rfPsEnabled = 0 := by
  unfold tklWifiSetLpMode
  simp only [Bool.false_eq_true, if_false, if_pos h]
  split <;> rfl

theorem disable_skips {s : LpState} (h : ¬(s.mgntRecvCb ≠ 0 ∨ s.mgntCbExistFlag ≠ 0)) :
    (tklWifiSetLpMode s false).2.rfPsEnabled = s.rfPsEnabled := by
  unfold tklWifiSetLpMode
  simp only [Bool.false_eq_true, if_false, if_neg h]

theorem enable_met_iff {s : LpState} (h : LpFlag s) :
    LpOk s (.setLpMode true) ↔ LpMet s (.setLpMode true) := by
  unfold LpMet
  by_cases hstatus : s.wifiLpStatus = 0
  · obtain ⟨hps, hset⟩ := enable_clear hstatus
    exact iff_of_true ⟨fun _ _ => hps, (fun heq => nomatch heq), hset⟩ (.inl hstatus)
  · rw [or_iff_right hstatus]
    have hsame : (lpStep s (.setLpMode true)).1 = s := congrArg Prod.snd (enable_set hstatus)
    have hret : (lpStep s (.setLpMode true)).2 = oprtOk := congrArg Prod.fst (enable_set hstatus)
    constructor
    · exact fun hok => hsame ▸ hok.enabled rfl hret
    · intro hps
      refine ⟨fun _ _ => hsame.symm ▸ hps, (fun heq => nomatch heq), ?_⟩
      rw [hsame]
      exact h.resolve_left hstatus

theorem disable_met_iff (s : LpState) :
    LpOk s (.setLpMode false) ↔ LpMet s (.setLpMode false) := by
  unfold LpMet
  rw [← or_assoc]
  by_cases hcb : s.mgntRecvCb ≠ 0 ∨ s.mgntCbExistFlag ≠ 0
  · have hoff : ¬RfPs (lpStep s (.setLpMode false)).1 := by
      show ¬(tklWifiSetLpMode s false).2.rfPsEnabled = 1
      rw [disable_rfPs hcb]
      decide
    exact iff_of_true ⟨(fun heq => nomatch heq), fun _ => hoff, rfl⟩ (.inl hcb)
  · have hsame : RfPs (lpStep s (.setLpMode false)).1 ↔ RfPs s := by
      show (tklWifiSetLpMode s false).2.rfPsEnabled = 1 ↔ _
      rw [disable_skips hcb]
      rfl
    rw [or_iff_right hcb, ← hsame]
    exact ⟨fun hok => hok.disabled rfl, fun hoff => ⟨(fun heq => nomatch heq), fun _ => hoff, rfl⟩⟩

/-- The other calls leave `wifi_lp_status`. -/
theorem register_status (s : LpState) (mode : WfWkMd) (enable : Bool) (recvCb : UInt32) :
    (tklWifiRegisterRecvMgntCallback s mode enable recvCb).2.wifiLpStatus = s.wifiLpStatus := by
  unfold tklWifiRegisterRecvMgntCallback
  split
  · split <;> rfl
  · rfl

theorem setCurChannel_status (s : LpState) (hwIdle : Bool) (status : Int) (chan : UInt8) :
    (tklWifiSetCurChannel s hwIdle status chan).2.wifiLpStatus = s.wifiLpStatus := by
  unfold tklWifiSetCurChannel
  split
  · rfl
  · simp only
    split <;> rfl

theorem stationGetStatus_status (s : LpState) (cpuLpFlag : UInt8) (type : RwEvtType)
    (stat : WfStationStat) :
    (tklWifiStationGetStatus s cpuLpFlag type stat).2.2.wifiLpStatus = s.wifiLpStatus := by
  unfold tklWifiStationGetStatus
  simp only
  split
  · split <;> rfl
  · split <;> rfl

/-- A call does what was requested if and only if the request is met by it, or before it. -/
theorem lpOk_iff {s : LpState} (h : LpFlag s) (c : LpCall) : LpOk s c ↔ LpMet s c := by
  cases c with
  | setLpMode enable =>
    cases enable with
    | true => exact enable_met_iff h
    | false => exact disable_met_iff s
  | registerRecvMgntCallback mode enable recvCb =>
    exact iff_of_true ⟨(fun heq => nomatch heq), (fun heq => nomatch heq),
      register_status s mode enable recvCb⟩ trivial
  | setCurChannel hwIdle status chan =>
    exact iff_of_true ⟨(fun heq => nomatch heq), (fun heq => nomatch heq),
      setCurChannel_status s hwIdle status chan⟩ trivial
  | stationGetStatus cpuLpFlag type stat =>
    exact iff_of_true ⟨(fun heq => nomatch heq), (fun heq => nomatch heq),
      stationGetStatus_status s cpuLpFlag type stat⟩ trivial

theorem lpFlag_step {s : LpState} {c : LpCall} (h : LpFlag s) (hok : LpOk s c) :
    LpFlag (lpStep s c).1 := by
  unfold LpFlag
  rw [hok.recorded]
  unfold requested
  split
  · split
    · exact .inr rfl
    · exact .inl rfl
  · exact h

/-! ## Runs -/

/-- In every sequence of calls from reset: each request has been met when it returns, and
    `wifi_lp_status` is the last one, if and only if no request to enable finds `wifi_lp_status`
    set with the power save off, and no request to disable finds the power save on without a
    callback or a trace of one. -/
theorem lp_mode_iff (cs : List LpCall) :
    Along lpStep LpOk .static cs ↔ Along lpStep LpMet .static cs :=
  along_congr (I := LpFlag) (fun _ _ => lpFlag_step) (fun _ c h => lpOk_iff h c) (.inl rfl) cs

/-- The power save is enabled, and the request to disable it does nothing; or a callback is
    registered between two requests to enable, and the second one does nothing. -/
theorem lp_mode_stale :
    ¬Along lpStep LpOk .static [.setLpMode true, .setLpMode false] ∧
      ¬Along lpStep LpOk .static [.setLpMode true,
        .registerRecvMgntCallback .station true 0x1000, .setLpMode true] := by
  constructor
  · intro hrun
    obtain ⟨-, hdisable, -⟩ := hrun
    exact hdisable.disabled rfl rfl
  · intro hrun
    obtain ⟨-, -, henable, -⟩ := hrun
    exact absurd (henable.enabled rfl rfl) (show ¬(0 : UInt32) = 1 by decide)

end ArduinoT2.Wifi
