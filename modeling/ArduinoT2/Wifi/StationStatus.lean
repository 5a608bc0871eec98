import ArduinoT2.Adapter.TklWifiLp
import ArduinoT2.Lib.StepSys

/-
  The polls of the station status (tkl_wifi.c): what `tkl_wifi_station_get_status` stores in the
  variable of its caller, and when it arms the power save again.

  The edge detector `flag` follows what is stored, and the switch stores nothing for a status
  without a case. `station_status_iff` says that the polls are independent of what the caller's
  variable holds, and that the block runs once for each entry into `GOT_IP`, if and only if each
  status polled has a case.
-/

namespace ArduinoT2.Wifi

open StepSys ArduinoT2.Adapter

/-! ## One poll -/

/-- A poll: the flag of the CPU's sleep mode, what the driver answers, and what the caller's
    variable holds before. -/
structure Poll where
  cpuLpFlag : UInt8
  type : RwEvtType
  stat : WfStationStat

/-- The static variables, with the status polled last. -/
structure Polls where
  lp : LpState
  last : Option RwEvtType

/-- Before the first poll `flag` is clear; the other variables may be anything. -/
def Polls.start (lp : LpState) : Polls := ⟨{ lp with statFlag := false }, none⟩

/-- One poll, and what is stored in the caller's variable. -/
def pollStatus (s : Polls) (p : Poll) : Polls × WfStationStat :=
  let (_, stat, lp) := tklWifiStationGetStatus s.lp p.cpuLpFlag p.type p.stat
  (⟨lp, some p.type⟩, stat)

/-- The block that arms the power save again. -/
def stationRearm (s : LpState) (cpuLpFlag : UInt8) : LpState :=
  let s := if s.mgntRecvCb ≠ 0 then tklWifiPowersaveDisable s else bkWlanDtimRfPsModeEnable s
  { s with lpMode := cpuLpFlag &&& s.wifiLpStatus ≠ 0, statFlag := true }

/-- The condition of the block. -/
def Rearms (s : LpState) (type : RwEvtType) (stat : WfStationStat) : Prop :=
  s.statFlag = false ∧ stationStat type stat = .gotIp

instance (s : LpState) (type : RwEvtType) (stat : WfStationStat) :
    Decidable (Rearms s type stat) := inferInstanceAs (Decidable (_ ∧ _))

theorem stationGetStatus_eq (s : LpState) (cpuLpFlag : UInt8) (type : RwEvtType)
    (stat : WfStationStat) :
    tklWifiStationGetStatus s cpuLpFlag type stat = (oprtOk, stationStat type stat,
      if Rearms s type stat then stationRearm s cpuLpFlag
      else if stationStat type stat ≠ .gotIp then { s with statFlag := false }
      else s) := by
  unfold tklWifiStationGetStatus
  by_cases hrearms : Rearms s type stat
  · rw [if_pos hrearms]
    exact if_pos hrearms
  · rw [if_neg hrearms]
    refine (if_neg hrearms).trans ?_
    split <;> rfl

theorem stationRearm_statFlag (s : LpState) (cpuLpFlag : UInt8) :
    (stationRearm s cpuLpFlag).statFlag = true := rfl

/-- `flag` says behind a poll whether `GOT_IP` is what has been stored. -/
theorem stationGetStatus_statFlag (s : LpState) (cpuLpFlag : UInt8) (type : RwEvtType)
    (stat : WfStationStat) :
    (tklWifiStationGetStatus s cpuLpFlag type stat).2.2.statFlag = true ↔
      stationStat type stat = .gotIp := by
  rw [stationGetStatus_eq]
  simp only
  by_cases hgot : stationStat type stat = .gotIp
  · refine iff_of_true ?_ hgot
    by_cases hflag : s.statFlag = false
    · rw [if_pos ⟨hflag, hgot⟩, stationRearm_statFlag]
    · rw [if_neg fun hrearms => hflag hrearms.1, if_neg (not_not.mpr hgot)]
      exact Bool.not_eq_false _ ▸ hflag
  · refine iff_of_false ?_ hgot
    rw [if_neg fun hrearms => hgot hrearms.2, if_pos hgot]
    exact Bool.false_ne_true

/-! ## What a poll must do -/

/-- What is stored is a matter of the status polled, whatever the caller's variable holds and
    whatever has been polled before; and the block runs at an entry into `GOT_IP`. -/
structure StatusOk (s : Polls) (p : Poll) : Prop where
  stored : ∀ (s' : Polls) (p' : Poll), p'.type = p.type →
    (pollStatus s' p').2 = (pollStatus s p).2
  rearms : Rearms s.lp p.type p.stat ↔ p.type = .staGotIp ∧ s.last ≠ some .staGotIp

/-- The statuses that the switch has a case for. -/
def hasCase : RwEvtType → Bool
  | .staScanning | .staScanOver | .staDhcpFailed => false
  | .apConnected | .apDisconnected | .apConnectFailed | .max => false
  | _ => true

theorem stationStat_of_hasCase {type : RwEvtType} (h : hasCase type = true)
    (stat stat' : WfStationStat) : stationStat type stat = stationStat type stat' := by
  cases type <;> first | rfl | cases h

theorem stationStat_gotIp {type : RwEvtType} (h : hasCase type = true) (stat : WfStationStat) :
    stationStat type stat = .gotIp ↔ type = .staGotIp := by
  cases type <;> simp_all [stationStat, hasCase]

/-- Without a case the caller's variable is left as it is. -/
theorem stationStat_of_not_hasCase {type : RwEvtType} (h : hasCase type = false)
    (stat : WfStationStat) : stationStat type stat = stat := by
  cases type <;> first | rfl | cases h

theorem pollStatus_stat (s : Polls) (p : Poll) :
    (pollStatus s p).2 = stationStat p.type p.stat := by
  unfold pollStatus
  rw [stationGetStatus_eq]

/-- `flag` is set if and only if the last poll has been of `GOT_IP`. -/
def FlagTrue (s : Polls) : Prop := s.lp.statFlag = true ↔ s.last = some .staGotIp

theorem flagTrue_start (lp : LpState) : FlagTrue (.start lp) :=
  iff_of_false Bool.false_ne_true (fun h => nomatch h)

theorem flagTrue_poll (s : Polls) {p : Poll} (h : hasCase p.type = true) :
    FlagTrue (pollStatus s p).1 := by
  unfold FlagTrue pollStatus
  simp only
  rw [stationGetStatus_statFlag, stationStat_gotIp h, Option.some.injEq]

/-- A poll does what it must if and only if its status has a case. -/
theorem statusOk_iff {s : Polls} (hflag : FlagTrue s) (p : Poll) :
    StatusOk s p ↔ hasCase p.type = true := by
  constructor
  · intro hok
    by_contra hcase
    rw [Bool.not_eq_true] at hcase
    -- two contents of the caller's variable, and each is still there behind the poll
    have hidle := hok.stored s { p with stat := .idle } rfl
    have hgot := hok.stored s { p with stat := .gotIp } rfl
    rw [pollStatus_stat, stationStat_of_not_hasCase hcase] at hidle hgot
    exact nomatch hidle.trans hgot.symm
  · intro hcase
    constructor
    · intro s' p' htype
      rw [pollStatus_stat, pollStatus_stat, htype]
      exact stationStat_of_hasCase hcase _ _
    · have hset : s.lp.statFlag = true ↔ s.last = some .staGotIp := hflag
      unfold Rearms
      rw [stationStat_gotIp hcase, ← Bool.not_eq_true, hset, and_comm]

/-! ## Runs -/

/-- In every sequence of polls, whatever the caller's variable holds: each poll stores a value of
    its status only and arms the power save at the entries into `GOT_IP`, if and only if each
    status polled has a case in the switch. -/
theorem station_status_iff (lp : LpState) (ps : List Poll) :
    Along pollStatus StatusOk (.start lp) ps ↔ ∀ p ∈ ps, hasCase p.type = true := by
  rw [← along_inputs (fun p => hasCase p.type = true) (Polls.start lp) ps]
  apply along_congr (I := FlagTrue)
  · exact fun s p hflag hok => flagTrue_poll s ((statusOk_iff hflag p).mp hok)
  · exact fun s p hflag => statusOk_iff hflag p
  · exact flagTrue_start lp

/-- The station scans while the caller's variable holds `WSS_GOT_IP` from an earlier poll. -/
theorem station_status_leaks :
    ¬∀ (lp : LpState) (ps : List Poll), Along pollStatus StatusOk (.start lp) ps := by
  intro h
  have hrun := h .static [⟨0, .staScanning, .gotIp⟩]
  exact absurd (hrun.1.rearms.mp ⟨rfl, rfl⟩).1 (by decide)

end ArduinoT2.Wifi
