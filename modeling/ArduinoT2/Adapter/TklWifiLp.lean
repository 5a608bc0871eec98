import ArduinoT2.Adapter.ErrorCode
import ArduinoT2.Adapter.TklWifiState

/-
  The calls of tkl_wifi.c that switch the DTIM power save of the RF: `tkl_wifi_set_lp_mode`,
  `tkl_wifi_register_recv_mgnt_callback`, `tkl_wifi_set_cur_channel` and
  `tkl_wifi_station_get_status`, and under them the switch of wlan_ui.c, `rf_ps_enabled`.

  The messages by which the switch reaches the power-save task, its timer, the EZ mode and the
  registration with the MAC are not modelled: nothing here reads them.
-/

namespace ArduinoT2.Adapter

/-! ## State -/

/-- `WF_WK_MD_E`. -/
inductive WfWkMd
  | powerdown | sniffer | station | softap | stationap | unknown
  deriving DecidableEq

/-- `WF_STATION_STAT_E`. -/
inductive WfStationStat
  | idle | connecting | passwdWrong | noApFound | connFail | connSuccess | gotIp
  deriving DecidableEq

/-- The static variables. `mgntRecvCb` is the address of the callback, `statFlag` is `flag` of
    `tkl_wifi_station_get_status`. -/
structure LpState where
  wifiLpStatus : UInt8
  mgntCbExistFlag : UInt8
  mgntRecvCb : UInt32
  lpMode : Bool
  statFlag : Bool
  rfPsEnabled : UInt32
  deriving DecidableEq

/-- The variables at reset. -/
def LpState.static : LpState where
  wifiLpStatus := 0
  mgntCbExistFlag := 0
  mgntRecvCb := 0
  lpMode := false
  statFlag := false
  rfPsEnabled := 0

/-! ## The switch -/

/-- `bk_wlan_dtim_rf_ps_mode_enable`. -/
def bkWlanDtimRfPsModeEnable (s : LpState) : LpState := { s with rfPsEnabled := 1 }

/-- `bk_wlan_dtim_rf_ps_mode_disable`. -/
def bkWlanDtimRfPsModeDisable (s : LpState) : LpState := { s with rfPsEnabled := 0 }

/-- `tkl_wifi_powersave_enable`. -/
def tklWifiPowersaveEnable (s : LpState) : LpState := bkWlanDtimRfPsModeEnable s

/-- `tkl_wifi_powersave_disable`. -/
def tklWifiPowersaveDisable (s : LpState) : LpState := bkWlanDtimRfPsModeDisable s

/-! ## The calls -/

/-- `tkl_wifi_set_lp_mode`, which does not read its `dtim`. -/
def tklWifiSetLpMode (s : LpState) (enable : Bool) : OperateRet × LpState :=
  if enable then
    if s.wifiLpStatus ≠ 0 then (oprtOk, s)
    else
      let s :=
        if s.mgntRecvCb ≠ 0 ∨ s.mgntCbExistFlag ≠ 0 then
          let s := tklWifiPowersaveEnable s
          if s.mgntRecvCb = 0 then { s with mgntCbExistFlag := 0 } else s
        else bkWlanDtimRfPsModeEnable s
      (oprtOk, { s with wifiLpStatus := 1 })
  else
    let s :=
      if s.mgntRecvCb ≠ 0 ∨ s.mgntCbExistFlag ≠ 0 then
        let s := tklWifiPowersaveDisable s
        if s.mgntRecvCb = 0 then { s with mgntCbExistFlag := 0 } else s
      else s
    (oprtOk, { s with wifiLpStatus := 0 })

/-- `tkl_wifi_register_recv_mgnt_callback`, with the mode that `tkl_wifi_get_work_mode` tells. -/
def tklWifiRegisterRecvMgntCallback (s : LpState) (mode : WfWkMd) (enable : Bool)
    (recvCb : UInt32) : OperateRet × LpState :=
  if enable then
    if mode = .powerdown ∨ mode = .sniffer then (oprtOsAdapterComError, s)
    else
      let s := tklWifiPowersaveDisable s
      (oprtOk, { s with mgntRecvCb := recvCb, mgntCbExistFlag := 1 })
  else (oprtOk, { s with mgntRecvCb := 0 })

/-- `tkl_wifi_set_cur_channel`: `hwIdle` is whether the MAC is in `HW_IDLE`, `status` what
    `bk_wlan_set_channel` returns. -/
def tklWifiSetCurChannel (s : LpState) (hwIdle : Bool) (status : Int) (chan : UInt8) :
    OperateRet × LpState :=
  if chan > 14 ∨ chan < 1 then (oprtOsAdapterInvalidParm, s)
  else
    let s := if s.mgntRecvCb ≠ 0 ∧ hwIdle then tklWifiPowersaveDisable s else s
    (if status ≠ 0 then oprtOsAdapterChanSetFailed else oprtOk, s)

/-- The switch of `tkl_wifi_station_get_status`. A type without a case leaves `*stat`. -/
def stationStat (type : RwEvtType) (stat : WfStationStat) : WfStationStat :=
  match type with
  | .staIdle => .idle
  | .staConnecting => .connecting
  | .staPasswordWrong => .passwdWrong
  | .staNoApFound => .noApFound
  | .staAssocFull | .staBeaconLose | .staDisconnected | .staConnectFailed => .connFail
  | .staConnected => .connSuccess
  | .staGotIp => .gotIp
  | _ => stat

/-- `tkl_wifi_station_get_status`: `type` is what `mhdr_get_station_status` answers, `stat` what
    the caller's variable holds before. -/
def tklWifiStationGetStatus (s : LpState) (cpuLpFlag : UInt8) (type : RwEvtType)
    (stat : WfStationStat) : OperateRet × WfStationStat × LpState :=
  let stat := stationStat type stat
  if s.statFlag = false ∧ stat = .gotIp then
    let s := if s.mgntRecvCb ≠ 0 then tklWifiPowersaveDisable s else bkWlanDtimRfPsModeEnable s
    let lpMode : Bool := cpuLpFlag &&& s.wifiLpStatus ≠ 0
    (oprtOk, stat, { s with lpMode, statFlag := true })
  else if stat ≠ .gotIp then (oprtOk, stat, { s with statFlag := false })
  else (oprtOk, stat, s)

/-- The calls of a program, each with what the system below answers. -/
inductive LpCall
  | setLpMode (enable : Bool)
  | registerRecvMgntCallback (mode : WfWkMd) (enable : Bool) (recvCb : UInt32)
  | setCurChannel (hwIdle : Bool) (status : Int) (chan : UInt8)
  | stationGetStatus (cpuLpFlag : UInt8) (type : RwEvtType) (stat : WfStationStat)

/-- One call. -/
def lpCall (s : LpState) : LpCall → OperateRet × LpState
  | .setLpMode enable => tklWifiSetLpMode s enable
  | .registerRecvMgntCallback mode enable recvCb =>
    tklWifiRegisterRecvMgntCallback s mode enable recvCb
  | .setCurChannel hwIdle status chan => tklWifiSetCurChannel s hwIdle status chan
  | .stationGetStatus cpuLpFlag type stat =>
    ((tklWifiStationGetStatus s cpuLpFlag type stat).1,
      (tklWifiStationGetStatus s cpuLpFlag type stat).2.2)

end ArduinoT2.Adapter
