import Mathlib.Logic.Basic

/-
  The thread of tkl_wifi.c that turns station statuses into events (ty_wifi_state_get_thread).

  One turn of its loop is `statePoll`: the status that `mhdr_get_station_status` has answered is
  its input, the event that the callback gets is its output.
-/

namespace ArduinoT2.Adapter

/-- `rw_evt_type`. -/
inductive RwEvtType
  | staIdle | staScanning | staScanOver | staConnecting | staBeaconLose | staPasswordWrong
  | staNoApFound | staAssocFull | staDisconnected | staConnectFailed | staDhcpFailed
  | staConnected | staGotIp | apConnected | apDisconnected | apConnectFailed | max
  deriving DecidableEq

/-- `WF_EVENT_E`. -/
inductive WfEvent
  | connected | connectFailed | disconnected
  deriving DecidableEq

/-- `WIFI_CONNECT_ERROR_MAX_CNT`. -/
def wifiConnectErrorMaxCnt : UInt32 := 3

/-- The variables of the thread. -/
structure StateThread where
  lastStat : RwEvtType
  sConnectErr : UInt32
  deriving DecidableEq

/-- The variables before the first turn. -/
def StateThread.start : StateThread := ⟨.staIdle, 0⟩

/-- One turn of the loop. `wifiEventCb` is whether there is a callback. -/
def statePoll (wifiEventCb : Bool) (s : StateThread) (stat : RwEvtType) :
    StateThread × Option WfEvent :=
  if stat ≠ s.lastStat ∧ wifiEventCb then
    match stat with
    | .staGotIp => ({ lastStat := stat, sConnectErr := 0 }, some .connected)
    | .staConnectFailed | .staNoApFound | .staAssocFull =>
      let sConnectErr := s.sConnectErr + 1
      let event := if sConnectErr = wifiConnectErrorMaxCnt then some .connectFailed else none
      ({ lastStat := stat, sConnectErr }, event)
    | .staPasswordWrong | .staDhcpFailed => ({ s with lastStat := stat }, some .connectFailed)
    | .staDisconnected | .staBeaconLose =>
      ({ lastStat := stat, sConnectErr := 0 }, some .disconnected)
    | .staScanning => ({ s with lastStat := stat }, none)
    | _ => (s, none)
  else (s, none)

end ArduinoT2.Adapter
