import ArduinoT2.Adapter.TklWifiLp

/-
  The sleep of the CPU (tkl_sleep.c) with `cpu_lp_flag`, the calls of tkl_wifi.c that read or arm
  the same power save, and the switch of the MCU behind them (mcu_ps.c).

  The switch is reached by messages (app_bk.c), which the core thread takes in order from the
  queue `g_wifi_core.io_queue`. The queue holds 64 messages of all kinds, and a message of the
  power save that finds it full, or not there yet, is dropped: its sender is not told.
-/

namespace ArduinoT2.Adapter

/-! ## State -/

/-- `TUYA_CPU_SLEEP_MODE_E`. -/
inductive CpuSleepMode
  | sleep | deepSleep
  deriving DecidableEq

/-- `PS_BMSG_IOCTL_CMD`, as far as the calls below send it. -/
inductive PsMsg
  | rfEnable | rfDisanable | mcuEnable | mcuDisanable | rfPsTimerInit | rfPsTimerDeinit
  deriving DecidableEq

/-- `BUS_MSG_T`: a `BMSG_STA_PS_TYPE` of these calls, or any other message. -/
inductive BusMsg
  | staPs (arg : PsMsg)
  | other
  deriving DecidableEq

/-- The static variables: `mcuPsOn` is that of `mcu_ps_info`, `ioQueue` the messages that the core
    thread has not taken, none before `core_thread_init`. -/
structure SleepState where
  lp : LpState
  cpuLpFlag : UInt8
  mcuPsOn : Bool
  ioQueue : Option (List BusMsg)
  deriving DecidableEq

/-- The variables at reset. -/
def SleepState.static : SleepState := ⟨.static, 0, false, none⟩

/-! ## Messages -/

/-- `CORE_QITEM_COUNT`. -/
def coreQitemCount : Nat := 64

/-- `rtos_push_to_queue` to `io_queue`, without a wait for room. -/
def pushIoQueue (s : SleepState) (msg : BusMsg) : SleepState :=
  match s.ioQueue with
  | none => s
  | some msgs => if msgs.length < coreQitemCount then { s with ioQueue := msgs ++ [msg] } else s

/-- `bmsg_ps_sender`. -/
def bmsgPsSender (s : SleepState) (arg : PsMsg) : SleepState := pushIoQueue s (.staPs arg)

/-- `ps_msg_process`, for `mcu_ps_on`: `mcu_ps_init` sets it and `mcu_ps_exit` clears it. -/
def psMsgProcess (mcuPsOn : Bool) : PsMsg → Bool
  | .mcuEnable => true
  | .mcuDisanable => false
  | _ => mcuPsOn

/-- The switch of `core_thread_main`, for `mcu_ps_on`. -/
def coreProcess (mcuPsOn : Bool) : BusMsg → Bool
  | .staPs arg => psMsgProcess mcuPsOn arg
  | .other => mcuPsOn

/-- The rest of the system: `core_thread_init`, the core thread takes a message, or a message that
    is not of these calls is sent. -/
inductive CoreTurn
  | init | take | send
  deriving DecidableEq

/-- One turn. `app_pre_start` calls `core_thread_init` once. -/
def coreTurn (s : SleepState) : CoreTurn → SleepState
  | .init => if s.ioQueue = none then { s with ioQueue := some [] } else s
  | .take =>
    match s.ioQueue with
    | some (msg :: msgs) => { s with mcuPsOn := coreProcess s.mcuPsOn msg, ioQueue := msgs }
    | _ => s
  | .send => pushIoQueue s .other

/-- What goes on while a call runs: whether `bk_ps_mode` is not `PS_NO_PS_MODE`, and the turns
    before each message of the call. -/
structure Meanwhile where
  psMode : Bool
  turns : PsMsg → List CoreTurn

/-- The queue when the message is sent. -/
def atSend (m : Meanwhile) (s : SleepState) (arg : PsMsg) : SleepState :=
  (m.turns arg).foldl coreTurn s

/-- The messages of a call, one behind the other. -/
def sends (m : Meanwhile) (s : SleepState) (args : List PsMsg) : SleepState :=
  args.foldl (fun s arg => bmsgPsSender (atSend m s arg) arg) s

/-- `bk_wlan_dtim_rf_ps_mode_enable` and `bk_wlan_dtim_rf_ps_timer_start`, also those of
    `tkl_wifi_powersave_enable`. -/
def rfEnableMsgs : List PsMsg := [.rfEnable, .rfPsTimerInit]

/-- `bk_wlan_dtim_rf_ps_mode_disable` and `bk_wlan_dtim_rf_ps_timer_pause` of
    `tkl_wifi_powersave_disable`. -/
def rfDisableMsgs (m : Meanwhile) : List PsMsg :=
  if m.psMode then [.rfDisanable, .rfPsTimerDeinit] else [.rfPsTimerDeinit]

/-! ## The calls -/

/-- `bk_wlan_mcu_ps_mode_enable`. -/
def bkWlanMcuPsModeEnable (s : SleepState) : SleepState := bmsgPsSender s .mcuEnable

/-- `bk_wlan_mcu_ps_mode_disable`. -/
def bkWlanMcuPsModeDisable (s : SleepState) : SleepState := bmsgPsSender s .mcuDisanable

/-- `tkl_cpu_sleep_mode_set`. -/
def tklCpuSleepModeSet (s : SleepState) (enable : Bool) (mode : CpuSleepMode) :
    OperateRet × SleepState :=
  if mode = .sleep then
    if enable then
      let s := if s.cpuLpFlag = 0 then { s with cpuLpFlag := 1 } else s
      (oprtOk, bkWlanMcuPsModeEnable s)
    else (oprtOk, bkWlanMcuPsModeDisable s)
  else (oprtOsAdapterCpuLpmodeSetFailed, s)

/-- The messages of `tkl_wifi_set_lp_mode`. -/
def setLpModeMsgs (m : Meanwhile) (lp : LpState) (enable : Bool) : List PsMsg :=
  if enable then
    if lp.wifiLpStatus ≠ 0 then [] else rfEnableMsgs
  else if lp.mgntRecvCb ≠ 0 ∨ lp.mgntCbExistFlag ≠ 0 then rfDisableMsgs m
  else []

/-- `tkl_wifi_set_lp_mode`. -/
def sleepSetLpMode (m : Meanwhile) (s : SleepState) (enable : Bool) : OperateRet × SleepState :=
  ((tklWifiSetLpMode s.lp enable).1,
    { sends m s (setLpModeMsgs m s.lp enable) with lp := (tklWifiSetLpMode s.lp enable).2 })

/-- The messages of the RF in the block of `tkl_wifi_station_get_status`. -/
def stationMsgs (m : Meanwhile) (lp : LpState) : List PsMsg :=
  if lp.mgntRecvCb ≠ 0 then rfDisableMsgs m else rfEnableMsgs

/-- `tkl_wifi_station_get_status`, with the switch of the MCU in its block. -/
def sleepStationGetStatus (m : Meanwhile) (s : SleepState) (type : RwEvtType)
    (stat : WfStationStat) : OperateRet × WfStationStat × SleepState :=
  let (ret, stat', lp) := tklWifiStationGetStatus s.lp s.cpuLpFlag type stat
  let s' :=
    if s.lp.statFlag = false ∧ stat' = .gotIp then
      let s' := sends m s (stationMsgs m s.lp)
      if s.cpuLpFlag &&& s.lp.wifiLpStatus ≠ 0 then
        bkWlanMcuPsModeEnable (atSend m s' .mcuEnable)
      else s'
    else s
  (ret, stat', { s' with lp })

/-- The calls of a program, and the turns of the rest of the system between them. -/
inductive SleepCall
  | cpuSleepModeSet (enable : Bool) (mode : CpuSleepMode)
  | setLpMode (m : Meanwhile) (enable : Bool)
  | stationGetStatus (m : Meanwhile) (type : RwEvtType) (stat : WfStationStat)
  | turn (t : CoreTurn)

/-- One call. -/
def sleepCall (s : SleepState) : SleepCall → OperateRet × SleepState
  | .cpuSleepModeSet enable mode => tklCpuSleepModeSet s enable mode
  | .setLpMode m enable => sleepSetLpMode m s enable
  | .stationGetStatus m type stat =>
    ((sleepStationGetStatus m s type stat).1, (sleepStationGetStatus m s type stat).2.2)
  | .turn t => (oprtOk, coreTurn s t)

end ArduinoT2.Adapter
