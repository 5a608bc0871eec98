import ArduinoT2.Adapter.NetReports
import ArduinoT2.Wifi.DhcpStatus

/-
  The announcement of an address (net.c): `RW_EVT_STA_GOT_IP` and the calls of the functions that
  the application has registered.

  With DHCP settings the status callback is registered before the interface goes up, and an
  exchange that ends bound runs it (`dhcp_announces`). With static settings it is registered
  behind that, when the interface does not go up any more. `static_announce_iff`: a run announces
  every start if and only if no start has static settings.
-/

namespace ArduinoT2.Wifi

open StepSys ArduinoT2.Adapter

/-! ## Runs -/

/-- The run of the calls, with what the application has registered. -/
structure AppRun where
  ip : IpRun
  app : AppCallbacks

/-- The calls of net.c, and the registrations. -/
inductive AppCall
  | net (c : NetCall)
  | register (app : AppCallbacks)

/-- What a call shows: the events of the status, and the calls of registered functions. -/
structure Shown where
  events : List StatusEvent
  reports : List AppReport

/-- One call. -/
def appStep (lw : Lwip) (r : AppRun) : AppCall → AppRun × Shown
  | .net c =>
    let (ip, events) := ipStep lw r.ip c
    (⟨ip, r.app⟩, ⟨events, (netReport lw ⟨r.ip.state, r.app, []⟩ c).reports⟩)
  | .register app => (⟨r.ip, app⟩, ⟨[], []⟩)

/-- At reset nothing is registered. -/
def AppRun.static : AppRun := ⟨.static, ⟨false, false, false⟩⟩

/-- The call starts the station's interface with static settings. -/
def StartsStatic (r : AppRun) (c : AppCall) : Prop :=
  c = .net .staIpStart ∧ r.ip.state.staIpStartFlag = 0 ∧
    r.ip.state.staIpSettings.addrType = .static

/-- The address is announced: the status is set to `RW_EVT_STA_GOT_IP`, and `sta_ipup_cb` and
    `sta_connected_func` are called once each, as far as they are registered. -/
structure Announced (r r' : AppRun) (shown : Shown) : Prop where
  sets : shown.events.any (fun e => setsStatus e = some .staGotIp)
  status : r'.ip.state.stationStatus = .staGotIp
  ipup : shown.reports.count .staIpupCb = if r.app.staIpupCb then 1 else 0
  connected : shown.reports.count .staConnectedFunc = if r.app.staConnectedFunc then 1 else 0

/-- A start with static settings announces the address. -/
def AnnounceOk (lw : Lwip) (r : AppRun) (c : AppCall) : Prop :=
  StartsStatic r c → Announced r (appStep lw r c).1 (appStep lw r c).2

/-! ## One call -/

/-- A call of net.c leaves what is registered, and the state is that of the calls alone. -/
theorem base_appStep (lw : Lwip) {r : AppRun} (h : BaseInv r.ip) (c : AppCall) :
    BaseInv (appStep lw r c).1.ip := by
  cases c with
  | net c => exact base_step lw h c
  | register app => exact h

/-- A start with static settings shows nothing: no callback is registered when the interface
    goes up. -/
theorem static_shows_nothing (lw : Lwip) {r : AppRun} (h : BaseInv r.ip)
    (hflag : r.ip.state.staIpStartFlag = 0) (haddr : r.ip.state.staIpSettings.addrType = .static) :
    (appStep lw r (.net .staIpStart)).2 = ⟨[], []⟩ := by
  have hdown := h.sta_down hflag
  have hevents := start_log_static lw h hflag haddr
  have hreports : (netReport lw ⟨r.ip.state, r.app, []⟩ .staIpStart).reports = [] := by
    show (reportStaIpStart lw ⟨r.ip.state, r.app, []⟩).reports = []
    unfold reportStaIpStart
    rw [if_pos hflag]
    unfold reportConfigureAddress reportSetDown reportConfigureType
    simp only [NetApp.silent, hdown, haddr]
    simp [reportSetUp, reportStatus, callbackReports, netifSetStatusCallback,
      netifapiNetifSetAddr, NetState.modify, NetApp.silent, hdown]
  exact congrArg₂ Shown.mk hevents hreports

theorem announce_iff (lw : Lwip) {r : AppRun} (h : BaseInv r.ip) (c : AppCall) :
    AnnounceOk lw r c ↔ ¬StartsStatic r c := by
  constructor
  · rintro hok ⟨rfl, hflag, haddr⟩
    have hsets := (hok ⟨rfl, hflag, haddr⟩).sets
    rw [static_shows_nothing lw h hflag haddr] at hsets
    exact nomatch hsets
  · exact fun hno hstatic => absurd hstatic hno

/-- In every sequence of calls, each start with static settings announces its address if and only
    if there is no such start. -/
theorem static_announce_iff (lw : Lwip) (cs : List AppCall) :
    Along (appStep lw) (AnnounceOk lw) .static cs ↔
      Along (appStep lw) (fun r c => ¬StartsStatic r c) .static cs :=
  along_congr (I := fun r => BaseInv r.ip) (fun _ c h _ => base_appStep lw h c)
    (fun _ c h => announce_iff lw h c) BaseInv.static cs

/-- 192.168.1.5 is set for the station, and the station is started. -/
theorem static_announce_none : ¬Along (appStep .linkUp) (AnnounceOk .linkUp) .static
    [.register ⟨true, true, true⟩,
      .net (.ipAddressSet 1 0 0x0501A8C0 0x00FFFFFF 0x0101A8C0 0x0101A8C0), .net .staIpStart] := by
  rintro ⟨-, -, hstart, -⟩
  exact nomatch (hstart ⟨rfl, rfl, rfl⟩).sets

/-! ## DHCP -/

theorem count_ipupReports (app : AppCallbacks) :
    (ipupReports app).count .staIpupCb = (if app.staIpupCb then 1 else 0) ∧
      (ipupReports app).count .staConnectedFunc = if app.staConnectedFunc then 1 else 0 := by
  obtain ⟨ipup, connected, status⟩ := app
  revert ipup connected status
  decide

/-- The exchange that binds the lease of an interface that is up announces the address. -/
theorem bound_announces (lw : Lwip) {r : AppRun} (hup : (r.ip.state.netif .mlan).up = true)
    (hcb : (r.ip.state.netif .mlan).statusCallback = some .wmNetifStatusCallback)
    (hruns : (r.ip.state.netif .mlan).dhcpRuns = true) (ipAddr netmask gw : UInt32) :
    let c := AppCall.net (.exchange .mlan .bound ipAddr netmask gw true)
    Announced r (appStep lw r c).1 (appStep lw r c).2 := by
  intro c
  have hgot : dhcpStatus (exchanged .bound ipAddr netmask gw (r.ip.state.netif .mlan)) =
      some .staGotIp := by
    unfold dhcpStatus exchanged
    simp [hup]
  -- the status callback sees the lease
  have hnet : (appStep lw r c).1.ip.state = runStatusCallback
      ({ r.ip.state with log := [] }.modify .mlan (exchanged .bound ipAddr netmask gw)) .mlan := by
    show dhcpExchange { r.ip.state with log := [] } .mlan .bound ipAddr netmask gw true = _
    unfold dhcpExchange
    rw [if_pos hruns]
    rfl
  have hreports : (appStep lw r c).2.reports =
      (if r.app.statusCb then [.statusCb .staGotIp] else []) ++ ipupReports r.app := by
    show (reportExchange ⟨r.ip.state, r.app, []⟩ .mlan .bound ipAddr netmask gw true).reports = _
    unfold reportExchange
    rw [if_pos hruns]
    show [] ++ callbackReports r.app
      ((r.ip.state.modify .mlan (exchanged .bound ipAddr netmask gw)).netif .mlan) = _
    rw [modify_netif_self, List.nil_append]
    unfold callbackReports
    rw [show (exchanged .bound ipAddr netmask gw (r.ip.state.netif .mlan)).statusCallback =
      some .wmNetifStatusCallback from hcb]
    exact if_pos hgot
  have hcallback := @runStatusCallback_dhcp
    ({ r.ip.state with log := [] }.modify .mlan (exchanged .bound ipAddr netmask gw)) .mlan
    (by rw [modify_netif_self]; exact hcb)
  rw [modify_netif_self, hgot] at hcallback
  obtain ⟨hipup, hconnected⟩ := count_ipupReports r.app
  refine ⟨?_, ?_, ?_, ?_⟩
  · show (appStep lw r c).1.ip.state.log.any _ = true
    rw [hnet, hcallback]
    rfl
  · rw [hnet, hcallback]
    rfl
  · rw [hreports, List.count_append, hipup, List.count_eq_zero_of_not_mem, Nat.zero_add]
    split <;> simp
  · rw [hreports, List.count_append, hconnected, List.count_eq_zero_of_not_mem, Nat.zero_add]
    split <;> simp

/-- A start with DHCP settings has its callback registered, and so the lease that follows
    announces the address. -/
theorem dhcp_announces (lw : Lwip) {r : AppRun} (h : BaseInv r.ip)
    (hflag : r.ip.state.staIpStartFlag = 0) (haddr : r.ip.state.staIpSettings.addrType = .dhcp)
    (ipAddr netmask gw : UInt32) :
    let r₁ := (appStep lw r (.net .staIpStart)).1
    let c := AppCall.net (.exchange .mlan .bound ipAddr netmask gw true)
    Announced r₁ (appStep lw r₁ c).1 (appStep lw r₁ c).2 := by
  have hstart := @ipStep_staIpStart lw _ hflag
  rw [netConfigureAddress_dhcp (s := { r.ip.state with staIpStartFlag := 1, log := [] }) haddr
    (h.sta_down hflag)] at hstart
  have hnetif : ((appStep lw r (.net .staIpStart)).1.ip.state.netif .mlan) =
      startDhcp lw (r.ip.state.netif .mlan) := by
    show ((ipStep lw r.ip .staIpStart).1.state.netif .mlan) = _
    rw [hstart]
    show ((startReport _ .mlan).modify .mlan (startDhcp lw)).netif .mlan = _
    rw [modify_netif_self]
    rfl
  intro r₁ c
  refine bound_announces lw ?_ ?_ ?_ ipAddr netmask gw
  · rw [hnetif]
    rfl
  · rw [hnetif]
    rfl
  · rw [hnetif]
    rfl

end ArduinoT2.Wifi
