import ArduinoT2.Wifi.IpState

/-
  What a start of DHCP is reported as (net.c).

  `wm_netif_status_callback` decides by the state of the DHCP record, and it is registered before
  the interface is set up, which runs it, and before the client is started. On the first start
  there is no record yet and nothing is set; on a later one the record of the session before is
  there, is not bound, and the start is reported as a failure of DHCP. `dhcp_status_iff` says
  that this is the one case.
-/

namespace ArduinoT2.Wifi

open StepSys ArduinoT2.Adapter

/-! ## Requests -/

/-- The status of the station that an event sets. -/
def setsStatus : StatusEvent → Option RwEvtType
  | .callback _ _ type => type
  | .set type => some type

/-- The callback sets `RW_EVT_STA_GOT_IP` exactly for an interface that is up with its record
    bound. -/
def ReportOk : StatusEvent → Prop
  | .callback up dhcp type => type = some .staGotIp ↔ up = true ∧ dhcp = some .bound
  | .set _ => True

/-- A start of the station sets no failure of DHCP, and what the callback sets is right. -/
structure DhcpOk (lw : Lwip) (r : IpRun) (c : NetCall) : Prop where
  started : c = .staIpStart → ∀ e ∈ (ipStep lw r c).2, setsStatus e ≠ some .staDhcpFailed
  reports : ∀ e ∈ (ipStep lw r c).2, ReportOk e

/-- A start of the station with DHCP settings finds no DHCP record. -/
def FindsNoRecord (r : IpRun) : NetCall → Prop
  | .staIpStart => r.state.staIpStartFlag = 0 → r.state.staIpSettings.addrType = .dhcp →
    (r.state.netif .mlan).dhcp = none
  | _ => True

/-! ## The log -/

/-- The log of a call that finds the status `before`: the status is what has been set last, and
    the reports are right. -/
structure Logged (before : RwEvtType) (s : NetState) : Prop where
  status : s.stationStatus = s.log.foldl (fun status e => (setsStatus e).getD status) before
  reports : ∀ e ∈ s.log, ReportOk e

theorem dhcpStatus_gotIp (n : Netif) :
    dhcpStatus n = some .staGotIp ↔ n.up = true ∧ n.dhcp = some .bound := by
  unfold dhcpStatus
  cases n.up with
  | false => simp
  | true =>
    cases n.dhcp with
    | none => simp
    | some state => by_cases hbound : state = .bound <;> simp [hbound]

variable {before : RwEvtType} {s : NetState} {lw : Lwip}

theorem Logged.snoc (h : Logged before s) {e : StatusEvent} (he : ReportOk e) :
    Logged before
      { s with stationStatus := (setsStatus e).getD s.stationStatus, log := s.log ++ [e] } := by
  refine ⟨?_, ?_⟩
  · show (setsStatus e).getD s.stationStatus = (s.log ++ [e]).foldl _ before
    rw [List.foldl_concat, ← h.status]
  · intro e' he'
    rcases List.mem_append.mp he' with hold | hnew
    · exact h.reports e' hold
    · rw [List.mem_singleton.mp hnew]
      exact he

theorem Logged.mhdrSetStationStatus (h : Logged before s) (type : RwEvtType) :
    Logged before (mhdrSetStationStatus s type) := h.snoc (e := .set type) trivial

theorem Logged.runStatusCallback (h : Logged before s) (iface : Iface) :
    Logged before (runStatusCallback s iface) := by
  unfold Adapter.runStatusCallback
  split
  · exact h
  · split
    · exact h.mhdrSetStationStatus .staGotIp
    · exact h
  · exact h.snoc (e := .callback _ _ _) (dhcpStatus_gotIp _)

theorem Logged.modify (h : Logged before s) (iface : Iface) (f : Netif → Netif) :
    Logged before (s.modify iface f) := ⟨h.status, h.reports⟩

theorem Logged.netifapiNetifSetUp (h : Logged before s) (iface : Iface) :
    Logged before (netifapiNetifSetUp s iface) := by
  unfold Adapter.netifapiNetifSetUp
  split
  · exact h
  · exact (h.modify ..).runStatusCallback iface

theorem Logged.netifapiNetifSetDown (h : Logged before s) (iface : Iface) :
    Logged before (netifapiNetifSetDown s iface) := by
  unfold Adapter.netifapiNetifSetDown
  split
  · exact (h.modify ..).runStatusCallback iface
  · exact h

theorem Logged.netConfigureDns (h : Logged before s) (addr : Ipv4Config) (iface : Iface) :
    Logged before (netConfigureDns s addr iface) := by
  obtain ⟨sta, uap, dns, hdns, -⟩ := netConfigureDns_eq s addr iface
  rw [hdns]
  exact ⟨h.status, h.reports⟩

theorem Logged.netConfigureType (h : Logged before s) (addr : Ipv4Config) (iface : Iface) :
    Logged before (netConfigureType lw s addr iface) := by
  unfold Adapter.netConfigureType
  split
  · split
    · exact (((h.modify iface _).netifapiNetifSetUp iface).netConfigureDns addr iface).modify ..
    · exact ((h.modify iface _).netifapiNetifSetUp iface).netConfigureDns addr iface
  · exact (((h.modify iface _).modify iface _).netifapiNetifSetUp iface).modify ..

theorem Logged.netConfigureAddress (h : Logged before s) (addr : Ipv4Config) (iface : Iface) :
    Logged before (netConfigureAddress lw s addr iface) := by
  have htype : Logged before (Adapter.netConfigureType lw
      (netifSetStatusCallback (Adapter.netifapiNetifSetDown s iface) iface none) addr iface) :=
    ((h.netifapiNetifSetDown iface).modify iface _).netConfigureType addr iface
  unfold Adapter.netConfigureAddress
  cases iface with
  | mlan => exact htype
  | uap => exact ⟨htype.status, htype.reports⟩

theorem Logged.ipAddressSet (h : Logged before s) (iface dhcp : Int) (ip mask gw dns : UInt32) :
    Logged before (ipAddressSet s iface dhcp ip mask gw dns) := by
  unfold Adapter.ipAddressSet
  split
  · exact ⟨h.status, h.reports⟩
  · exact ⟨h.status, h.reports⟩

theorem Logged.staIpStart (h : Logged before s) : Logged before (staIpStart lw s) := by
  unfold Adapter.staIpStart
  by_cases hflag : s.staIpStartFlag = 0
  · have hset : Logged before { s with staIpStartFlag := 1 } := ⟨h.status, h.reports⟩
    rw [if_pos hflag]
    exact hset.netConfigureAddress ..
  · rw [if_neg hflag]
    by_cases hcond : s.stationStatus = .staConnected ∧
        0 ≠ if (s.netif .mlan).up then (s.netif .mlan).ipAddr else 0
    · exact (if_pos hcond).symm ▸ h.mhdrSetStationStatus .staGotIp
    · exact (if_neg hcond).symm ▸ h

theorem Logged.staIpDown (h : Logged before s) : Logged before (staIpDown lw s) := by
  unfold Adapter.staIpDown
  split
  · have hset : Logged before { s with staIpStartFlag := 0 } := ⟨h.status, h.reports⟩
    exact ((hset.netifapiNetifSetDown .mlan).modify ..).modify ..
  · exact h

theorem Logged.uapIpStart (h : Logged before s) : Logged before (uapIpStart lw s) := by
  unfold Adapter.uapIpStart
  split
  · have hset : Logged before { s with uapIpStartFlag := 1 } := ⟨h.status, h.reports⟩
    exact hset.netConfigureAddress ..
  · exact h

theorem Logged.uapIpDown (h : Logged before s) : Logged before (uapIpDown s) := by
  unfold Adapter.uapIpDown
  split
  · have hset : Logged before { s with uapIpStartFlag := 0 } := ⟨h.status, h.reports⟩
    have hdown := (hset.netifapiNetifSetDown .uap).modify .uap
      fun n => { n with statusCallback := none }
    exact ⟨hdown.status, hdown.reports⟩
  · exact h

theorem Logged.dhcpExchange (h : Logged before s) (iface : Iface) (state : DhcpState)
    (ipAddr netmask gw : UInt32) (notify : Bool) :
    Logged before (dhcpExchange s iface state ipAddr netmask gw notify) := by
  unfold Adapter.dhcpExchange
  split
  · split
    · exact (h.modify ..).runStatusCallback iface
    · exact h.modify ..
  · exact h

/-- A call's log tells the status behind it, and reports what the records say. -/
theorem ipStep_logged (lw : Lwip) (r : IpRun) (c : NetCall) :
    Logged r.state.stationStatus (ipStep lw r c).1.state := by
  have hnone : Logged r.state.stationStatus { r.state with log := [] } :=
    ⟨rfl, fun e he => nomatch he⟩
  cases c with
  | ipAddressSet iface dhcp ip mask gw dns => exact hnone.ipAddressSet ..
  | staIpStart => exact hnone.staIpStart
  | staIpDown => exact hnone.staIpDown
  | uapIpStart => exact hnone.uapIpStart
  | uapIpDown => exact hnone.uapIpDown
  | exchange iface state ipAddr netmask gw notify => exact hnone.dhcpExchange ..
  | stationStatus type => exact hnone.mhdrSetStationStatus type

/-! ## One call -/

theorem start_log_static (lw : Lwip) {r : IpRun} (h : BaseInv r)
    (hflag : r.state.staIpStartFlag = 0) (haddr : r.state.staIpSettings.addrType = .static) :
    (ipStep lw r .staIpStart).2 = [] := by
  have hdown := h.sta_down hflag
  obtain ⟨sta, uap, dns, hdns, -⟩ :=
    netConfigureDns_eq { r.state with staIpStartFlag := 1, log := [] } r.state.staIpSettings .mlan
  show (ipStep lw r .staIpStart).1.state.log = []
  rw [ipStep_staIpStart hflag, netConfigureAddress_static
    (s := { r.state with staIpStartFlag := 1, log := [] }) haddr hdown, hdns]
  rfl

/-- A start with DHCP settings reports the record that it finds. -/
theorem start_log_dhcp (lw : Lwip) {r : IpRun} (h : BaseInv r)
    (hflag : r.state.staIpStartFlag = 0) (haddr : r.state.staIpSettings.addrType = .dhcp) :
    (ipStep lw r .staIpStart).2 = [.callback true (r.state.netif .mlan).dhcp
      (dhcpStatus { r.state.netif .mlan with up := true })] := by
  have hdown := h.sta_down hflag
  show (ipStep lw r .staIpStart).1.state.log = _
  rw [ipStep_staIpStart hflag, netConfigureAddress_dhcp
    (s := { r.state with staIpStartFlag := 1, log := [] }) haddr hdown]
  rfl

/-- A start of a station that is started sets `RW_EVT_STA_GOT_IP`, or nothing. -/
theorem start_log_started (lw : Lwip) {r : IpRun} (hflag : r.state.staIpStartFlag ≠ 0) :
    ∀ e ∈ (ipStep lw r .staIpStart).2, setsStatus e ≠ some .staDhcpFailed := by
  show ∀ e ∈ (staIpStart lw { r.state with log := [] }).log, _
  unfold staIpStart
  rw [if_neg hflag]
  by_cases hcond : r.state.stationStatus = .staConnected ∧
      0 ≠ if (r.state.netif .mlan).up then (r.state.netif .mlan).ipAddr else 0
  · have hlog : ∀ e ∈ [StatusEvent.set .staGotIp], setsStatus e ≠ some .staDhcpFailed := by decide
    exact (if_pos hcond).symm ▸ hlog
  · exact (if_neg hcond).symm ▸ fun e he => nomatch he

/-- While no client runs, a record that is there is reported as a failure. -/
theorem dhcpStatus_start {n : Netif} (h : n.dhcp ≠ some .bound) :
    dhcpStatus { n with up := true } ≠ some .staDhcpFailed ↔ n.dhcp = none := by
  unfold dhcpStatus
  cases hdhcp : n.dhcp with
  | none => simp
  | some state =>
    have hbound : state ≠ .bound := fun heq => h (hdhcp.trans (congrArg some heq))
    simp [hbound]

theorem started_iff (lw : Lwip) {r : IpRun} (h : BaseInv r) :
    (∀ e ∈ (ipStep lw r .staIpStart).2, setsStatus e ≠ some .staDhcpFailed) ↔
      FindsNoRecord r .staIpStart := by
  by_cases hflag : r.state.staIpStartFlag = 0
  · cases haddr : r.state.staIpSettings.addrType with
    | static =>
      refine iff_of_true ?_ fun _ hdhcp => ?_
      · rw [start_log_static lw h hflag haddr]
        exact fun e he => nomatch he
      · rw [haddr] at hdhcp
        exact nomatch hdhcp
    | dhcp =>
      rw [start_log_dhcp lw h hflag haddr, List.forall_mem_singleton]
      refine (dhcpStatus_start (h.record (h.sta.idle hflag))).trans ?_
      exact ⟨fun hnone _ _ => hnone, fun hnone => hnone hflag haddr⟩
  · exact iff_of_true (start_log_started lw hflag) fun hzero => absurd hzero hflag

/-- Where the invariant holds, a call's reports are right if and only if it finds no record. -/
theorem dhcpOk_iff (lw : Lwip) {r : IpRun} (h : BaseInv r) (c : NetCall) :
    DhcpOk lw r c ↔ FindsNoRecord r c := by
  have hreports : ∀ e ∈ (ipStep lw r c).2, ReportOk e := (ipStep_logged lw r c).reports
  constructor
  · intro hok
    cases c with
    | staIpStart => exact (started_iff lw h).mp (hok.started rfl)
    | _ => trivial
  · intro hc
    refine ⟨fun hstart => ?_, hreports⟩
    subst hstart
    exact (started_iff lw h).mpr hc

/-! ## Runs -/

/-- In every sequence of calls from reset, with DHCP exchanges that bind, time out or do anything
    else in between: no start of the station sets `RW_EVT_STA_DHCP_FAILED`, and the status callback
    sets `RW_EVT_STA_GOT_IP` exactly for an interface that is up with its record bound, if and only
    if no start of the station with DHCP settings finds a DHCP record. -/
theorem dhcp_status_iff (lw : Lwip) (cs : List NetCall) :
    Along (ipStep lw) (DhcpOk lw) .static cs ↔ Along (ipStep lw) FindsNoRecord .static cs := by
  symm
  apply along_congr (I := BaseInv)
  · exact fun _ c h _ => base_step lw h c
  · exact fun _ c h => (dhcpOk_iff lw h c).symm
  · exact .static

/-- The station is started, stopped and started again. -/
theorem dhcp_status_failed : ¬Along (ipStep .linkUp) (DhcpOk .linkUp) .static
    [.staIpStart, .staIpDown, .staIpStart] := by
  intro hrun
  obtain ⟨-, -, hstart, -⟩ := hrun
  exact absurd (hstart.started rfl) (by decide)

end ArduinoT2.Wifi
