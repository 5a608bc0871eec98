import ArduinoT2.Adapter.Net
import ArduinoT2.Lib.StepSys

/-
  The IP state of the station and of the access point (net.c) over every sequence of calls.

  The start flags, the interfaces, the DHCP clients and the DHCP server stay in step, and each
  side leaves the other alone, with one exception: `uap_ip_down` does not stop a DHCP client, as
  `sta_ip_down` does. `ip_state_iff` says that this is the only one: an access point that has
  been started with DHCP settings, which unset settings are, is not to be stopped.
-/

namespace ArduinoT2.Wifi

open StepSys ArduinoT2.Adapter

/-! ## Requests -/

/-- The variables, and the settings in force when each interface was last started. -/
structure IpRun where
  state : NetState
  atStart : Iface → Ipv4Config

/-- At reset nothing is started. -/
def IpRun.static : IpRun := ⟨.static, fun _ => ⟨.dhcp, 0, 0, 0, 0, 0⟩⟩

/-- The settings in force at the last start, with this call: a start of an interface that is
    started does nothing. -/
def startedWith (r : IpRun) : NetCall → Iface → Ipv4Config
  | .staIpStart =>
    if r.state.staIpStartFlag = 0 then Function.update r.atStart .mlan r.state.staIpSettings
    else r.atStart
  | .uapIpStart =>
    if r.state.uapIpStartFlag = 0 then Function.update r.atStart .uap r.state.uapIpSettings
    else r.atStart
  | _ => r.atStart

/-- One call, with what it logs. -/
def ipStep (lw : Lwip) (r : IpRun) (c : NetCall) : IpRun × List StatusEvent :=
  let s := netCall lw { r.state with log := [] } c
  (⟨s, startedWith r c⟩, s.log)

/-- An interface with its start flag and the settings in force at its start: a DHCP client runs
    if it is started and these were DHCP, and if they were static it has their addresses. -/
structure IfaceOk (n : Netif) (flag : UInt32) (start : Ipv4Config) : Prop where
  runs : n.dhcpRuns = true ↔ flag ≠ 0 ∧ start.addrType = .dhcp
  ipAddr : flag ≠ 0 → start.addrType = .static → n.ipAddr = start.address
  netmask : flag ≠ 0 → start.addrType = .static → n.netmask = start.netmask
  gw : flag ≠ 0 → start.addrType = .static → n.gw = start.gw

/-- What is of the station. -/
def staOf (s : NetState) : Ipv4Config × UInt32 × Netif × RwEvtType :=
  (s.staIpSettings, s.staIpStartFlag, s.netif .mlan, s.stationStatus)

/-- What is of the access point. -/
def uapOf (s : NetState) : Ipv4Config × UInt32 × Netif × Bool :=
  (s.uapIpSettings, s.uapIpStartFlag, s.netif .uap, s.dhcpdRunning)

/-- A call for the one side leaves the other side's state. -/
def Apart (s s' : NetState) : NetCall → Prop
  | .ipAddressSet iface .. => if iface = 1 then uapOf s' = uapOf s else staOf s' = staOf s
  | .staIpStart | .staIpDown => uapOf s' = uapOf s
  | .uapIpStart | .uapIpDown => staOf s' = staOf s
  | .exchange .. | .stationStatus _ => True

/-- The flags, the interfaces and the servers are in step behind the call, and it has left the
    other side alone. -/
structure IpOk (lw : Lwip) (r : IpRun) (c : NetCall) : Prop where
  staFlag : (ipStep lw r c).1.state.staIpStartFlag ≠ 0 ↔
    ((ipStep lw r c).1.state.netif .mlan).up = true
  uapFlag : (ipStep lw r c).1.state.uapIpStartFlag ≠ 0 ↔
    ((ipStep lw r c).1.state.netif .uap).up = true ∧ (ipStep lw r c).1.state.dhcpdRunning = true
  sta : IfaceOk ((ipStep lw r c).1.state.netif .mlan) (ipStep lw r c).1.state.staIpStartFlag
    ((ipStep lw r c).1.atStart .mlan)
  uap : IfaceOk ((ipStep lw r c).1.state.netif .uap) (ipStep lw r c).1.state.uapIpStartFlag
    ((ipStep lw r c).1.atStart .uap)
  apart : Apart r.state (ipStep lw r c).1.state c

/-- An access point that is stopped has not been started with DHCP settings. -/
def StopsStatic (r : IpRun) : NetCall → Prop
  | .uapIpDown => r.state.uapIpStartFlag ≠ 0 → (r.atStart .uap).addrType = .static
  | _ => True

/-! ## The status callback -/

theorem runStatusCallback_none {s : NetState} {iface : Iface}
    (h : (s.netif iface).statusCallback = none) : runStatusCallback s iface = s := by
  unfold runStatusCallback
  rw [h]

theorem runStatusCallback_dhcp {s : NetState} {iface : Iface}
    (h : (s.netif iface).statusCallback = some .wmNetifStatusCallback) :
    runStatusCallback s iface =
      { s with
        stationStatus := (dhcpStatus (s.netif iface)).getD s.stationStatus
        log := s.log ++ [.callback (s.netif iface).up (s.netif iface).dhcp
          (dhcpStatus (s.netif iface))] } := by
  unfold runStatusCallback
  rw [h]

theorem dhcpStatus_down {n : Netif} (h : n.up = false) : dhcpStatus n = none := by
  unfold dhcpStatus
  rw [h]
  rfl

/-- An interface that is down sets no status. -/
theorem runStatusCallback_down {s : NetState} {iface : Iface} (h : (s.netif iface).up = false) :
    ∃ log, runStatusCallback s iface = { s with log } := by
  cases hcb : (s.netif iface).statusCallback with
  | none => exact ⟨s.log, runStatusCallback_none hcb⟩
  | some cb =>
    cases cb with
    | wmNetifStatusStaticCallback =>
      refine ⟨s.log, ?_⟩
      unfold runStatusCallback
      rw [hcb, h]
      rfl
    | wmNetifStatusCallback =>
      refine ⟨s.log ++ [.callback (s.netif iface).up (s.netif iface).dhcp none], ?_⟩
      rw [runStatusCallback_dhcp hcb, dhcpStatus_down h]
      rfl

/-- It changes the status of the station, and nothing else. -/
theorem runStatusCallback_eq (s : NetState) (iface : Iface) :
    ∃ stationStatus log, runStatusCallback s iface = { s with stationStatus, log } := by
  cases hcb : (s.netif iface).statusCallback with
  | none => exact ⟨_, _, runStatusCallback_none hcb⟩
  | some cb =>
    cases cb with
    | wmNetifStatusStaticCallback =>
      unfold runStatusCallback
      rw [hcb]
      cases (s.netif iface).up with
      | true => exact ⟨_, _, rfl⟩
      | false => exact ⟨_, _, rfl⟩
    | wmNetifStatusCallback => exact ⟨_, _, runStatusCallback_dhcp hcb⟩

/-! ## Interfaces -/

@[simp] theorem modify_netif_self (s : NetState) (iface : Iface) (f : Netif → Netif) :
    (s.modify iface f).netif iface = f (s.netif iface) := Function.update_self ..

theorem modify_netif_ne {iface other : Iface} (h : other ≠ iface) (s : NetState)
    (f : Netif → Netif) : (s.modify iface f).netif other = s.netif other :=
  Function.update_of_ne h ..

theorem modify_modify (s : NetState) (iface : Iface) (f g : Netif → Netif) :
    (s.modify iface f).modify iface g = s.modify iface (g ∘ f) := by
  have hnetif : ((s.modify iface f).modify iface g).netif = (s.modify iface (g ∘ f)).netif := by
    show Function.update (Function.update _ _ _) iface _ = _
    rw [Function.update_idem, modify_netif_self]
    rfl
  exact congrArg (fun netif => { s with netif }) hnetif

theorem modify_congr {s : NetState} {iface : Iface} {f g : Netif → Netif}
    (h : f (s.netif iface) = g (s.netif iface)) : s.modify iface f = s.modify iface g := by
  unfold NetState.modify
  rw [h]

theorem modify_self {s : NetState} {iface : Iface} {f : Netif → Netif}
    (h : f (s.netif iface) = s.netif iface) : s.modify iface f = s := by
  unfold NetState.modify
  rw [h, Function.update_eq_self]

/-- An interface that is set down. -/
theorem netifapiNetifSetDown_eq (s : NetState) (iface : Iface) :
    ∃ log, netifapiNetifSetDown s iface =
      { s with log }.modify iface fun n => { n with up := false } := by
  unfold netifapiNetifSetDown
  by_cases hup : (s.netif iface).up = true
  · rw [if_pos hup]
    exact runStatusCallback_down (congrArg Netif.up (modify_netif_self s iface _))
  · have hsame : { s.netif iface with up := false } = s.netif iface := by
      rw [← Bool.eq_false_iff.mpr hup]
    rw [if_neg hup]
    exact ⟨s.log, (modify_self (s := s) hsame).symm⟩

theorem netifapiNetifSetUp_eq {s : NetState} {iface : Iface} (h : (s.netif iface).up = false) :
    netifapiNetifSetUp s iface =
      runStatusCallback (s.modify iface fun n => { n with up := true }) iface := by
  unfold netifapiNetifSetUp
  rw [h]
  rfl

/-- The DNS servers are set, and filled in in the settings of the interface. -/
theorem netConfigureDns_eq (s : NetState) (addr : Ipv4Config) (iface : Iface) :
    ∃ sta uap dns,
      netConfigureDns s addr iface = { s with staIpSettings := sta, uapIpSettings := uap, dns } ∧
        (iface ≠ .mlan → sta = s.staIpSettings) ∧ (iface ≠ .uap → uap = s.uapIpSettings) := by
  unfold netConfigureDns
  by_cases haddr : addr.addrType = .static
  · rw [if_pos haddr]
    cases iface with
    | mlan => exact ⟨_, _, _, rfl, fun h => absurd rfl h, fun _ => rfl⟩
    | uap => exact ⟨_, _, _, rfl, fun _ => rfl, fun h => absurd rfl h⟩
  · rw [if_neg haddr]
    exact ⟨_, _, _, rfl, fun _ => rfl, fun _ => rfl⟩

theorem netConfigureDns_modify (s : NetState) (addr : Ipv4Config) (iface : Iface)
    (f : Netif → Netif) :
    netConfigureDns (s.modify iface f) addr iface =
      (netConfigureDns s addr iface).modify iface f := by
  unfold netConfigureDns
  split
  · cases iface <;> rfl
  · rfl

/-! ## Starts -/

/-- An interface that a start leaves with static settings: only the station has a callback. -/
def startStatic (iface : Iface) (addr : Ipv4Config) (n : Netif) : Netif :=
  { n with
    up := true
    ipAddr := addr.address
    netmask := addr.netmask
    gw := addr.gw
    statusCallback := if iface = .mlan then some .wmNetifStatusStaticCallback else none }

/-- An interface that a start sets up with DHCP settings, -/
def upDhcp (n : Netif) : Netif :=
  { n with
    up := true, ipAddr := 0, netmask := 0, gw := 0
    statusCallback := some .wmNetifStatusCallback }

/-- and leaves with a DHCP client. -/
def startDhcp (lw : Lwip) (n : Netif) : Netif :=
  { upDhcp n with dhcp := some (lw.dhcpStart n.dhcp), dhcpRuns := true }

variable {lw : Lwip}

theorem netConfigureType_static {s : NetState} {addr : Ipv4Config} {iface : Iface}
    (haddr : addr.addrType = .static) (hdown : (s.netif iface).up = false)
    (hcb : (s.netif iface).statusCallback = none) :
    netConfigureType lw s addr iface =
      (netConfigureDns s addr iface).modify iface (startStatic iface addr) := by
  let up : Netif → Netif := fun n =>
    { n with up := true, ipAddr := addr.address, netmask := addr.netmask, gw := addr.gw }
  have hup : netifapiNetifSetUp (netifapiNetifSetAddr s iface addr.address addr.netmask addr.gw)
      iface = s.modify iface up := by
    unfold netifapiNetifSetAddr
    rw [netifapiNetifSetUp_eq, modify_modify, runStatusCallback_none]
    · rfl
    · exact (congrArg Netif.statusCallback (modify_netif_self ..)).trans hcb
    · exact (congrArg Netif.up (modify_netif_self ..)).trans hdown
  unfold netConfigureType
  rw [haddr]
  simp only [hup, netConfigureDns_modify]
  cases iface with
  | mlan => exact (if_pos rfl).trans (modify_modify ..)
  | uap =>
    apply modify_congr
    unfold up startStatic
    obtain ⟨sta, uap, dns, hdns, -⟩ := netConfigureDns_eq s addr .uap
    rw [hdns]
    exact congrArg (fun cb => (⟨true, _, _, _, cb, _, _⟩ : Netif)) hcb

/-- What the callback reports while a start with DHCP settings sets the interface up. -/
def startReport (s : NetState) (iface : Iface) : NetState :=
  let type := dhcpStatus { s.netif iface with up := true }
  { s with
    stationStatus := type.getD s.stationStatus
    log := s.log ++ [.callback true (s.netif iface).dhcp type] }

theorem netConfigureType_dhcp {s : NetState} {addr : Ipv4Config} {iface : Iface}
    (haddr : addr.addrType = .dhcp) (hdown : (s.netif iface).up = false) :
    netConfigureType lw s addr iface = (startReport s iface).modify iface (startDhcp lw) := by
  have hset : (netifSetStatusCallback (netifapiNetifSetAddr s iface 0 0 0) iface
      (some .wmNetifStatusCallback)).modify iface (fun n => { n with up := true }) =
      s.modify iface upDhcp := by
    unfold netifSetStatusCallback netifapiNetifSetAddr
    rw [modify_modify, modify_modify]
    rfl
  have hcb : ((s.modify iface upDhcp).netif iface).statusCallback = some .wmNetifStatusCallback :=
    congrArg Netif.statusCallback (modify_netif_self ..)
  have hup : netifapiNetifSetUp (netifSetStatusCallback (netifapiNetifSetAddr s iface 0 0 0) iface
      (some .wmNetifStatusCallback)) iface = (startReport s iface).modify iface upDhcp := by
    rw [netifapiNetifSetUp_eq, hset, runStatusCallback_dhcp hcb, modify_netif_self]
    · rfl
    · unfold netifSetStatusCallback netifapiNetifSetAddr
      rw [modify_modify, modify_netif_self]
      exact hdown
  unfold netConfigureType
  rw [haddr]
  simp only [hup]
  exact modify_modify ..

/-- A start of an interface that is down takes its callback away, and starts the server of the
    access point. -/
theorem netConfigureAddress_eq {s : NetState} {iface : Iface} (hdown : (s.netif iface).up = false)
    (addr : Ipv4Config) :
    netConfigureAddress lw s addr iface =
      let s' := netConfigureType lw (netifSetStatusCallback s iface none) addr iface
      { s' with dhcpdRunning := s'.dhcpdRunning || iface = .uap } := by
  unfold netConfigureAddress netifapiNetifSetDown
  rw [hdown]
  cases iface with
  | mlan => simp
  | uap => simp

theorem netConfigureAddress_static {s : NetState} {addr : Ipv4Config} {iface : Iface}
    (haddr : addr.addrType = .static) (hdown : (s.netif iface).up = false) :
    netConfigureAddress lw s addr iface =
      let s' := (netConfigureDns s addr iface).modify iface (startStatic iface addr)
      { s' with dhcpdRunning := s'.dhcpdRunning || iface = .uap } := by
  have hnetif := modify_netif_self s iface fun n => { n with statusCallback := none }
  have htype : netConfigureType lw (netifSetStatusCallback s iface none) addr iface =
      (netConfigureDns s addr iface).modify iface (startStatic iface addr) := by
    rw [netConfigureType_static haddr]
    · unfold netifSetStatusCallback
      rw [netConfigureDns_modify, modify_modify]
      rfl
    · exact (congrArg Netif.up hnetif).trans hdown
    · exact congrArg Netif.statusCallback hnetif
  rw [netConfigureAddress_eq hdown, htype]

theorem netConfigureAddress_dhcp {s : NetState} {addr : Ipv4Config} {iface : Iface}
    (haddr : addr.addrType = .dhcp) (hdown : (s.netif iface).up = false) :
    netConfigureAddress lw s addr iface =
      let s' := (startReport s iface).modify iface (startDhcp lw)
      { s' with dhcpdRunning := s'.dhcpdRunning || iface = .uap } := by
  have hnetif := modify_netif_self s iface fun n => { n with statusCallback := none }
  have htype : netConfigureType lw (netifSetStatusCallback s iface none) addr iface =
      (startReport s iface).modify iface (startDhcp lw) := by
    have hreport : startReport (netifSetStatusCallback s iface none) iface =
        (startReport s iface).modify iface fun n => { n with statusCallback := none } := by
      unfold startReport netifSetStatusCallback
      rw [hnetif]
      rfl
    rw [netConfigureType_dhcp haddr, hreport, modify_modify]
    · rfl
    · exact (congrArg Netif.up hnetif).trans hdown
  rw [netConfigureAddress_eq hdown, htype]

/-- What a start leaves, and what it leaves alone. -/
structure Configured (s s' : NetState) (addr : Ipv4Config) (iface : Iface) : Prop where
  up : (s'.netif iface).up = true
  others : ∀ other ≠ iface, s'.netif other = s.netif other
  staFlag : s'.staIpStartFlag = s.staIpStartFlag
  uapFlag : s'.uapIpStartFlag = s.uapIpStartFlag
  server : s'.dhcpdRunning = (s.dhcpdRunning || iface = .uap)
  staSettings : iface ≠ .mlan → s'.staIpSettings = s.staIpSettings
  uapSettings : iface ≠ .uap → s'.uapIpSettings = s.uapIpSettings
  status : (s.netif iface).dhcp = none → s'.stationStatus = s.stationStatus

theorem configured (lw : Lwip) {s : NetState} {iface : Iface} (hdown : (s.netif iface).up = false)
    (addr : Ipv4Config) : Configured s (netConfigureAddress lw s addr iface) addr iface := by
  cases haddr : addr.addrType with
  | static =>
    obtain ⟨sta, uap, dns, hdns, hsta, huap⟩ := netConfigureDns_eq s addr iface
    rw [netConfigureAddress_static haddr hdown, hdns]
    refine ⟨?_, fun other hne => modify_netif_ne hne s _, rfl, rfl, rfl, hsta, huap, fun _ => rfl⟩
    exact congrArg Netif.up (modify_netif_self s iface (startStatic iface addr))
  | dhcp =>
    rw [netConfigureAddress_dhcp haddr hdown]
    refine ⟨?_, fun other hne => modify_netif_ne hne s _, rfl, rfl, rfl, fun _ => rfl, fun _ => rfl,
      fun hnone => ?_⟩
    · exact congrArg Netif.up (modify_netif_self s iface (startDhcp lw))
    · show (dhcpStatus { s.netif iface with up := true }).getD s.stationStatus = s.stationStatus
      unfold dhcpStatus
      rw [hnone]
      rfl

/-- An interface that is started without a DHCP client, and with its record as `P` says. -/
theorem configured_ok (lw : Lwip) {s : NetState} {iface : Iface}
    (hdown : (s.netif iface).up = false) (hruns : (s.netif iface).dhcpRuns = false)
    (addr : Ipv4Config) {P : Option DhcpState → Prop} (hrecord : P (s.netif iface).dhcp) :
    IfaceOk ((netConfigureAddress lw s addr iface).netif iface) 1 addr ∧
      (((netConfigureAddress lw s addr iface).netif iface).dhcpRuns = false →
        P ((netConfigureAddress lw s addr iface).netif iface).dhcp) := by
  cases haddr : addr.addrType with
  | static =>
    obtain ⟨sta, uap, dns, hdns, -⟩ := netConfigureDns_eq s addr iface
    have hnetif : (netConfigureAddress lw s addr iface).netif iface =
        startStatic iface addr (s.netif iface) := by
      rw [netConfigureAddress_static haddr hdown, hdns]
      exact modify_netif_self s iface _
    rw [hnetif]
    refine ⟨⟨iff_of_false ?_ ?_, fun _ _ => rfl, fun _ _ => rfl, fun _ _ => rfl⟩, fun _ => hrecord⟩
    · exact Bool.eq_false_iff.mp hruns
    · rw [haddr]
      exact fun h => nomatch h.2
  | dhcp =>
    have hnetif : (netConfigureAddress lw s addr iface).netif iface =
        startDhcp lw (s.netif iface) := by
      rw [netConfigureAddress_dhcp haddr hdown]
      exact modify_netif_self s iface _
    have hno : addr.addrType ≠ .static := by
      rw [haddr]
      decide
    rw [hnetif]
    exact ⟨⟨iff_of_true rfl ⟨by decide, haddr⟩, fun _ h => absurd h hno, fun _ h => absurd h hno,
      fun _ h => absurd h hno⟩, fun h => nomatch h⟩

/-! ## Stops and exchanges -/

/-- The station's interface behind a stop. -/
def stopSta (lw : Lwip) (n : Netif) : Netif :=
  { n with up := false, statusCallback := none, dhcp := n.dhcp.map lw.dhcpStop, dhcpRuns := false }

/-- The access point's interface behind a stop. -/
def stopUap (n : Netif) : Netif := { n with up := false, statusCallback := none }

theorem staIpDown_eq (lw : Lwip) {s : NetState} (h : s.staIpStartFlag ≠ 0) :
    ∃ log, staIpDown lw s = { s with staIpStartFlag := 0, log }.modify .mlan (stopSta lw) := by
  obtain ⟨log, hdown⟩ := netifapiNetifSetDown_eq { s with staIpStartFlag := 0 } .mlan
  refine ⟨log, ?_⟩
  unfold staIpDown
  rw [if_pos h]
  simp only [hdown, netifSetStatusCallback, netifapiDhcpStop]
  rw [modify_modify, modify_modify]
  rfl

theorem uapIpDown_eq {s : NetState} (h : s.uapIpStartFlag ≠ 0) :
    ∃ log, uapIpDown s =
      { s with uapIpStartFlag := 0, dhcpdRunning := false, log }.modify .uap stopUap := by
  obtain ⟨log, hdown⟩ := netifapiNetifSetDown_eq { s with uapIpStartFlag := 0 } .uap
  refine ⟨log, ?_⟩
  unfold uapIpDown
  rw [if_pos h]
  simp only [hdown, netifSetStatusCallback]
  rw [modify_modify]
  rfl

/-- The interface behind an exchange. -/
def exchanged (state : DhcpState) (ipAddr netmask gw : UInt32) (n : Netif) : Netif :=
  { n with dhcp := some state, ipAddr, netmask, gw }

theorem dhcpExchange_eq {s : NetState} {iface : Iface} (h : (s.netif iface).dhcpRuns = true)
    (state : DhcpState) (ipAddr netmask gw : UInt32) (notify : Bool) :
    ∃ stationStatus log, dhcpExchange s iface state ipAddr netmask gw notify =
      { s.modify iface (exchanged state ipAddr netmask gw) with stationStatus, log } := by
  unfold dhcpExchange
  rw [if_pos h]
  cases notify with
  | true => exact runStatusCallback_eq ..
  | false => exact ⟨_, _, rfl⟩

/-! ## One call -/

theorem ipStep_staIpStart {r : IpRun} (h : r.state.staIpStartFlag = 0) :
    (ipStep lw r .staIpStart).1 =
      ⟨netConfigureAddress lw { r.state with staIpStartFlag := 1, log := [] }
          r.state.staIpSettings .mlan,
        Function.update r.atStart .mlan r.state.staIpSettings⟩ := by
  show (⟨staIpStart lw { r.state with log := [] }, startedWith r .staIpStart⟩ : IpRun) = _
  unfold staIpStart startedWith
  rw [if_pos h]
  simp only [if_pos h]

theorem ipStep_uapIpStart {r : IpRun} (h : r.state.uapIpStartFlag = 0) :
    (ipStep lw r .uapIpStart).1 =
      ⟨netConfigureAddress lw { r.state with uapIpStartFlag := 1, log := [] }
          r.state.uapIpSettings .uap,
        Function.update r.atStart .uap r.state.uapIpSettings⟩ := by
  show (⟨uapIpStart lw { r.state with log := [] }, startedWith r .uapIpStart⟩ : IpRun) = _
  unfold uapIpStart startedWith
  rw [if_pos h]
  simp only [if_pos h]

/-- A start of a station that is started at most sets the station's status. -/
theorem ipStep_staIpStart_started (lw : Lwip) {r : IpRun} (h : r.state.staIpStartFlag ≠ 0) :
    ∃ stationStatus log,
      (ipStep lw r .staIpStart).1 = ⟨{ r.state with stationStatus, log }, r.atStart⟩ := by
  have hstate : ∃ stationStatus log, staIpStart lw { r.state with log := [] } =
      { r.state with stationStatus, log } := by
    unfold staIpStart
    rw [if_neg h]
    by_cases hcond : r.state.stationStatus = .staConnected ∧
        0 ≠ if (r.state.netif .mlan).up then (r.state.netif .mlan).ipAddr else 0
    · exact ⟨_, _, if_pos hcond⟩
    · exact ⟨_, _, if_neg hcond⟩
  obtain ⟨stationStatus, log, hstate⟩ := hstate
  refine ⟨stationStatus, log, ?_⟩
  show (⟨staIpStart lw { r.state with log := [] }, startedWith r .staIpStart⟩ : IpRun) = _
  unfold startedWith
  rw [hstate]
  simp only [if_neg h]

theorem ipStep_uapIpStart_started {r : IpRun} (h : r.state.uapIpStartFlag ≠ 0) :
    (ipStep lw r .uapIpStart).1 = ⟨{ r.state with log := [] }, r.atStart⟩ := by
  show (⟨uapIpStart lw { r.state with log := [] }, startedWith r .uapIpStart⟩ : IpRun) = _
  unfold uapIpStart startedWith
  rw [if_neg h]
  simp only [if_neg h]

theorem ipStep_staIpDown_stopped (lw : Lwip) {r : IpRun} (h : r.state.staIpStartFlag = 0) :
    (ipStep lw r .staIpDown).1 = ⟨{ r.state with log := [] }, r.atStart⟩ := by
  have hstate : staIpDown lw { r.state with log := [] } = { r.state with log := [] } :=
    if_neg (not_not.mpr h)
  exact congrArg (fun state => (⟨state, r.atStart⟩ : IpRun)) hstate

theorem ipStep_staIpDown (lw : Lwip) {r : IpRun} (h : r.state.staIpStartFlag ≠ 0) :
    ∃ log, (ipStep lw r .staIpDown).1 =
      ⟨{ r.state with staIpStartFlag := 0, log }.modify .mlan (stopSta lw), r.atStart⟩ := by
  obtain ⟨log, hdown⟩ := staIpDown_eq lw (s := { r.state with log := [] }) h
  exact ⟨log, congrArg (fun state => (⟨state, r.atStart⟩ : IpRun)) hdown⟩

theorem ipStep_uapIpDown_stopped (lw : Lwip) {r : IpRun} (h : r.state.uapIpStartFlag = 0) :
    (ipStep lw r .uapIpDown).1 = ⟨{ r.state with log := [] }, r.atStart⟩ := by
  have hstate : uapIpDown { r.state with log := [] } = { r.state with log := [] } :=
    if_neg (not_not.mpr h)
  exact congrArg (fun state => (⟨state, r.atStart⟩ : IpRun)) hstate

theorem ipStep_uapIpDown (lw : Lwip) {r : IpRun} (h : r.state.uapIpStartFlag ≠ 0) :
    ∃ log, (ipStep lw r .uapIpDown).1 =
      ⟨{ r.state with uapIpStartFlag := 0, dhcpdRunning := false, log }.modify .uap stopUap,
        r.atStart⟩ := by
  obtain ⟨log, hdown⟩ := uapIpDown_eq (s := { r.state with log := [] }) h
  exact ⟨log, congrArg (fun state => (⟨state, r.atStart⟩ : IpRun)) hdown⟩

/-- An exchange of an interface without a client does nothing. -/
theorem ipStep_exchange_idle (lw : Lwip) {r : IpRun} {iface : Iface}
    (h : (r.state.netif iface).dhcpRuns ≠ true) (state : DhcpState) (ipAddr netmask gw : UInt32)
    (notify : Bool) :
    (ipStep lw r (.exchange iface state ipAddr netmask gw notify)).1 =
      ⟨{ r.state with log := [] }, r.atStart⟩ := by
  have hstate : dhcpExchange { r.state with log := [] } iface state ipAddr netmask gw notify =
      { r.state with log := [] } := if_neg h
  exact congrArg (fun state => (⟨state, r.atStart⟩ : IpRun)) hstate

theorem ipStep_exchange (lw : Lwip) {r : IpRun} {iface : Iface}
    (h : (r.state.netif iface).dhcpRuns = true) (state : DhcpState) (ipAddr netmask gw : UInt32)
    (notify : Bool) :
    ∃ stationStatus log, (ipStep lw r (.exchange iface state ipAddr netmask gw notify)).1 =
      ⟨{ r.state with stationStatus, log }.modify iface (exchanged state ipAddr netmask gw),
        r.atStart⟩ := by
  obtain ⟨stationStatus, log, hstate⟩ :=
    dhcpExchange_eq (s := { r.state with log := [] }) h state ipAddr netmask gw notify
  exact ⟨stationStatus, log, congrArg (fun state => (⟨state, r.atStart⟩ : IpRun)) hstate⟩

theorem ipStep_ipAddressSet (lw : Lwip) (r : IpRun) (iface dhcp : Int)
    (ip mask gw dns : UInt32) :
    ∃ sta uap, (ipStep lw r (.ipAddressSet iface dhcp ip mask gw dns)).1 =
        ⟨{ r.state with staIpSettings := sta, uapIpSettings := uap, log := [] }, r.atStart⟩ ∧
      if iface = 1 then uap = r.state.uapIpSettings else sta = r.state.staIpSettings := by
  show ∃ sta uap, (⟨ipAddressSet { r.state with log := [] } iface dhcp ip mask gw dns, r.atStart⟩ :
    IpRun) = _ ∧ _
  unfold ipAddressSet
  by_cases hsta : iface = 1
  · exact ⟨_, _, congrArg (IpRun.mk · r.atStart) (if_pos hsta), (if_pos hsta).mpr rfl⟩
  · exact ⟨_, _, congrArg (IpRun.mk · r.atStart) (if_neg hsta), (if_neg hsta).mpr rfl⟩

/-! ## What every call keeps -/

/-- What every call keeps: the interfaces and the server follow the flags, the station's side is in
    step, and a DHCP record of the station that no client uses is not bound. -/
structure BaseInv (r : IpRun) : Prop where
  staUp : (r.state.netif .mlan).up = true ↔ r.state.staIpStartFlag ≠ 0
  uapUp : (r.state.netif .uap).up = true ↔ r.state.uapIpStartFlag ≠ 0
  server : r.state.dhcpdRunning = true ↔ r.state.uapIpStartFlag ≠ 0
  sta : IfaceOk (r.state.netif .mlan) r.state.staIpStartFlag (r.atStart .mlan)
  record : (r.state.netif .mlan).dhcpRuns = false → (r.state.netif .mlan).dhcp ≠ some .bound

/-- The access point's side is in step, and where no client runs it has no DHCP record. -/
structure UapInv (r : IpRun) : Prop where
  ok : IfaceOk (r.state.netif .uap) r.state.uapIpStartFlag (r.atStart .uap)
  record : (r.state.netif .uap).dhcpRuns = false → (r.state.netif .uap).dhcp = none

theorem IfaceOk.stopped {n : Netif} (h : n.dhcpRuns = false) (start : Ipv4Config) :
    IfaceOk n 0 start := by
  have hzero : ¬(0 : UInt32) ≠ 0 := fun h => h rfl
  exact ⟨iff_of_false (Bool.eq_false_iff.mp h) fun h => hzero h.1, fun h => absurd h hzero,
    fun h => absurd h hzero, fun h => absurd h hzero⟩

theorem BaseInv.static : BaseInv .static := by
  have hzero : ¬(0 : UInt32) ≠ 0 := fun h => h rfl
  exact ⟨iff_of_false Bool.false_ne_true hzero, iff_of_false Bool.false_ne_true hzero,
    iff_of_false Bool.false_ne_true hzero, .stopped rfl _, fun _ h => nomatch h⟩

theorem UapInv.static : UapInv .static := ⟨.stopped rfl _, fun _ => rfl⟩

theorem BaseInv.sta_down {r : IpRun} (h : BaseInv r) (hflag : r.state.staIpStartFlag = 0) :
    (r.state.netif .mlan).up = false :=
  Bool.eq_false_iff.mpr fun hup => h.staUp.mp hup hflag

theorem BaseInv.uap_down {r : IpRun} (h : BaseInv r) (hflag : r.state.uapIpStartFlag = 0) :
    (r.state.netif .uap).up = false :=
  Bool.eq_false_iff.mpr fun hup => h.uapUp.mp hup hflag

/-- No DHCP client runs on an interface that is not started. -/
theorem IfaceOk.idle {n : Netif} {flag : UInt32} {start : Ipv4Config} (h : IfaceOk n flag start)
    (hflag : flag = 0) : n.dhcpRuns = false :=
  Bool.eq_false_iff.mpr fun hruns => (h.runs.mp hruns).1 hflag

/-- A DHCP client runs only with DHCP settings, so an exchange changes no static address. -/
theorem IfaceOk.exchanged {n : Netif} {flag : UInt32} {start : Ipv4Config}
    (h : IfaceOk n flag start) (hruns : n.dhcpRuns = true) (state : DhcpState)
    (ipAddr netmask gw : UInt32) : IfaceOk (exchanged state ipAddr netmask gw n) flag start := by
  have hno : start.addrType ≠ .static := by
    rw [(h.runs.mp hruns).2]
    decide
  exact ⟨h.runs, fun _ h => absurd h hno, fun _ h => absurd h hno, fun _ h => absurd h hno⟩

theorem base_staIpStart (lw : Lwip) {r : IpRun} (h : BaseInv r) :
    BaseInv (ipStep lw r .staIpStart).1 := by
  by_cases hflag : r.state.staIpStartFlag = 0
  · have hdown := h.sta_down hflag
    have hruns := h.sta.idle hflag
    rw [ipStep_staIpStart hflag]
    obtain ⟨hup, hothers, hsta, huap, hserver, -⟩ :=
      configured lw (s := { r.state with staIpStartFlag := 1, log := [] }) hdown
        r.state.staIpSettings
    obtain ⟨hok, hrecord⟩ :=
      configured_ok lw (s := { r.state with staIpStartFlag := 1, log := [] }) hdown hruns
        r.state.staIpSettings (P := (· ≠ some .bound)) (h.record hruns)
    refine ⟨?_, ?_, ?_, ?_, hrecord⟩
    · rw [hsta]
      exact iff_of_true hup (by decide : (1 : UInt32) ≠ 0)
    · rw [hothers .uap (by decide), huap]
      exact h.uapUp
    · rw [hserver, huap]
      simpa using h.server
    · show IfaceOk _ _ (Function.update r.atStart .mlan r.state.staIpSettings .mlan)
      rw [Function.update_self, hsta]
      exact hok
  · obtain ⟨stationStatus, log, hstate⟩ := ipStep_staIpStart_started lw hflag
    rw [hstate]
    exact ⟨h.staUp, h.uapUp, h.server, h.sta, h.record⟩

theorem base_staIpDown (lw : Lwip) {r : IpRun} (h : BaseInv r) :
    BaseInv (ipStep lw r .staIpDown).1 := by
  by_cases hflag : r.state.staIpStartFlag = 0
  · rw [ipStep_staIpDown_stopped lw hflag]
    exact ⟨h.staUp, h.uapUp, h.server, h.sta, h.record⟩
  · obtain ⟨log, hstate⟩ := ipStep_staIpDown lw hflag
    rw [hstate]
    have hmlan := modify_netif_self { r.state with staIpStartFlag := 0, log } .mlan (stopSta lw)
    have huap := modify_netif_ne (show Iface.uap ≠ .mlan by decide)
      { r.state with staIpStartFlag := 0, log } (stopSta lw)
    refine ⟨?_, ?_, h.server, ?_, ?_⟩
    · rw [hmlan]
      exact iff_of_false Bool.false_ne_true fun h => h rfl
    · rw [huap]
      exact h.uapUp
    · rw [hmlan]
      exact .stopped rfl _
    · rw [hmlan]
      intro _ hbound
      obtain ⟨state, -, hstate⟩ := Option.map_eq_some_iff.mp hbound
      exact lw.dhcpStop_ne state hstate

theorem base_uapIpStart (lw : Lwip) {r : IpRun} (h : BaseInv r) :
    BaseInv (ipStep lw r .uapIpStart).1 := by
  by_cases hflag : r.state.uapIpStartFlag = 0
  · have hdown := h.uap_down hflag
    rw [ipStep_uapIpStart hflag]
    obtain ⟨hup, hothers, hsta, huap, hserver, -⟩ :=
      configured lw (s := { r.state with uapIpStartFlag := 1, log := [] }) hdown
        r.state.uapIpSettings
    have hone : (1 : UInt32) ≠ 0 := by decide
    have hmlan := hothers .mlan (by decide)
    refine ⟨?_, ?_, ?_, ?_, ?_⟩
    · rw [hmlan, hsta]
      exact h.staUp
    · rw [huap]
      exact iff_of_true hup hone
    · rw [hserver, huap]
      exact iff_of_true (by simp) hone
    · rw [hmlan, hsta]
      exact h.sta
    · rw [hmlan]
      exact h.record
  · rw [ipStep_uapIpStart_started hflag]
    exact ⟨h.staUp, h.uapUp, h.server, h.sta, h.record⟩

theorem base_uapIpDown (lw : Lwip) {r : IpRun} (h : BaseInv r) :
    BaseInv (ipStep lw r .uapIpDown).1 := by
  by_cases hflag : r.state.uapIpStartFlag = 0
  · rw [ipStep_uapIpDown_stopped lw hflag]
    exact ⟨h.staUp, h.uapUp, h.server, h.sta, h.record⟩
  · obtain ⟨log, hstate⟩ := ipStep_uapIpDown lw hflag
    rw [hstate]
    have huap := modify_netif_self
      { r.state with uapIpStartFlag := 0, dhcpdRunning := false, log } .uap stopUap
    have hmlan := modify_netif_ne (show Iface.mlan ≠ .uap by decide)
      { r.state with uapIpStartFlag := 0, dhcpdRunning := false, log } stopUap
    refine ⟨?_, ?_, ?_, ?_, ?_⟩
    · rw [hmlan]
      exact h.staUp
    · rw [huap]
      exact iff_of_false Bool.false_ne_true fun h => h rfl
    · exact iff_of_false Bool.false_ne_true fun h => h rfl
    · rw [hmlan]
      exact h.sta
    · rw [hmlan]
      exact h.record

theorem base_exchange (lw : Lwip) {r : IpRun} (h : BaseInv r) (iface : Iface) (state : DhcpState)
    (ipAddr netmask gw : UInt32) (notify : Bool) :
    BaseInv (ipStep lw r (.exchange iface state ipAddr netmask gw notify)).1 := by
  by_cases hruns : (r.state.netif iface).dhcpRuns = true
  · obtain ⟨stationStatus, log, hstate⟩ :=
      ipStep_exchange lw hruns state ipAddr netmask gw notify
    rw [hstate]
    have hself := modify_netif_self { r.state with stationStatus, log } iface
      (exchanged state ipAddr netmask gw)
    have hother := fun other (hne : other ≠ iface) => modify_netif_ne hne
      { r.state with stationStatus, log } (exchanged state ipAddr netmask gw)
    cases iface with
    | mlan =>
      refine ⟨?_, ?_, h.server, ?_, ?_⟩
      · rw [hself]
        exact h.staUp
      · rw [hother .uap (by decide)]
        exact h.uapUp
      · rw [hself]
        exact h.sta.exchanged hruns ..
      · rw [hself]
        exact fun hidle => absurd hruns (Bool.eq_false_iff.mp hidle)
    | uap =>
      refine ⟨?_, ?_, h.server, ?_, ?_⟩
      · rw [hother .mlan (by decide)]
        exact h.staUp
      · rw [hself]
        exact h.uapUp
      · rw [hother .mlan (by decide)]
        exact h.sta
      · rw [hother .mlan (by decide)]
        exact h.record
  · rw [ipStep_exchange_idle lw hruns]
    exact ⟨h.staUp, h.uapUp, h.server, h.sta, h.record⟩

theorem base_step (lw : Lwip) {r : IpRun} (h : BaseInv r) (c : NetCall) :
    BaseInv (ipStep lw r c).1 := by
  cases c with
  | ipAddressSet iface dhcp ip mask gw dns =>
    obtain ⟨sta, uap, hstate, -⟩ := ipStep_ipAddressSet lw r iface dhcp ip mask gw dns
    rw [hstate]
    exact ⟨h.staUp, h.uapUp, h.server, h.sta, h.record⟩
  | staIpStart => exact base_staIpStart lw h
  | staIpDown => exact base_staIpDown lw h
  | uapIpStart => exact base_uapIpStart lw h
  | uapIpDown => exact base_uapIpDown lw h
  | exchange iface state ipAddr netmask gw notify => exact base_exchange lw h ..
  | stationStatus type => exact ⟨h.staUp, h.uapUp, h.server, h.sta, h.record⟩

/-! ## The two sides -/

theorem apart_staIpStart (lw : Lwip) {r : IpRun} (h : BaseInv r) :
    uapOf (ipStep lw r .staIpStart).1.state = uapOf r.state := by
  by_cases hflag : r.state.staIpStartFlag = 0
  · have hdown := h.sta_down hflag
    have hconf := configured lw (s := { r.state with staIpStartFlag := 1, log := [] }) hdown
      r.state.staIpSettings
    rw [ipStep_staIpStart hflag]
    unfold uapOf
    rw [hconf.uapSettings (by decide), hconf.uapFlag, hconf.others .uap (by decide), hconf.server]
    simp
  · obtain ⟨stationStatus, log, hstate⟩ := ipStep_staIpStart_started lw hflag
    rw [hstate]
    rfl

theorem apart_staIpDown (lw : Lwip) (r : IpRun) :
    uapOf (ipStep lw r .staIpDown).1.state = uapOf r.state := by
  by_cases hflag : r.state.staIpStartFlag = 0
  · rw [ipStep_staIpDown_stopped lw hflag]
    rfl
  · obtain ⟨log, hstate⟩ := ipStep_staIpDown lw hflag
    rw [hstate]
    rfl

theorem apart_uapIpStart (lw : Lwip) {r : IpRun} (h : BaseInv r) (hap : UapInv r) :
    staOf (ipStep lw r .uapIpStart).1.state = staOf r.state := by
  by_cases hflag : r.state.uapIpStartFlag = 0
  · have hdown := h.uap_down hflag
    have hruns := hap.ok.idle hflag
    have hconf := configured lw (s := { r.state with uapIpStartFlag := 1, log := [] }) hdown
      r.state.uapIpSettings
    rw [ipStep_uapIpStart hflag]
    unfold staOf
    rw [hconf.staSettings (by decide), hconf.staFlag, hconf.others .mlan (by decide),
      hconf.status (hap.record hruns)]
  · rw [ipStep_uapIpStart_started hflag]
    rfl

theorem apart_uapIpDown (lw : Lwip) (r : IpRun) :
    staOf (ipStep lw r .uapIpDown).1.state = staOf r.state := by
  by_cases hflag : r.state.uapIpStartFlag = 0
  · rw [ipStep_uapIpDown_stopped lw hflag]
    rfl
  · obtain ⟨log, hstate⟩ := ipStep_uapIpDown lw hflag
    rw [hstate]
    rfl

theorem apart_step (lw : Lwip) {r : IpRun} (h : BaseInv r) (hap : UapInv r) (c : NetCall) :
    Apart r.state (ipStep lw r c).1.state c := by
  cases c with
  | ipAddressSet iface dhcp ip mask gw dns =>
    obtain ⟨sta, uap, hstate, hsame⟩ := ipStep_ipAddressSet lw r iface dhcp ip mask gw dns
    rw [hstate]
    show if iface = 1 then uapOf _ = uapOf r.state else staOf _ = staOf r.state
    by_cases hsta : iface = 1
    · rw [if_pos hsta] at hsame ⊢
      exact congrArg (fun addr => (addr, _, _, _)) hsame
    · rw [if_neg hsta] at hsame ⊢
      exact congrArg (fun addr => (addr, _, _, _)) hsame
  | staIpStart => exact apart_staIpStart lw h
  | staIpDown => exact apart_staIpDown lw r
  | uapIpStart => exact apart_uapIpStart lw h hap
  | uapIpDown => exact apart_uapIpDown lw r
  | exchange iface state ipAddr netmask gw notify => trivial
  | stationStatus type => trivial

/-- What is of the access point stays in step where nothing of it changes. -/
theorem UapInv.of_uapOf {r r' : IpRun} (h : UapInv r) (hsame : uapOf r'.state = uapOf r.state)
    (hstart : r'.atStart .uap = r.atStart .uap) : UapInv r' := by
  have hflag : r'.state.uapIpStartFlag = r.state.uapIpStartFlag := congrArg (·.2.1) hsame
  have hnetif : r'.state.netif .uap = r.state.netif .uap := congrArg (·.2.2.1) hsame
  refine ⟨?_, ?_⟩
  · rw [hnetif, hflag, hstart]
    exact h.ok
  · rw [hnetif]
    exact h.record

theorem uap_uapIpStart (lw : Lwip) {r : IpRun} (h : BaseInv r) (hap : UapInv r) :
    UapInv (ipStep lw r .uapIpStart).1 := by
  by_cases hflag : r.state.uapIpStartFlag = 0
  · have hdown := h.uap_down hflag
    have hruns := hap.ok.idle hflag
    have hconf := configured lw (s := { r.state with uapIpStartFlag := 1, log := [] }) hdown
      r.state.uapIpSettings
    obtain ⟨hok, hrecord⟩ :=
      configured_ok lw (s := { r.state with uapIpStartFlag := 1, log := [] }) hdown hruns
        r.state.uapIpSettings (P := (· = none)) (hap.record hruns)
    rw [ipStep_uapIpStart hflag]
    refine ⟨?_, hrecord⟩
    show IfaceOk _ _ (Function.update r.atStart .uap r.state.uapIpSettings .uap)
    rw [Function.update_self, hconf.uapFlag]
    exact hok
  · rw [ipStep_uapIpStart_started hflag]
    exact ⟨hap.ok, hap.record⟩

/-- A stop of an access point that no DHCP client uses. -/
theorem uap_uapIpDown (lw : Lwip) {r : IpRun} (hap : UapInv r) (hc : StopsStatic r .uapIpDown) :
    UapInv (ipStep lw r .uapIpDown).1 := by
  by_cases hflag : r.state.uapIpStartFlag = 0
  · rw [ipStep_uapIpDown_stopped lw hflag]
    exact ⟨hap.ok, hap.record⟩
  · have hruns : (r.state.netif .uap).dhcpRuns = false := by
      refine Bool.eq_false_iff.mpr fun hruns => ?_
      have hstatic := hc hflag
      rw [(hap.ok.runs.mp hruns).2] at hstatic
      exact nomatch hstatic
    obtain ⟨log, hstate⟩ := ipStep_uapIpDown lw hflag
    have hself := modify_netif_self
      { r.state with uapIpStartFlag := 0, dhcpdRunning := false, log } .uap stopUap
    rw [hstate]
    refine ⟨?_, ?_⟩
    · rw [hself]
      exact .stopped (n := stopUap (r.state.netif .uap)) hruns _
    · rw [hself]
      exact hap.record

theorem uap_exchange (lw : Lwip) {r : IpRun} (hap : UapInv r) (iface : Iface) (state : DhcpState)
    (ipAddr netmask gw : UInt32) (notify : Bool) :
    UapInv (ipStep lw r (.exchange iface state ipAddr netmask gw notify)).1 := by
  by_cases hruns : (r.state.netif iface).dhcpRuns = true
  · obtain ⟨stationStatus, log, hstate⟩ :=
      ipStep_exchange lw hruns state ipAddr netmask gw notify
    rw [hstate]
    cases iface with
    | mlan => exact hap.of_uapOf rfl rfl
    | uap =>
      have hself := modify_netif_self { r.state with stationStatus, log } .uap
        (exchanged state ipAddr netmask gw)
      refine ⟨?_, ?_⟩
      · rw [hself]
        exact hap.ok.exchanged hruns ..
      · rw [hself]
        exact fun hidle => absurd hruns (Bool.eq_false_iff.mp hidle)
  · rw [ipStep_exchange_idle lw hruns]
    exact ⟨hap.ok, hap.record⟩

theorem uap_step (lw : Lwip) {r : IpRun} (h : BaseInv r) (hap : UapInv r) {c : NetCall}
    (hc : StopsStatic r c) : UapInv (ipStep lw r c).1 := by
  cases c with
  | ipAddressSet iface dhcp ip mask gw dns =>
    obtain ⟨sta, uap, hstate, -⟩ := ipStep_ipAddressSet lw r iface dhcp ip mask gw dns
    rw [hstate]
    exact ⟨hap.ok, hap.record⟩
  | staIpStart =>
    refine hap.of_uapOf (apart_staIpStart lw h) ?_
    show (if r.state.staIpStartFlag = 0 then
      Function.update r.atStart .mlan r.state.staIpSettings else r.atStart) .uap = _
    split <;> rfl
  | staIpDown => exact hap.of_uapOf (apart_staIpDown lw r) rfl
  | uapIpStart => exact uap_uapIpStart lw h hap
  | uapIpDown => exact uap_uapIpDown lw hap hc
  | exchange iface state ipAddr netmask gw notify => exact uap_exchange lw hap ..
  | stationStatus type => exact ⟨hap.ok, hap.record⟩

/-! ## Runs -/

/-- Where both sides are in step, they are so behind a call if and only if it stops no access
    point that has been started with DHCP settings. -/
theorem ipOk_iff (lw : Lwip) {r : IpRun} (h : BaseInv r) (hap : UapInv r) (c : NetCall) :
    IpOk lw r c ↔ StopsStatic r c := by
  constructor
  · intro hok
    cases c with
    | uapIpDown =>
      intro hflag
      obtain ⟨log, hstate⟩ := ipStep_uapIpDown lw hflag
      have hself := modify_netif_self
        { r.state with uapIpStartFlag := 0, dhcpdRunning := false, log } .uap stopUap
      have hstopped := hok.uap.runs
      rw [hstate, hself] at hstopped
      cases haddr : (r.atStart .uap).addrType with
      | static => rfl
      | dhcp =>
        have hruns : (r.state.netif .uap).dhcpRuns = true := hap.ok.runs.mpr ⟨hflag, haddr⟩
        exact absurd rfl (hstopped.mp hruns).1
    | _ => trivial
  · intro hc
    have hbase := base_step lw h c
    have huap := uap_step lw h hap hc
    refine ⟨hbase.staUp.symm, ?_, hbase.sta, huap.ok, apart_step lw h hap c⟩
    rw [hbase.uapUp, hbase.server, and_self]

/-- In every sequence of calls from reset, with exchanges of the DHCP clients in between: the start
    flags, the interfaces, the DHCP clients and the DHCP server are in step behind every call, an
    interface that is started with static settings has their addresses, and the calls for one side
    leave the other side alone, if and only if no call stops an access point that has been started
    with DHCP settings. -/
theorem ip_state_iff (lw : Lwip) (cs : List NetCall) :
    Along (ipStep lw) (IpOk lw) .static cs ↔ Along (ipStep lw) StopsStatic .static cs := by
  symm
  apply along_congr (I := fun r => BaseInv r ∧ UapInv r)
  · exact fun _ c h hc => ⟨base_step lw h.1 c, uap_step lw h.1 h.2 hc⟩
  · exact fun _ c h => (ipOk_iff lw h.1 h.2 c).symm
  · exact ⟨.static, .static⟩

/-- The access point is started with unset settings, and stopped. -/
theorem ip_state_dhcp_left :
    ¬Along (ipStep .linkUp) (IpOk .linkUp) .static [.uapIpStart, .uapIpDown] := by
  intro hrun
  obtain ⟨-, hdown, -⟩ := hrun
  exact absurd hdown.uap.runs (by decide)

end ArduinoT2.Wifi
